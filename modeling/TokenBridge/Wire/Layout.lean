import TokenBridge.Address
import TokenBridge.Text.Utf8
import TokenBridge.Wire.Fault
/-!
The shared byte layout of records and instructions, and its reader.

Integers are little-endian (`u32` in 4 bytes, `u64` in 8), a bool is one byte 0 or 1, an address
is its 32 bytes, and a byte string or text is its length as a `u32` followed by its bytes.

A reader walks a cursor over the input. Each read names the field it reads, so a failure says
which field ran past the end (at the offset where that read started, which for a length-prefixed
field is just after the prefix), held a bad bool, or was not UTF-8.
-/

namespace TokenBridge.Wire

/-- One byte. -/
def u8 (v : UInt8) : Bytes := [v]

/-- A bool as the byte 0 or 1. -/
def bool (b : Bool) : Bytes := [if b then 1 else 0]

/-- A 32-bit integer, little-endian. -/
def u32 (v : UInt32) : Bytes := Bytes.ofNatLE 4 v.toNat

/-- A 64-bit integer, little-endian. -/
def u64 (v : UInt64) : Bytes := Bytes.ofNatLE 8 v.toNat

/-- An address as its 32 bytes. -/
def address (a : Address) : Bytes := a.bytes

/-- A byte string after its length. -/
def bytes (b : Bytes) : Bytes := u32 b.length.toUInt32 ++ b

/-- A text as its UTF-8 bytes after their length. -/
def text (s : String) : Bytes := bytes (Utf8.encode s)

/-- The bytes not yet read, and the offset of the first of them. -/
structure Cursor where
  rest : Bytes
  offset : Nat

/-- A cursor at the start of `input`. -/
def Cursor.start (input : Bytes) : Cursor := ⟨input, 0⟩

/-- A reader of one value. -/
abbrev Reader (α : Type) := StateT Cursor (Except Fault) α

/-- The next `n` bytes, for the field `field`. -/
def take (n : Nat) (field : String) : Reader Bytes := fun c =>
  if n ≤ c.rest.length then .ok (c.rest.take n, ⟨c.rest.drop n, c.offset + n⟩)
  else .error (.short field n c.offset c.rest.length)

/-- Whether no bytes are left. -/
def atEnd : Reader Bool := fun c => .ok (c.rest.isEmpty, c)

def readU8 (field : String) : Reader UInt8 := do
  let bs ← take 1 field
  pure (bs.headD 0)

def readBool (field : String) : Reader Bool := do
  let v ← readU8 field
  if v == 0 then pure false
  else if v == 1 then pure true
  else throw (.notBool field v)

def readU32 (field : String) : Reader UInt32 := do
  let bs ← take 4 field
  pure (Bytes.toNatLE bs).toUInt32

def readU64 (field : String) : Reader UInt64 := do
  let bs ← take 8 field
  pure (Bytes.toNatLE bs).toUInt64

def readAddress (field : String) : Reader Address := do
  let bs ← take 32 field
  pure (Address.ofBytes bs)

def readBytes (field : String) : Reader Bytes := do
  let n ← readU32 field
  take n.toNat field

def readText (field : String) : Reader String := do
  let bs ← readBytes field
  match Utf8.decode bs with
  | .ok s => pure s
  | .error e => throw (.notText field e)

/-- Decodes a whole record of kind `kind`: refuses a buffer below `minLen` bytes, then reads the
fields, then refuses leftover bytes. -/
def decodeRecord {α : Type} (kind : RecordKind) (minLen : Nat) (read : Reader α) (input : Bytes) :
    Except CodecError α :=
  if input.length < minLen then .error ⟨kind, .tooShort minLen input.length⟩
  else match read (Cursor.start input) with
    | .error f => .error ⟨kind, f⟩
    | .ok (v, c) =>
      if c.rest.isEmpty then .ok v else .error ⟨kind, .trailing c.rest.length c.offset⟩

end TokenBridge.Wire
