import TokenBridge.Bytes
import TokenBridge.Text.Base58
/-!
Addresses: the 32-byte keys that name accounts and programs, written in base 58.

Reading a text refuses one longer than 44 bytes or one that spells other than 32 bytes
(`wrongSize`), and one with a character outside the alphabet (`invalid`). Addresses are ordered
by their bytes, the order in which a message lists its keys.
-/

namespace TokenBridge

/-- A 32-byte address. -/
structure Address where
  bytes : Bytes
  length_bytes : bytes.length = 32
  deriving DecidableEq

namespace Address

/-- The address of the first 32 bytes, padded with zeros when fewer. -/
def ofBytes (bs : Bytes) : Address :=
  ⟨(bs ++ List.replicate 32 0).take 32, by simp⟩

/-- The all-zero address, which is also the system program's. -/
def zero : Address := ofBytes []

instance : Inhabited Address := ⟨zero⟩

/-- The base-58 text of an address. -/
def toBase58 (a : Address) : String := Base58.encode a.bytes

/-- Why a text is not an address. -/
inductive ParseError where
  | wrongSize
  | invalid
  deriving DecidableEq, Repr

/-- The error in words. -/
def ParseError.message : ParseError → String
  | .wrongSize => "String is the wrong size"
  | .invalid => "Invalid Base58 string"

/-- The address a base-58 text spells. -/
def parse (s : String) : Except ParseError Address :=
  if s.utf8ByteSize > 44 then .error .wrongSize
  else match Base58.decode? s with
    | none => .error .invalid
    | some bs => if h : bs.length = 32 then .ok ⟨bs, h⟩ else .error .wrongSize

/-- Byte-wise comparison, the first differing byte deciding. -/
def compareBytes : Bytes → Bytes → Ordering
  | [], [] => .eq
  | [], _ :: _ => .lt
  | _ :: _, [] => .gt
  | a :: as, b :: bs => if a < b then .lt else if b < a then .gt else compareBytes as bs

/-- `a` comes before `b` in byte order. -/
def lt (a b : Address) : Bool := compareBytes a.bytes b.bytes == .lt

/-- The token program, version 2022. -/
def tokenProgram2022 : Address :=
  ofBytes [6, 221, 246, 225, 238, 117, 143, 222, 24, 66, 93, 188, 228, 108, 205, 218, 182, 26, 252,
    77, 131, 185, 13, 39, 254, 189, 249, 40, 216, 161, 139, 252]

/-- The first token program. -/
def tokenProgram : Address :=
  ofBytes [6, 221, 246, 225, 215, 101, 161, 147, 217, 203, 225, 70, 206, 235, 121, 172, 28, 180,
    133, 237, 95, 91, 55, 145, 58, 140, 245, 133, 126, 255, 0, 169]

/-- The system program owns every plain account. -/
def systemProgram : Address := zero

end Address

end TokenBridge
