import TokenBridge.Text.Utf8
import TokenBridge.Text.Hex
/-!
Why a byte string does not decode, and the codec error that names the record it concerns.

Faults are causes: a buffer shorter than the record's least length, a field that runs past the
end, a bool byte other than 0 or 1, a text field that is not UTF-8, an unknown instruction tag,
a log line that is not hexadecimal, and bytes left over at the end. Leftover bytes make a
schema mismatch; every other fault makes the record malformed.
-/

namespace TokenBridge

/-- The four byte layouts that decode. -/
inductive RecordKind where
  | config
  | route
  | transferLog
  | command
  deriving DecidableEq, Repr

/-- The name a layout goes by in messages. -/
def RecordKind.name : RecordKind → String
  | .config => "Config"
  | .route => "BridgeAccount"
  | .transferLog => "BridgeLog"
  | .command => "BridgeInstruction"

/-- Why a byte string does not decode. -/
inductive Fault where
  /-- The buffer is shorter than the least length of the record. -/
  | tooShort (needed got : Nat)
  /-- A field needs `needed` bytes at `offset`, where only `remaining` are left. -/
  | short (field : String) (needed offset remaining : Nat)
  /-- A bool field holds a byte other than 0 or 1. -/
  | notBool (field : String) (value : UInt8)
  /-- A text field is not UTF-8. -/
  | notText (field : String) (error : Utf8.Utf8Error)
  /-- The first byte of an instruction names no instruction. -/
  | unknownTag (tag : UInt8)
  /-- A log line's payload is not hexadecimal. -/
  | invalidHex (error : Hex.HexError)
  /-- `remaining` bytes follow the `decoded` bytes of a complete record. -/
  | trailing (remaining decoded : Nat)
  /-- `remaining` bytes follow a complete instruction named `command`. -/
  | trailingAfter (remaining : Nat) (command : String)
  deriving DecidableEq, Repr

namespace Fault

/-- Leftover bytes are a schema mismatch; all else is a malformed record. -/
def isMismatch : Fault → Bool
  | .trailing .. | .trailingAfter .. => true
  | _ => false

/-- The fault in words. -/
def reason : Fault → String
  | .tooShort needed got => "needs at least " ++ toString needed ++ " bytes, got " ++ toString got
  | .short field needed offset remaining =>
    field ++ " needs " ++ toString needed ++ " bytes at offset " ++ toString offset ++ ", only "
      ++ toString remaining ++ " left"
  | .notBool field value =>
    field ++ " holds " ++ toString value.toNat ++ " where a bool (0 or 1) is expected"
  | .notText field error => field ++ " is not valid UTF-8: " ++ error.message
  | .unknownTag tag => "unknown tag " ++ toString tag.toNat
  | .invalidHex error => "invalid hex: " ++ error.message
  | .trailing remaining decoded =>
    toString remaining ++ " trailing bytes after " ++ toString decoded ++ " decoded bytes"
  | .trailingAfter remaining command =>
    toString remaining ++ " trailing bytes after " ++ command ++ " payload"

end Fault

/-- A decoding failure: the record it concerns and its fault. -/
structure CodecError where
  record : RecordKind
  fault : Fault
  deriving DecidableEq, Repr

namespace CodecError

/-- The message of a codec error, from its class, its record's name and its reason. -/
def render (mismatch : Bool) (record reason : String) : String :=
  if mismatch then "schema mismatch for " ++ record ++ ": " ++ reason
  else "malformed " ++ record ++ ": " ++ reason

/-- The error's class: `SchemaMismatch` or `MalformedRecord`. -/
def kindName (e : CodecError) : String :=
  if e.fault.isMismatch then "SchemaMismatch" else "MalformedRecord"

/-- The error in words. -/
def message (e : CodecError) : String :=
  render e.fault.isMismatch e.record.name e.fault.reason

end CodecError

end TokenBridge
