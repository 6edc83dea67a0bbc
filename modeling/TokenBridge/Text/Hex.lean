import TokenBridge.Bytes
import TokenBridge.Text.Utf8
import TokenBridge.Text.Quoted
/-!
Hexadecimal text of byte strings: two digits per byte, written in lower case.

Reading takes the text's UTF-8 bytes two at a time and accepts both cases. A text of odd length
is refused before any digit is looked at; otherwise the first byte that is no digit is reported
with its position, shown as the Latin-1 character of that byte.
-/

namespace TokenBridge.Hex

/-- Why a text is not hexadecimal. -/
inductive HexError where
  | oddLength
  | invalidChar (byte : UInt8) (position : Nat)
  deriving DecidableEq, Repr

/-- The error in words. -/
def HexError.message : HexError → String
  | .oddLength => "Odd number of digits"
  | .invalidChar byte position =>
    "Invalid character " ++ Quoted.char (Char.ofNat byte.toNat) ++ " at position "
      ++ toString position

/-- The digit of a value below 16. -/
def digitChar (n : Nat) : Char :=
  if n < 10 then Char.ofNat (48 + n) else Char.ofNat (87 + n)

/-- Two lower-case digits per byte. -/
def encode (bytes : Bytes) : String :=
  String.ofList (bytes.flatMap fun b => [digitChar (b.toNat / 16), digitChar (b.toNat % 16)])

/-- The value of a digit byte, in either case. -/
def digitValue (b : UInt8) : Option Nat :=
  let n := b.toNat
  if 48 ≤ n && n ≤ 57 then some (n - 48)
  else if 97 ≤ n && n ≤ 102 then some (n - 87)
  else if 65 ≤ n && n ≤ 70 then some (n - 55)
  else none

/-- The bytes of digit pairs, the first standing at `position`. -/
def decodePairs (position : Nat) : Bytes → Except HexError Bytes
  | hi :: lo :: rest =>
    match digitValue hi, digitValue lo with
    | some h, some l => ((h * 16 + l).toUInt8 :: ·) <$> decodePairs (position + 2) rest
    | none, _ => .error (.invalidChar hi position)
    | some _, none => .error (.invalidChar lo (position + 1))
  | _ => .ok []

/-- The bytes that a hexadecimal text spells. -/
def decode (s : String) : Except HexError Bytes :=
  let bytes := Utf8.encode s
  if bytes.length % 2 == 1 then .error .oddLength else decodePairs 0 bytes

end TokenBridge.Hex
