import TokenBridge.Bytes
/-!
UTF-8: writing text as bytes, and reading bytes back as text with the first fault located.

A sequence starts with a byte that fixes its width (1 to 4); its second byte has a range that
depends on the first, which rules out overlong forms, surrogates and values above U+10FFFF; later
bytes are continuation bytes `10xxxxxx`. A fault is either a bad sequence, reported with the
number of bytes that were checked and found wanting, or a sequence cut short by the end.
-/

namespace TokenBridge.Utf8

/-- Where and why a byte string is not UTF-8. -/
inductive Utf8Error where
  /-- The sequence starting at `index` is bad after `width` of its bytes. -/
  | invalid (index width : Nat)
  /-- The sequence starting at `index` is cut short by the end of the input. -/
  | incomplete (index : Nat)
  deriving DecidableEq, Repr

/-- The error in words. -/
def Utf8Error.message : Utf8Error → String
  | .invalid index width =>
    "invalid utf-8 sequence of " ++ toString width ++ " bytes from index " ++ toString index
  | .incomplete index => "incomplete utf-8 byte sequence from index " ++ toString index

/-- The UTF-8 bytes of a text. -/
def encode (s : String) : Bytes := s.toList.flatMap String.utf8EncodeChar

/-- A continuation byte `10xxxxxx`. -/
def isContinuation (b : UInt8) : Bool := b &&& 0xC0 == 0x80

/-- Whether `second` may follow the lead byte `first` of a three- or four-byte sequence. -/
def secondFits (first second : UInt8) : Bool :=
  if first == 0xE0 then 0xA0 ≤ second && second ≤ 0xBF
  else if first == 0xED then 0x80 ≤ second && second ≤ 0x9F
  else if first == 0xF0 then 0x90 ≤ second && second ≤ 0xBF
  else if first == 0xF4 then 0x80 ≤ second && second ≤ 0x8F
  else 0x80 ≤ second && second ≤ 0xBF

/-- The low six bits of a continuation byte. -/
def payload (b : UInt8) : Nat := (b &&& 0x3F).toNat

/-- The characters of `bytes`, whose first byte stands at `index` of the whole input. -/
def decodeFrom (index : Nat) : Bytes → Except Utf8Error (List Char)
  | [] => .ok []
  | b0 :: rest =>
    if b0 < 0x80 then
      (Char.ofNat b0.toNat :: ·) <$> decodeFrom (index + 1) rest
    else if 0xC2 ≤ b0 && b0 ≤ 0xDF then
      match rest with
      | [] => .error (.incomplete index)
      | b1 :: rest =>
        if isContinuation b1 then
          (Char.ofNat ((b0 &&& 0x1F).toNat * 64 + payload b1) :: ·) <$> decodeFrom (index + 2) rest
        else .error (.invalid index 1)
    else if 0xE0 ≤ b0 && b0 ≤ 0xEF then
      match rest with
      | [] => .error (.incomplete index)
      | b1 :: rest =>
        if !secondFits b0 b1 then .error (.invalid index 1) else
        match rest with
        | [] => .error (.incomplete index)
        | b2 :: rest =>
          if isContinuation b2 then
            (Char.ofNat ((b0 &&& 0x0F).toNat * 4096 + payload b1 * 64 + payload b2) :: ·)
              <$> decodeFrom (index + 3) rest
          else .error (.invalid index 2)
    else if 0xF0 ≤ b0 && b0 ≤ 0xF4 then
      match rest with
      | [] => .error (.incomplete index)
      | b1 :: rest =>
        if !secondFits b0 b1 then .error (.invalid index 1) else
        match rest with
        | [] => .error (.incomplete index)
        | b2 :: rest =>
          if !isContinuation b2 then .error (.invalid index 2) else
          match rest with
          | [] => .error (.incomplete index)
          | b3 :: rest =>
            if isContinuation b3 then
              (Char.ofNat ((b0 &&& 0x07).toNat * 262144 + payload b1 * 4096 + payload b2 * 64
                + payload b3) :: ·) <$> decodeFrom (index + 4) rest
            else .error (.invalid index 3)
    else .error (.invalid index 1)

/-- The text that `bytes` encode, or the first fault. -/
def decode (bytes : Bytes) : Except Utf8Error String :=
  String.ofList <$> decodeFrom 0 bytes

end TokenBridge.Utf8
