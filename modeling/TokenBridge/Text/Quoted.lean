/-!
Quoted text for messages: a character between single quotes, a text between double quotes.

Inside the quotes NUL, tab, carriage return, line feed and the backslash take a backslash
escape, and so does the quote that delimits (the other quote stands as it is). Characters that do
not print (controls, format characters, separators other than the space, and combining marks
that would join the quote) are written `\u{h}` with the code point in lower-case hexadecimal and
no leading zeros. Everything else stands as it is.
-/

namespace TokenBridge.Quoted

/-- The lower-case hexadecimal digits of `n`, without leading zeros. -/
def hexDigits (n : Nat) : String :=
  String.ofList (Nat.toDigits 16 n)

/-- Code points that do not print: controls, the soft hyphen and the no-break space of Latin-1,
format characters, line and paragraph separators, and the unassigned noncharacters. -/
def isHidden (c : Char) : Bool :=
  let n := c.toNat
  n < 0x20 || (0x7F ≤ n && n ≤ 0xA0) || n == 0xAD || n == 0x034F || n == 0x061C
    || (0x115F ≤ n && n ≤ 0x1160) || (0x17B4 ≤ n && n ≤ 0x17B5) || (0x180B ≤ n && n ≤ 0x180F)
    || (0x2000 ≤ n && n ≤ 0x200F) || (0x2028 ≤ n && n ≤ 0x202F) || (0x205F ≤ n && n ≤ 0x206F)
    || n == 0x3000 || n == 0x3164 || (0xD800 ≤ n && n ≤ 0xDFFF) || n == 0xFEFF || n == 0xFFA0
    || (0xFFF0 ≤ n && n ≤ 0xFFFB) || n == 0xFFFE || n == 0xFFFF || (0xE0000 ≤ n && n ≤ 0xE0FFF)
    || (0xF0000 ≤ n)

/-- Combining marks, which would join the character before them. -/
def isCombining (c : Char) : Bool :=
  let n := c.toNat
  (0x0300 ≤ n && n ≤ 0x036F) || (0x0483 ≤ n && n ≤ 0x0489) || (0x0591 ≤ n && n ≤ 0x05BD)
    || (0x1AB0 ≤ n && n ≤ 0x1AFF) || (0x1DC0 ≤ n && n ≤ 0x1DFF) || (0x20D0 ≤ n && n ≤ 0x20FF)
    || (0xFE00 ≤ n && n ≤ 0xFE0F) || (0xFE20 ≤ n && n ≤ 0xFE2F)

/-- One character inside quotes delimited by `quote`. -/
def escape (quote c : Char) : String :=
  if c == '\x00' then "\\0"
  else if c == '\t' then "\\t"
  else if c == '\r' then "\\r"
  else if c == '\n' then "\\n"
  else if c == '\\' then "\\\\"
  else if c == quote then "\\" ++ String.singleton c
  else if isCombining c || isHidden c then "\\u\x7b" ++ hexDigits c.toNat ++ "\x7d"
  else String.singleton c

/-- A character between single quotes. -/
def char (c : Char) : String := "'" ++ escape '\'' c ++ "'"

/-- A text between double quotes. -/
def text (s : String) : String :=
  "\"" ++ String.join (s.toList.map (escape '"')) ++ "\""

end TokenBridge.Quoted
