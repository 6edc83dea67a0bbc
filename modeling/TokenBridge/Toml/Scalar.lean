import TokenBridge.Toml.Node
/-!
The bare values of TOML: booleans, integers, floats, dates and times, each read from one token
of letters, digits and the marks `_ + - . :`.

Integers fit in a signed 64-bit word; a decimal one has no leading zero, a hexadecimal, octal
or binary one no sign. An underscore stands between two digits. A float has a fraction, an
exponent or both, or is `inf` or `nan`. A date is `YYYY-MM-DD` with a real day of its month; a
time is `HH:MM:SS` with an optional fraction; a date and a time joined by `T`, `t` or a space
may end in an offset, `Z` or `+HH:MM`.
-/

namespace TokenBridge.Toml

/-- Whether the characters are digits that `digit` accepts, with single underscores between
them. -/
def digitRun (digit : Char → Bool) : List Char → Bool
  | [] => false
  | [c] => digit c
  | c :: '_' :: rest => digit c && digitRun digit rest
  | c :: rest => digit c && digitRun digit rest

/-- The value of a digit, `0-9`, `a-f` or `A-F`. -/
def digitValue (c : Char) : Nat :=
  if c.isDigit then c.toNat - '0'.toNat
  else if 'a' ≤ c && c ≤ 'f' then c.toNat - 'a'.toNat + 10
  else c.toNat - 'A'.toNat + 10

/-- The number that the digits write in base `radix`, underscores skipped. -/
def runValue (radix : Nat) (cs : List Char) : Nat :=
  (cs.filter (· != '_')).foldl (fun n c => n * radix + digitValue c) 0

/-- Whether a character is a hexadecimal digit. -/
def isHexDigit (c : Char) : Bool := c.isDigit || ('a' ≤ c && c ≤ 'f') || ('A' ≤ c && c ≤ 'F')

/-- Whether the characters are a decimal integer without sign: `0`, or no leading zero. -/
def isDecimal (cs : List Char) : Bool :=
  cs == ['0'] || (cs.head? != some '0' && digitRun Char.isDigit cs)

/-- The integer that a token writes, when it fits in a signed 64-bit word. -/
def integer? (tok : List Char) : Option Int :=
  let inRange (n : Int) : Option Int :=
    if -9223372036854775808 ≤ n && n < 9223372036854775808 then some n else none
  match tok with
  | '0' :: 'x' :: ds => if digitRun isHexDigit ds then inRange (runValue 16 ds) else none
  | '0' :: 'o' :: ds =>
    if digitRun (fun c => '0' ≤ c && c ≤ '7') ds then inRange (runValue 8 ds) else none
  | '0' :: 'b' :: ds =>
    if digitRun (fun c => c == '0' || c == '1') ds then inRange (runValue 2 ds) else none
  | '+' :: ds => if isDecimal ds then inRange (runValue 10 ds) else none
  | '-' :: ds => if isDecimal ds then inRange (-(runValue 10 ds : Int)) else none
  | ds => if isDecimal ds then inRange (runValue 10 ds) else none

/-- Whether the characters are an exponent after its `e`: a sign, then digits. -/
def isExponent : List Char → Bool
  | '+' :: ds => digitRun Char.isDigit ds
  | '-' :: ds => digitRun Char.isDigit ds
  | ds => digitRun Char.isDigit ds

/-- Whether the characters are a float without sign. -/
def isUnsignedFloat (cs : List Char) : Bool :=
  let isPart (c : Char) := c.isDigit || c == '_'
  let whole := cs.takeWhile isPart
  isDecimal whole &&
    match cs.drop whole.length with
    | '.' :: rest =>
      let fraction := rest.takeWhile isPart
      digitRun Char.isDigit fraction &&
        match rest.drop fraction.length with
        | [] => true
        | 'e' :: ex => isExponent ex
        | 'E' :: ex => isExponent ex
        | _ => false
    | 'e' :: ex => isExponent ex
    | 'E' :: ex => isExponent ex
    | _ => false

/-- Whether a token is a float. -/
def isFloat (tok : List Char) : Bool :=
  let body := match tok with
    | '+' :: r => r
    | '-' :: r => r
    | r => r
  body == "inf".toList || body == "nan".toList || isUnsignedFloat body

/-- The number that two digits write. -/
def twoDigits (a b : Char) : Nat := digitValue a * 10 + digitValue b

/-- The days of a month in the Gregorian calendar. -/
def daysInMonth (year month : Nat) : Nat :=
  if month == 2 then
    if year % 4 == 0 && (year % 100 != 0 || year % 400 == 0) then 29 else 28
  else if month == 4 || month == 6 || month == 9 || month == 11 then 30
  else 31

/-- Whether the characters are a date `YYYY-MM-DD` that the calendar has. -/
def isDate : List Char → Bool
  | [y1, y2, y3, y4, '-', m1, m2, '-', d1, d2] =>
    [y1, y2, y3, y4, m1, m2, d1, d2].all Char.isDigit &&
      let year := twoDigits y1 y2 * 100 + twoDigits y3 y4
      let month := twoDigits m1 m2
      let day := twoDigits d1 d2
      1 ≤ month && month ≤ 12 && 1 ≤ day && day ≤ daysInMonth year month
  | _ => false

/-- Whether the characters are a time offset: `Z`, `z` or a signed `HH:MM`. -/
def isOffset : List Char → Bool
  | ['Z'] => true
  | ['z'] => true
  | [sign, h1, h2, ':', m1, m2] =>
    (sign == '+' || sign == '-') && [h1, h2, m1, m2].all Char.isDigit &&
      twoDigits h1 h2 ≤ 23 && twoDigits m1 m2 ≤ 59
  | _ => false

/-- Whether the characters are a time `HH:MM:SS`, with an optional fraction, followed by what
`after` accepts. -/
def isTime (after : List Char → Bool) : List Char → Bool
  | h1 :: h2 :: ':' :: m1 :: m2 :: ':' :: s1 :: s2 :: rest =>
    [h1, h2, m1, m2, s1, s2].all Char.isDigit &&
      twoDigits h1 h2 ≤ 23 && twoDigits m1 m2 ≤ 59 && twoDigits s1 s2 ≤ 60 &&
      match rest with
      | '.' :: fraction =>
        let ds := fraction.takeWhile Char.isDigit
        !ds.isEmpty && after (fraction.drop ds.length)
      | _ => after rest
  | _ => false

/-- Whether a token is a date, a time, or a date and time with or without an offset. -/
def isDateTime (tok : List Char) : Bool :=
  isDate tok || isTime List.isEmpty tok ||
    (isDate (tok.take 10) &&
      match tok.drop 10 with
      | sep :: time =>
        (sep == 'T' || sep == 't' || sep == ' ') &&
          isTime (fun rest => rest.isEmpty || isOffset rest) time
      | [] => false)

/-- The scalar that a bare token writes. -/
def Scalar.ofToken? (tok : List Char) : Option Scalar :=
  if tok == "true".toList then some (.boolean true)
  else if tok == "false".toList then some (.boolean false)
  else match integer? tok with
    | some n => some (.integer n)
    | none =>
      if isFloat tok then some (.float (String.ofList tok))
      else if isDateTime tok then some (.datetime (String.ofList tok))
      else none

end TokenBridge.Toml
