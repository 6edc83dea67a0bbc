import TokenBridge.Toml.Scalar
/-!
Reading a TOML document into its tree of tables.

The reader walks the characters once. A line holds a table header, a key and its value, or
nothing, each with an optional comment. Values are strings (basic and literal, each on one
line or on many), bare scalars, arrays (over lines, with comments, a trailing comma allowed)
and inline tables (on one line, no trailing comma). Every loop consumes input, so each one
is bounded by a budget of steps that the length of the text gives.
-/

namespace TokenBridge.Toml

/-- A reader: the characters still to read, or the reason the text is refused. -/
abbrev Reader := StateT (List Char) (Except Error)

namespace Reader

/-- Refuses the text. -/
def expect {α : Type} (what : String) : Reader α := throw (.expected what)

/-- The next character. -/
def peek : Reader (Option Char) := do return (← get).head?

/-- Drops `n` characters. -/
def skip (n : Nat) : Reader Unit := modify (·.drop n)

/-- Whether a character is a space or a tab. -/
def isSpace (c : Char) : Bool := c == ' ' || c == '\t'

/-- Control characters that comments and strings may not hold; a tab is allowed. -/
def isControl (c : Char) : Bool := (c.toNat < 0x20 && c != '\t') || c.toNat == 0x7f

/-- Skips spaces and tabs. -/
def skipSpaces : Reader Unit := modify (·.dropWhile isSpace)

/-- Skips a comment up to the end of its line. -/
def skipComment : Reader Unit := do
  let s ← get
  if s.head? == some '#' then
    let body := s.takeWhile (· != '\n')
    let body := if body.getLast? == some '\r' then body.dropLast else body
    if body.any isControl then expect "a comment without control characters"
    set (s.drop body.length)

/-- Reads a line break, `LF` or `CR LF`, if one comes next. -/
def newline : Reader Bool := do
  match ← get with
  | '\n' :: rest => set rest; pure true
  | '\r' :: '\n' :: rest => set rest; pure true
  | _ => pure false

/-- Reads what may end a line: spaces, a comment, then a line break or the end of the text. -/
def endOfLine : Reader Unit := do
  skipSpaces
  skipComment
  if (← get).isEmpty then pure ()
  else if ← newline then pure ()
  else expect "the end of the line"

/-- Skips lines that hold only spaces and comments. -/
def skipBlankLines : Nat → Reader Unit
  | 0 => pure ()
  | budget + 1 => do
    skipSpaces
    skipComment
    if ← newline then skipBlankLines budget

/-- Skips spaces, comments and line breaks, as between the items of an array. -/
def skipArraySpace : Nat → Reader Unit := skipBlankLines

/-- The character that `\u` or `\U` names by `width` hexadecimal digits. -/
def unicodeEscape (width : Nat) : Reader Char := do
  let s ← get
  let ds := s.take width
  if ds.length != width || !ds.all isHexDigit then expect "hexadecimal digits"
  let n := runValue 16 ds
  if n < 0xD800 || (0xE000 ≤ n && n ≤ 0x10FFFF) then
    set (s.drop width)
    pure (Char.ofNat n)
  else expect "a Unicode scalar value"

/-- The character that an escape after a backslash stands for. -/
def escape : Reader Char := do
  match ← get with
  | 'b' :: rest => set rest; pure '\x08'
  | 't' :: rest => set rest; pure '\t'
  | 'n' :: rest => set rest; pure '\n'
  | 'f' :: rest => set rest; pure '\x0c'
  | 'r' :: rest => set rest; pure '\r'
  | '"' :: rest => set rest; pure '"'
  | '\\' :: rest => set rest; pure '\\'
  | 'u' :: rest => set rest; unicodeEscape 4
  | 'U' :: rest => set rest; unicodeEscape 8
  | _ => expect "an escape"

/-- The rest of a one-line basic string, after its opening quote. -/
def basicString : Nat → List Char → Reader String
  | 0, _ => expect "a closing quote"
  | budget + 1, acc => do
    match ← get with
    | '"' :: rest => set rest; pure (String.ofList acc.reverse)
    | '\\' :: rest => set rest; basicString budget ((← escape) :: acc)
    | c :: rest =>
      if isControl c then expect "a closing quote"
      else set rest; basicString budget (c :: acc)
    | [] => expect "a closing quote"

/-- The rest of a one-line literal string, after its opening apostrophe. -/
def literalString : Nat → List Char → Reader String
  | 0, _ => expect "a closing apostrophe"
  | budget + 1, acc => do
    match ← get with
    | '\'' :: rest => set rest; pure (String.ofList acc.reverse)
    | c :: rest =>
      if isControl c then expect "a closing apostrophe"
      else set rest; literalString budget (c :: acc)
    | [] => expect "a closing apostrophe"

/-- Skips spaces and line breaks after a backslash that ends a line of a many-line string. -/
def skipFolded : Nat → Reader Unit
  | 0 => pure ()
  | budget + 1 => do
    skipSpaces
    if ← newline then skipFolded budget

/-- The rest of a many-line string after its opening `"""` or `'''`: a line break right after
the opening is dropped, and up to two quotes may stand before the closing three. Basic
strings take escapes and fold a line that ends in a backslash. -/
def manyLineString (quote : Char) (basic : Bool) : Nat → List Char → Reader String
  | 0, _ => expect "a closing delimiter"
  | budget + 1, acc => do
    let s ← get
    let closing := s.takeWhile (· == quote)
    if closing.length ≥ 3 then
      if closing.length > 5 then expect "a closing delimiter"
      set (s.drop closing.length)
      pure (String.ofList (acc.reverse ++ closing.drop 3))
    else if closing.length > 0 then
      set (s.drop closing.length)
      manyLineString quote basic budget (closing ++ acc)
    else if ← newline then manyLineString quote basic budget ('\n' :: acc)
    else match s with
      | '\\' :: rest =>
        if basic then
          let afterSpaces := rest.dropWhile isSpace
          if afterSpaces.head? == some '\n' || (afterSpaces.take 2) == ['\r', '\n'] then
            set rest
            skipFolded budget
            manyLineString quote basic budget acc
          else
            set rest
            manyLineString quote basic budget ((← escape) :: acc)
        else set rest; manyLineString quote basic budget ('\\' :: acc)
      | c :: rest =>
        if isControl c then expect "a closing delimiter"
        else set rest; manyLineString quote basic budget (c :: acc)
      | [] => expect "a closing delimiter"

/-- A string value, after its opening quote or apostrophe was seen but not read. -/
def stringValue (budget : Nat) : Reader String := do
  match ← get with
  | '"' :: '"' :: '"' :: rest =>
    set rest
    let _ ← newline
    manyLineString '"' true budget []
  | '"' :: rest => set rest; basicString budget []
  | '\'' :: '\'' :: '\'' :: rest =>
    set rest
    let _ ← newline
    manyLineString '\'' false budget []
  | '\'' :: rest => set rest; literalString budget []
  | _ => expect "a string"

/-- Whether a character may stand in a bare key. -/
def isBareKeyChar (c : Char) : Bool := c.isAlphanum || c == '_' || c == '-'

/-- One part of a key: bare, or a one-line string. -/
def keyPart (budget : Nat) : Reader String := do
  match ← get with
  | '"' :: rest => set rest; basicString budget []
  | '\'' :: rest => set rest; literalString budget []
  | s =>
    let bare := s.takeWhile isBareKeyChar
    if bare.isEmpty then expect "a key"
    set (s.drop bare.length)
    pure (String.ofList bare)

/-- A key, its parts joined by dots, and the spaces after it. -/
def key : Nat → Reader (List String)
  | 0 => expect "a key"
  | budget + 1 => do
    let part ← keyPart budget
    skipSpaces
    if (← peek) == some '.' then
      skip 1
      skipSpaces
      return part :: (← key budget)
    else pure [part]

/-- Whether a character may stand in a bare value. -/
def isTokenChar (c : Char) : Bool :=
  c.isAlphanum || c == '_' || c == '+' || c == '-' || c == '.' || c == ':'

/-- A bare value: a boolean, number, date or time. A date may be followed by a space and a
time. -/
def bareValue : Reader Scalar := do
  let s ← get
  let tok := s.takeWhile isTokenChar
  let rest := s.drop tok.length
  let (tok, rest) :=
    match rest with
    | ' ' :: d1 :: d2 :: ':' :: _ =>
      if isDate tok && d1.isDigit && d2.isDigit then
        let time := rest.tail.takeWhile isTokenChar
        (tok ++ ' ' :: time, rest.tail.drop time.length)
      else (tok, rest)
    | _ => (tok, rest)
  match Scalar.ofToken? tok with
  | some v => set rest; pure v
  | none => expect "a value"

mutual

/-- A value. -/
def value : Nat → Reader Node
  | 0 => expect "a shallower value"
  | budget + 1 => do
    match ← peek with
    | some '"' => return .scalar (.string (← stringValue budget))
    | some '\'' => return .scalar (.string (← stringValue budget))
    | some '[' => skip 1; return .array (← arrayItems budget [])
    | some '{' =>
      skip 1
      skipSpaces
      if (← peek) == some '}' then
        skip 1
        return .table .inline []
      return .table .inline (← inlineEntries budget [])
    | _ => return .scalar (← bareValue)

/-- The rest of an array after its opening bracket, `acc` holding the items read so far in
reverse. -/
def arrayItems : Nat → List Node → Reader (List Node)
  | 0, _ => expect "a closing bracket"
  | budget + 1, acc => do
    skipArraySpace budget
    if (← peek) == some ']' then
      skip 1
      return acc.reverse
    let item ← value budget
    skipArraySpace budget
    match ← peek with
    | some ',' => skip 1; arrayItems budget (item :: acc)
    | some ']' => skip 1; return (item :: acc).reverse
    | _ => expect "a comma or a closing bracket"

/-- The rest of a non-empty inline table after its opening brace, `acc` holding the entries
read so far. -/
def inlineEntries : Nat → Entries → Reader Entries
  | 0, _ => expect "a closing brace"
  | budget + 1, acc => do
    let path ← key budget
    if (← peek) != some '=' then expect "an equals sign"
    skip 1
    skipSpaces
    let v ← value budget
    let acc ← match Entries.define v path acc with
      | .ok es => pure es
      | .error e => throw e
    skipSpaces
    match ← peek with
    | some ',' => skip 1; skipSpaces; inlineEntries budget acc
    | some '}' => skip 1; return acc
    | _ => expect "a comma or a closing brace"

end

/-- Lifts a change of the tree into the reader. -/
def change (r : Except Error Entries) : Reader Entries :=
  match r with
  | .ok es => pure es
  | .error e => throw e

/-- The lines of a document, `current` naming the table that keys go into. -/
def lines : Nat → List String → Entries → Reader Entries
  | 0, _, _ => expect "a shorter document"
  | budget + 1, current, root => do
    skipBlankLines budget
    match ← get with
    | [] => return root
    | '[' :: '[' :: rest =>
      set rest
      skipSpaces
      let path ← key budget
      match ← get with
      | ']' :: ']' :: rest => set rest
      | _ => expect "a closing double bracket"
      endOfLine
      lines budget path (← change (root.openArrayTable path))
    | '[' :: rest =>
      set rest
      skipSpaces
      let path ← key budget
      if (← peek) != some ']' then expect "a closing bracket"
      skip 1
      endOfLine
      lines budget path (← change (root.openTable path))
    | _ =>
      let path ← key budget
      if (← peek) != some '=' then expect "an equals sign"
      skip 1
      skipSpaces
      let v ← value budget
      endOfLine
      lines budget current (← change (Entries.within (Entries.define v path) current root))

end Reader

/-- Reads a TOML document into the entries of its root table. A byte order mark may open it. -/
def parse (text : String) : Except Error Entries :=
  let cs := match text.toList with
    | '\uFEFF' :: rest => rest
    | cs => cs
  (Reader.lines (2 * cs.length + 2) [] [] |>.run' cs)

end TokenBridge.Toml
