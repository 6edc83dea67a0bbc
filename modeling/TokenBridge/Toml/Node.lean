/-!
TOML documents as trees of tables.

A table remembers how it came to be, because that decides what may still be added to it: a
header `[a.b]` defines `a.b` and creates `a` on the way; a dotted key `a.b = 1` defines `a`;
an inline table `{ ... }` is closed once written. A key is defined at most once, a table
header names a table at most once, and an array of tables `[[a]]` grows by one table per
header, later headers and keys going into its last table.
-/

namespace TokenBridge.Toml

/-- Why a text is not a TOML document. -/
inductive Error where
  /-- The text breaks the grammar; `what` says what was expected. -/
  | expected (what : String)
  /-- A key is defined twice. -/
  | duplicateKey (key : String)
  /-- A table is defined twice, or by a header after dotted keys defined it. -/
  | tableRedefined (key : String)
  /-- A key that should lead into a table holds a value, or a closed table. -/
  | notExtensible (key : String)
  deriving DecidableEq, Repr

/-- The error in words. -/
def Error.message : Error → String
  | .expected what => "invalid TOML: expected " ++ what
  | .duplicateKey key => "duplicate key " ++ key
  | .tableRedefined key => "table " ++ key ++ " defined twice"
  | .notExtensible key => "key " ++ key ++ " cannot take more entries"

/-- A value that holds no other values. -/
inductive Scalar where
  | string (s : String)
  | integer (n : Int)
  | float (text : String)
  | boolean (b : Bool)
  | datetime (text : String)
  deriving DecidableEq, Repr

/-- How a table came to be. -/
inductive TableKind where
  /-- Created on the way to a header's table; a header of its own may still define it. -/
  | implicit
  /-- Defined by a header. -/
  | header
  /-- Defined by a dotted key; later dotted keys of the same table may add to it. -/
  | dotted
  /-- Written inline; nothing may be added. -/
  | inline
  deriving DecidableEq, Repr

/-- A TOML value, with tables in the order their keys first appear. -/
inductive Node where
  | scalar (v : Scalar)
  | array (items : List Node)
  | table (kind : TableKind) (entries : List (String × Node))
  /-- An array of tables, one table per `[[...]]` header. -/
  | tables (items : List (List (String × Node)))

/-- The entries of a table, in the order their keys first appear. -/
abbrev Entries := List (String × Node)

namespace Entries

/-- Replaces the entry of `key`, or appends one when there is none. -/
def put (es : Entries) (key : String) (n : Node) : Entries :=
  if es.any (·.1 == key) then es.map (fun e => if e.1 == key then (key, n) else e)
  else es ++ [(key, n)]

/-- Applies `f` to the table at `path`, creating missing tables as `implicit` ones. In an array
of tables the path goes on in its last table; a value or an inline table ends it. -/
def within (f : Entries → Except Error Entries) : List String → Entries → Except Error Entries
  | [], es => f es
  | key :: rest, es =>
    match es.lookup key with
    | none => do
      let sub ← within f rest []
      pure (es.put key (.table .implicit sub))
    | some (.table kind sub) =>
      if kind == .inline then .error (.notExtensible key)
      else do
        let sub ← within f rest sub
        pure (es.put key (.table kind sub))
    | some (.tables items) =>
      match items.getLast? with
      | some last => do
        let sub ← within f rest last
        pure (es.put key (.tables (items.dropLast ++ [sub])))
      | none => .error (.notExtensible key)
    | some _ => .error (.notExtensible key)

/-- Defines the table named by a header `[path]`. -/
def openTable (path : List String) (root : Entries) : Except Error Entries :=
  match path.getLast? with
  | none => .error (.expected "a table name")
  | some last =>
    within (fun es =>
      match es.lookup last with
      | none => .ok (es.put last (.table .header []))
      | some (.table .implicit sub) => .ok (es.put last (.table .header sub))
      | some _ => .error (.tableRedefined last)) path.dropLast root

/-- Adds a table to the array of tables named by a header `[[path]]`. -/
def openArrayTable (path : List String) (root : Entries) : Except Error Entries :=
  match path.getLast? with
  | none => .error (.expected "a table name")
  | some last =>
    within (fun es =>
      match es.lookup last with
      | none => .ok (es.put last (.tables [[]]))
      | some (.tables items) => .ok (es.put last (.tables (items ++ [[]])))
      | some _ => .error (.tableRedefined last)) path.dropLast root

/-- Defines the dotted key `path` as `v`: its leading parts name tables that dotted keys made,
or are new, and the last part is not defined yet. -/
def define (v : Node) : List String → Entries → Except Error Entries
  | [], _ => .error (.expected "a key")
  | [key], es =>
    if es.any (·.1 == key) then .error (.duplicateKey key) else .ok (es ++ [(key, v)])
  | key :: rest, es =>
    match es.lookup key with
    | none => do
      let sub ← define v rest []
      pure (es ++ [(key, .table .dotted sub)])
    | some (.table .dotted sub) => do
      let sub ← define v rest sub
      pure (es.put key (.table .dotted sub))
    | some _ => .error (.notExtensible key)

end Entries

/-- The entries of a table; other values have none. -/
def Node.entries? : Node → Option Entries
  | .table _ es => some es
  | _ => none

end TokenBridge.Toml
