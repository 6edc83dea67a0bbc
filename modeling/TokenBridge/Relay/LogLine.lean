import TokenBridge.Record.TransferLog
import TokenBridge.Text.Blank
/-!
Transfer logs in a transaction's log lines.

A log line carries a transfer when, after one optional `Program log: ` prefix, it starts with
`Bridge: ` exactly; the rest, trimmed of blanks, is the hexadecimal of the record. A line of
that form whose rest is not hexadecimal, or does not decode, is an error; any other line is not
a transfer line at all.
-/

namespace TokenBridge.LogLine

/-- The prefix the runtime puts before a program's own log lines. -/
def programLogPrefix : String := "Program log: "

/-- The tag that starts a transfer line. -/
def bridgeTag : String := "Bridge: "

/-- The rest of `s` after the prefix `p`, if `s` starts with it. -/
def stripPrefix? : List Char → List Char → Option (List Char)
  | [], s => some s
  | _ :: _, [] => none
  | c :: p, d :: s => if c = d then stripPrefix? p s else none

/-- The line that carries a transfer log. -/
def ofLog (l : TransferLog) : String := bridgeTag ++ l.display

/-- The transfer a line carries: `none` for a line of another kind, else the record or why it
does not decode. -/
def parse (line : String) : Option (Except CodecError TransferLog) :=
  let chars := (stripPrefix? programLogPrefix.toList line.toList).getD line.toList
  (stripPrefix? bridgeTag.toList chars).map fun rest =>
    match Hex.decode (Blank.trim (String.ofList rest)) with
    | .error e => .error ⟨.transferLog, .invalidHex e⟩
    | .ok bytes => TransferLog.decode bytes

/-- The transfers of all transfer lines in order, or the error of the first that fails. -/
def extract (lines : List String) : Except CodecError (List TransferLog) :=
  (lines.filterMap parse).mapM id

end TokenBridge.LogLine
