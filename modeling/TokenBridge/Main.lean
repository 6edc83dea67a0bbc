import TokenBridge.Relay.LogLine
/-!
The command line. `log <line>` reads one transaction log line and prints the transfer it
records, one field a line; a line of another kind, or one that does not decode, is an error.
The inspector's other commands (`config`, `route`, `logs`) read the ledger over the network,
which this program does not reach, so they are refused with a message that says so.
-/

namespace TokenBridge.Cli

/-- How the command line is used. -/
def usage : String :=
  "Usage: token-bridge [--config <CONFIG>] <COMMAND>\n\nCommands:\n" ++
    "  log <LINE>  Decode a single bridge log line"

/-- The fields of a transfer, one a line, names padded to one column. -/
def showLog (l : TransferLog) : List String :=
  [ "token        " ++ l.token.toBase58,
    "index        " ++ toString l.index.toNat,
    "sender       " ++ l.sender.toBase58,
    "recipient    " ++ l.recipient,
    "amount       " ++ toString l.amount.toNat,
    "fee          " ++ toString l.fee.toNat,
    "destination  " ++ toString l.destination.toNat,
    "payload      " ++ Hex.encode l.payload ]

/-- What `log <line>` prints, or why it cannot. -/
def logCommand (line : String) : Except String (List String) :=
  match LogLine.parse line with
  | none => .error "not a bridge log line"
  | some (.error e) => .error e.message
  | some (.ok l) => .ok (showLog l)

/-- What the command line asks for prints, or the error; `--config <path>` may come first. -/
def run : List String → Except String (List String)
  | "--config" :: _ :: rest => run rest
  | "-c" :: _ :: rest => run rest
  | ["log", line] => logCommand line
  | "config" :: _ => .error "the config command reads the ledger, which is not reachable"
  | "route" :: _ => .error "the route command reads the ledger, which is not reachable"
  | "logs" :: _ => .error "the logs command reads the ledger, which is not reachable"
  | _ => .error usage

end TokenBridge.Cli

/-- Prints what the command line asks for; errors go to standard error with exit code 1. -/
def main (args : List String) : IO UInt32 := do
  match TokenBridge.Cli.run args with
  | .ok lines =>
    for l in lines do
      IO.println l
    pure 0
  | .error message =>
    IO.eprintln ("Error: " ++ message)
    pure 1
