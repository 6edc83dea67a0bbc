import TokenBridge.Ledger.Basic
/-!
Why a client flow failed: a record that does not decode, a transaction that cannot be put
together or signed, an instruction a program rejected, another refusal of the ledger, or an
address that cannot be derived.

A program's rejection names the program of the failing instruction, read from the compiled
message, and says whether it is the client's bridge program.
-/

namespace TokenBridge

/-- Why a client flow failed. -/
inductive ClientError where
  | codec (e : CodecError)
  | assemble (e : AssembleError)
  | rejected (operation : String) (rejection : Rejection)
  | ledger (operation : String) (source : LedgerError)
  | address (operation : String) (reason : String)

namespace ClientError

/-- The error's name. -/
def name : ClientError → String
  | .codec .. => "Codec"
  | .assemble .. => "Assemble"
  | .rejected .. => "Rejected"
  | .ledger .. => "Ledger"
  | .address .. => "Address"

/-- The error in words. -/
def message : ClientError → String
  | .codec e => e.message
  | .assemble e => e.message
  | .rejected op r => op ++ " rejected: " ++ r.message
  | .ledger op e => op ++ " failed: " ++ e.message
  | .address op reason => op ++ ": cannot derive address: " ++ reason

/-- The client error for a refused submission of `message` by a client of `program`. -/
def ofSubmission (operation : String) (program : Address) (message : Message) :
    LedgerError → ClientError
  | .programError index code =>
    let failing := (message.programAt? index.toNat).getD Address.zero
    .rejected operation ⟨index, code, failing, failing == program⟩
  | e => .ledger operation e

end ClientError

end TokenBridge
