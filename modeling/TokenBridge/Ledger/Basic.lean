import TokenBridge.Ledger.BridgeProgram
import TokenBridge.Tx.Transaction
/-!
The ledger: accounts, mints and token accounts, the log lines of each committed transaction,
the blockhashes it has handed out, a count of submissions, and how it checks a signature
(Ed25519).

A submission is counted first. It is refused when a signature does not check, when its
blockhash was not handed out, or when its first signature was already committed. Otherwise its
instructions run in order on a copy of the state, each framed by `invoke` and `success` lines;
the first failing instruction discards the copy. The simulator stops, with the state as it was, on
an overflow, on a transaction with no signature to read, and on an instruction that names a
position past the message's keys. A transaction that runs through is committed whole, with its log
lines.
-/

namespace TokenBridge

/-- Why the ledger refused a request, as a client sees it. -/
inductive LedgerError where
  | accountNotFound (key : Address)
  | programError (index : UInt8) (code : UInt32)
  | rejected (reason : String)
  | transport (reason : String)
  deriving DecidableEq

namespace LedgerError

/-- The error's name. -/
def name : LedgerError → String
  | .accountNotFound .. => "AccountNotFound"
  | .programError .. => "ProgramError"
  | .rejected .. => "Rejected"
  | .transport .. => "Transport"

/-- The error in words. -/
def message : LedgerError → String
  | .accountNotFound key => "account " ++ key.toBase58 ++ " not found"
  | .programError index code =>
    "instruction " ++ toString index.toNat ++ " failed with custom program error "
      ++ hexNumber code.toNat
  | .rejected reason => "transaction rejected: " ++ reason
  | .transport reason => "transport error: " ++ reason

end LedgerError

/-- What a submission comes to. -/
inductive Verdict where
  /-- Committed under its first signature. -/
  | committed (signature : Bytes)
  /-- Refused; nothing changed but the count of submissions. -/
  | refused (e : LedgerError)
  /-- The simulator stopped: an amount overflowed, an account was too large, no bump seed gave a
  program address, or a signature or key was read past the end of its list. -/
  | aborted
  deriving DecidableEq

/-- The in-memory ledger. -/
structure Ledger where
  program : Address
  tokenProgram : Address := Address.tokenProgram2022
  state : State := {}
  logs : List (Bytes × List String) := []
  blockhashes : List Bytes := []
  logsUnindexed : Bool := false
  submissions : Nat := 0
  issuedHashes : Nat := 0
  /-- How the ledger checks one signature: of a public key, a message and a signature. -/
  checkSignature : Bytes → Bytes → Bytes → Bool := Ed25519.verify

namespace Ledger

/-- An empty ledger that runs the bridge program `program`. -/
def empty (program : Address) : Ledger := { program }

/-- Gives an account lamports, making a plain account if there is none; `none` when the balance
would pass the largest `u64`. -/
def airdrop (l : Ledger) (target : Address) (lamports : UInt64) : Option Ledger :=
  let a := (l.state.accounts.get? target).getD ⟨0, Address.systemProgram, []⟩
  if a.lamports.toNat + lamports.toNat < UInt64.size then
    some { l with state.accounts := l.state.accounts.set target { a with lamports := a.lamports + lamports } }
  else none

/-- Stores an account with the given owner and data, holding exactly its rent. -/
def setAccount (l : Ledger) (key owner : Address) (data : Bytes) : Ledger :=
  { l with state.accounts := l.state.accounts.set key ⟨(rent data.length).toUInt64, owner, data⟩ }

/-- Makes a mint with an authority and no supply. -/
def createMint (l : Ledger) (mint authority : Address) (decimals : UInt8) : Ledger :=
  { l with state.mints := l.state.mints.set mint ⟨some authority, 0, decimals⟩ }

/-- Hands an existing mint to a new authority. -/
def setMintAuthority (l : Ledger) (mint authority : Address) : Ledger :=
  { l with state.mints := l.state.mints.modify mint fun m => { m with authority := some authority } }

/-- Makes a token account holding `amount` new tokens, added to the mint's supply when the mint
exists; `none` when the supply would pass the largest `u64`. -/
def createTokenAccount (l : Ledger) (key mint owner : Address) (amount : UInt64) : Option Ledger :=
  let account : TokenAccount := ⟨mint, owner, amount, none⟩
  match l.state.mints.get? mint with
  | some m =>
    if m.supply.toNat + amount.toNat < UInt64.size then
      some { l with state.mints := l.state.mints.set mint { m with supply := m.supply + amount },
                    state.tokenAccounts := l.state.tokenAccounts.set key account }
    else none
  | none => some { l with state.tokenAccounts := l.state.tokenAccounts.set key account }

/-- Lamports of an account, 0 when there is none. -/
def lamports (l : Ledger) (key : Address) : Nat :=
  ((l.state.accounts.get? key).map (·.lamports.toNat)).getD 0

/-- Balance of a token account, 0 when there is none. -/
def tokenBalance (l : Ledger) (key : Address) : Nat :=
  ((l.state.tokenAccounts.get? key).map (·.amount.toNat)).getD 0

/-- Supply of a mint, 0 when there is none. -/
def mintSupply (l : Ledger) (key : Address) : Nat :=
  ((l.state.mints.get? key).map (·.supply.toNat)).getD 0

/-- The data of an account. -/
def accountData (l : Ledger) (key : Address) : Except LedgerError Bytes :=
  match l.state.accounts.get? key with
  | some a => .ok a.data
  | none => .error (.accountNotFound key)

/-- Hands out a fresh blockhash and remembers it. -/
def latestBlockhash (l : Ledger) : Bytes × Ledger :=
  let h := Bytes.ofNatLE 32 (l.issuedHashes + 1)
  (h, { l with issuedHashes := l.issuedHashes + 1, blockhashes := l.blockhashes ++ [h] })

/-- Runs one instruction for the program `program`; the log lines it writes. -/
def execute (l : Ledger) (program : Address) (accounts : List Invoked) (data : Bytes) :
    Exec (List String) :=
  if program == l.program then BridgeProgram.process l.program accounts data
  else if program == Address.systemProgram then do processSystem accounts data; pure []
  else if program == l.tokenProgram then do processToken accounts data; pure []
  else fail (.runtime (.unknownProgram program))

/-- The program that instruction `ix` of message `m` runs and the accounts it names, each with
whether it signs; `none` when one of its positions is past the message's keys, where the
simulator's lookup panics. -/
def resolve? (m : Message) (ix : CompiledInstruction) : Option (Address × List Invoked) := do
  let program ← m.keys[ix.programIndex]?
  let accounts ← ix.accounts.mapM fun k => (m.keys[k]?).map fun key => (⟨key, m.isSigner k⟩ : Invoked)
  pure (program, accounts)

/-- Runs the instructions of a message from position `i` on, adding to `lines`; the failing
position and failure, or the final state and all lines. -/
def runFrom (l : Ledger) (m : Message) (i : Nat) :
    List CompiledInstruction → State → List String → Except (Nat × Failure) (State × List String)
  | [], s, lines => .ok (s, lines)
  | ix :: rest, s, lines =>
    match resolve? m ix with
    | none => .error (i, .abort)
    | some (program, accounts) =>
      let name := "Program " ++ program.toBase58
      match (l.execute program accounts ix.data).run s with
      | .ok (written, s') =>
        l.runFrom m (i + 1) rest s' (lines ++ [name ++ " invoke [1]"] ++ written ++ [name ++ " success"])
      | .error f => .error (i, f)

/-- What a failure at instruction `i` tells the client. -/
def failureVerdict (i : Nat) : Failure → Verdict
  | .abort => .aborted
  | .runtime r => .refused (.rejected ("Error processing Instruction " ++ toString i ++ ": " ++ r.message))
  | .program e => .refused (.programError i.toUInt8 e.code)
  | .token e => .refused (.programError i.toUInt8 e.code)
  | .system e => .refused (.programError i.toUInt8 e.code)

/-- Submits a signed transaction. -/
def sendAndConfirm (l : Ledger) (t : Transaction) : Verdict × Ledger :=
  let l := { l with submissions := l.submissions + 1 }
  if !t.verifyWith l.checkSignature then (.refused (.rejected "signature verification failed"), l)
  else match t.signatures with
  -- a transaction with no signatures verifies vacuously, and reading its first one panics
  | [] => (.aborted, l)
  | signature :: _ =>
    if !l.blockhashes.contains t.message.recentBlockhash then
      (.refused (.rejected "blockhash not found"), l)
    else if l.logs.any (·.1 == signature) then
      (.refused (.rejected "transaction already processed"), l)
    else match l.runFrom t.message 0 t.message.instructions l.state [] with
      | .error (i, f) => (failureVerdict i f, l)
      | .ok (s, lines) =>
        (.committed signature, { l with state := s, logs := l.logs ++ [(signature, lines)] })

/-- The log lines of a committed transaction. -/
def transactionLogs (l : Ledger) (signature : Bytes) : Except LedgerError (List String) :=
  let text := "transaction " ++ Base58.encode signature
  if l.logsUnindexed then .error (.transport (text ++ " not yet indexed"))
  else match l.logs.lookup signature with
    | some lines => .ok lines
    | none => .error (.transport (text ++ " not found"))

end Ledger

end TokenBridge
