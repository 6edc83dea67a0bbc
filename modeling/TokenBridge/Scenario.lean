import TokenBridge.Client.Flows
/-!
Scenarios: a ledger driven step by step, with accounts and keys given by name.

A name is resolved in this order: `pda:<name>` is the token authority of the route that `<name>`
resolves to; then an alias that a config set-up recorded; then a base-58 address; else a key
name, whose UTF-8 bytes padded with zeros to 32 (at most 32) are the seed of a key pair, whose
public key is the address. Steps that sign take key names only.

Each step answers on its own; a failing step leaves the scenario to go on.
-/

namespace TokenBridge

/-- Why a name does not resolve. -/
inductive NameError where
  | tooLong (name : String)
  | noProgramAddress (name : String)

/-- The error in words. -/
def NameError.message : NameError → String
  | .tooLong name => "key name " ++ name ++ " is longer than 32 bytes"
  | .noProgramAddress name => "no program address for " ++ name

/-- A ledger with the names a scenario has given. -/
structure Scenario where
  ledger : Ledger
  aliases : List (String × Address) := []
  lastSignature : Option Bytes := none

/-- One step of a scenario; accounts and keys are names. -/
inductive Step where
  | airdrop (target : String) (lamports : UInt64)
  | createMint (mint authority : String) (decimals : UInt8)
  | setMintAuthority (mint authority : String)
  | createTokenAccount (key mint owner : String) (amount : UInt64)
  | setAccount (key owner : String) (data : Bytes)
  | setLogsUnindexed (value : Bool)
  | lamports (key : String)
  | tokenBalance (key : String)
  | mintSupply (key : String)
  | submissions
  | account (key : String)
  | tokenAccount (key : String)
  | rent (len : Nat)
  | address (name : String)
  | lastLogs
  | send (payer : String) (signers : List String) (instructions : List (InstructionRequest String))
  | initializeConfig (payer seed owner authority feeCollector : String) (fee : UInt64)
      (label : String)
  | transferOwner (config owner newOwner : String)
  | changeAuthority (config owner newAuthority : String)
  | changeFee (config owner : String) (fee : UInt64) (feeCollector : String)
  | createRoute (payer route owner config mint escrow : String) (tokenProgram : Option String)
      (destination : UInt32) (max min : UInt64)
  | changeLimit (config route owner : String) (max min : UInt64)
  | bridge (approve : Bool) (payer transferAuthority route config escrow user mint : String)
      (tokenProgram : Option String) (amount : UInt64) (recipient : String) (payload : Bytes)
  | settle (authority route config escrow user mint : String) (tokenProgram : Option String)
      (amount : UInt64)
  | fetchConfig (key : String)
  | fetchRoute (key : String)

/-- What a step answers. -/
inductive Answer where
  | done
  | count (n : Nat)
  | key (a : Address)
  | account (a : Option Account)
  | tokenAccount (a : Option TokenAccount)
  | config (c : Config)
  | route (r : Route)
  | configAddress (a : Address)
  | receipt (r : Receipt)
  | lines (signature : Option Bytes) (result : Except LedgerError (List String))
  | clientError (e : ClientError)
  | refused (e : LedgerError)
  | assembleError (e : AssembleError)
  | aborted
  | badName (e : NameError)

namespace Scenario

/-- A fresh scenario on an empty ledger for the bridge program `program`. -/
def start (program : Address) : Scenario := ⟨Ledger.empty program, [], none⟩

/-- The seed of a key name: its UTF-8 bytes padded with zeros to 32. -/
def keySeed (name : String) : Except NameError Bytes :=
  let b := Utf8.encode name
  if b.length ≤ 32 then .ok (b ++ List.replicate (32 - b.length) 0) else .error (.tooLong name)

/-- The key pair of a key name. -/
def keypair (name : String) : Except NameError Keypair :=
  return Keypair.ofSeed (← keySeed name)

/-- Resolves a name with at most `fuel` nested `pda:` prefixes. -/
def resolveWith (s : Scenario) : Nat → String → Except NameError Address
  | 0, name => .error (.noProgramAddress name)
  | fuel + 1, name =>
    match LogLine.stripPrefix? "pda:".toList name.toList with
    | some rest => do
      let route ← s.resolveWith fuel (String.ofList rest)
      match Address.findProgramAddress [route.bytes] s.ledger.program with
      | some (a, _) => pure a
      | none => .error (.noProgramAddress name)
    | none =>
      match s.aliases.lookup name with
      | some a => .ok a
      | none => match Address.parse name with
        | .ok a => .ok a
        | .error _ => return (← keypair name).key

/-- The address a name stands for. -/
def resolve (s : Scenario) (name : String) : Except NameError Address :=
  s.resolveWith (name.length + 1) name

/-- The scenario's ledger after a flow, with the signature it committed, if any. -/
def afterFlow {α : Type} (s : Scenario) (run : Flow α) (sig : α → Option Bytes) :
    Except Stop α × Scenario :=
  let (r, l) := run.run.run s.ledger
  let last := match r with
    | .ok v => (sig v).orElse fun _ => s.lastSignature
    | .error _ => s.lastSignature
  (r, { s with ledger := l, lastSignature := last })

/-- The answer of a flow that stopped. -/
def stopAnswer : Stop → Answer
  | .failed e => .clientError e
  | .aborted => .aborted

/-- Runs a flow and answers with `f` of its result. -/
def flow {α : Type} (s : Scenario) (run : Flow α) (sig : α → Option Bytes) (f : α → Answer) :
    Answer × Scenario :=
  let (r, s') := s.afterFlow run sig
  match r with
  | .ok v => (f v, s')
  | .error e => (stopAnswer e, s')

/-- The token program a step names, or the ledger's own. -/
def tokenProgramOf (s : Scenario) : Option String → Except NameError Address
  | some name => s.resolve name
  | none => .ok s.ledger.tokenProgram

/-- Submits raw instructions signed by the payer and the named signers. -/
def send (s : Scenario) (payer : Keypair) (signers : List Keypair)
    (instructions : List (InstructionRequest Address)) : Answer × Scenario :=
  match instructions.mapM InstructionRequest.toInstruction with
  | .error e => (.assembleError e, s)
  | .ok ixs =>
    match assemble "send" payer.key ixs ((payer :: signers).map .keypair) with
    | .error e => (.assembleError e, s)
    | .ok a =>
      let (blockhash, l) := s.ledger.latestBlockhash
      match a.sign blockhash with
      | .error e => (.assembleError e, { s with ledger := l })
      | .ok t =>
        let (verdict, l) := l.sendAndConfirm t
        let s := { s with ledger := l }
        match verdict with
        | .committed sig => (.done, { s with lastSignature := some sig })
        | .refused e => (.refused e, s)
        | .aborted => (.aborted, s)

/-- Runs a step whose names have resolved. -/
def runResolved (s : Scenario) : Step → Except NameError (Answer × Scenario)
  | .airdrop target lamports => do
    match s.ledger.airdrop (← s.resolve target) lamports with
    | some l => pure (.done, { s with ledger := l })
    | none => pure (.aborted, s)
  | .createMint mint authority decimals => do
    pure (.done, { s with ledger := s.ledger.createMint (← s.resolve mint) (← s.resolve authority) decimals })
  | .setMintAuthority mint authority => do
    pure (.done, { s with ledger := s.ledger.setMintAuthority (← s.resolve mint) (← s.resolve authority) })
  | .createTokenAccount key mint owner amount => do
    match s.ledger.createTokenAccount (← s.resolve key) (← s.resolve mint) (← s.resolve owner) amount with
    | some l => pure (.done, { s with ledger := l })
    | none => pure (.aborted, s)
  | .setAccount key owner data => do
    pure (.done, { s with ledger := s.ledger.setAccount (← s.resolve key) (← s.resolve owner) data })
  | .setLogsUnindexed value => pure (.done, { s with ledger.logsUnindexed := value })
  | .lamports key => return (.count (s.ledger.lamports (← s.resolve key)), s)
  | .tokenBalance key => return (.count (s.ledger.tokenBalance (← s.resolve key)), s)
  | .mintSupply key => return (.count (s.ledger.mintSupply (← s.resolve key)), s)
  | .submissions => pure (.count s.ledger.submissions, s)
  | .account key => return (.account (s.ledger.state.accounts.get? (← s.resolve key)), s)
  | .tokenAccount key => return (.tokenAccount (s.ledger.state.tokenAccounts.get? (← s.resolve key)), s)
  | .rent len => pure (if rent len < UInt64.size then .count (rent len) else .aborted, s)
  | .address name => return (.key (← s.resolve name), s)
  | .lastLogs =>
    pure (.lines s.lastSignature (match s.lastSignature with
      | some sig => s.ledger.transactionLogs sig
      | none => .ok []), s)
  | .send payer signers instructions => do
    let payer ← keypair payer
    let signers ← signers.mapM keypair
    let instructions ← instructions.mapM (·.resolve s.resolve)
    pure (s.send payer signers instructions)
  | .initializeConfig payer seed owner authority feeCollector fee label => do
    let payer ← keypair payer
    let run := Client.initializeConfig payer seed (← s.resolve owner) (← s.resolve authority)
      (← s.resolve feeCollector) fee
    let (r, s') := s.afterFlow run (some ·.2)
    match r with
    | .ok (config, _) =>
      pure (.configAddress config, { s' with aliases := (label, config) :: s'.aliases })
    | .error e => pure (stopAnswer e, s')
  | .transferOwner config owner newOwner => do
    let run := Client.transferOwner (← s.resolve config) (← keypair owner) (← s.resolve newOwner)
    pure (s.flow run some fun _ => .done)
  | .changeAuthority config owner newAuthority => do
    let run := Client.changeAuthority (← s.resolve config) (← keypair owner)
      (← s.resolve newAuthority)
    pure (s.flow run some fun _ => .done)
  | .changeFee config owner fee feeCollector => do
    let run := Client.changeFee (← s.resolve config) (← keypair owner) fee
      (← s.resolve feeCollector)
    pure (s.flow run some fun _ => .done)
  | .createRoute payer route owner config mint escrow tokenProgram destination max min => do
    let payer ← keypair payer
    let route ← keypair route
    let owner ← keypair owner
    let params : Client.RouteParams := ⟨← s.resolve config, ← s.resolve mint,
      ← s.resolve escrow, ← s.tokenProgramOf tokenProgram, destination, max, min⟩
    pure (s.flow (Client.createRoute payer route owner params) some fun _ => .done)
  | .changeLimit config route owner max min => do
    let run := Client.changeLimit (← s.resolve config) (← s.resolve route) (← keypair owner) max min
    pure (s.flow run some fun _ => .done)
  | .bridge approve payer transferAuthority route config escrow user mint tokenProgram amount
      recipient payload => do
    let payer ← keypair payer
    let transferAuthority ← keypair transferAuthority
    let request : Client.BridgeRequest := ⟨← s.resolve route, ← s.resolve config,
      ← s.resolve escrow, ← s.resolve user, ← s.resolve mint, ← s.tokenProgramOf tokenProgram,
      amount, recipient, payload⟩
    pure (s.flow (Client.bridge approve payer transferAuthority request) (some ·.signature) .receipt)
  | .settle authority route config escrow user mint tokenProgram amount => do
    let authority ← keypair authority
    let request : Client.SettleRequest := ⟨← s.resolve route, ← s.resolve config,
      ← s.resolve escrow, ← s.resolve user, ← s.resolve mint, ← s.tokenProgramOf tokenProgram,
      amount⟩
    pure (s.flow (Client.settle authority request) some fun _ => .done)
  | .fetchConfig key => do
    pure (s.flow (Client.fetchConfig (← s.resolve key)) (fun _ => none) .config)
  | .fetchRoute key => do
    pure (s.flow (Client.fetchRoute (← s.resolve key)) (fun _ => none) .route)

/-- Runs one step; a name that does not resolve fails the step alone. -/
def step (s : Scenario) (st : Step) : Answer × Scenario :=
  match s.runResolved st with
  | .ok r => r
  | .error e => (.badName e, s)

/-- Runs the steps in order; the answer of each. -/
def run (s : Scenario) : List Step → List Answer
  | [] => []
  | st :: rest =>
    let (a, s') := s.step st
    a :: s'.run rest

end Scenario

end TokenBridge
