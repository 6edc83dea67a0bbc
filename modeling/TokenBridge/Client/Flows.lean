import TokenBridge.Client.Error
import TokenBridge.Tx.Request
import TokenBridge.Relay.LogLine
/-!
The bridge client: each flow reads what it needs from the ledger, builds its instructions,
assembles and signs them under a fresh blockhash, and submits them.

A flow stops at the first failure with a client error; a panic, inside the ledger or in the
search for a token authority, stops everything. The ledger keeps what happened before the stop: handed-out blockhashes and counted
submissions.
-/

namespace TokenBridge

/-- How a flow stops early. -/
inductive Stop where
  | failed (e : ClientError)
  | aborted

/-- A client flow against the ledger. -/
abbrev Flow := ExceptT Stop (StateM Ledger)

/-- What a bridge-out returns: its signature, and the transfer it logged or why that is not
known. -/
structure Receipt where
  signature : Bytes
  log : Option TransferLog
  logError : Option String

namespace Client

/-- Stops the flow with a client error. -/
def failWith {α : Type} (e : ClientError) : Flow α := throw (.failed e)

/-- Decodes the record stored at `key`. -/
def fetch {α : Type} (operation : String) (decode : Bytes → Except CodecError α) (key : Address) :
    Flow α := do
  match (← get).accountData key with
  | .error e => failWith (.ledger operation e)
  | .ok data => match decode data with
    | .ok r => pure r
    | .error e => failWith (.codec e)

/-- The config at `key`. -/
def fetchConfig (key : Address) : Flow Config := fetch "fetch_config" Config.decode key

/-- The route at `key`. -/
def fetchRoute (key : Address) : Flow Route := fetch "fetch_bridge_account" Route.decode key

/-- Assembles a transaction, or stops. -/
def assembleOrStop (operation : String) (payer : Address) (instructions : List Instruction)
    (signers : List Signer) : Flow Assembled :=
  match assemble operation payer instructions signers with
  | .ok a => pure a
  | .error e => failWith (.assemble e)

/-- Signs under a fresh blockhash and submits; the signature of the committed transaction. -/
def submit (a : Assembled) : Flow Bytes := do
  let blockhash ← modifyGet Ledger.latestBlockhash
  match a.sign blockhash with
  | .error e => failWith (.assemble e)
  | .ok t =>
    let l ← get
    let (verdict, l') := l.sendAndConfirm t
    set l'
    match verdict with
    | .committed signature => pure signature
    | .aborted => throw .aborted
    | .refused e => failWith (ClientError.ofSubmission a.operation l.program t.message e)

/-- Creates the config account at the address derived from the payer and `seed`, and sets it up;
the config's address and the signature. -/
def initializeConfig (payer : Keypair) (seed : String) (owner authority feeCollector : Address)
    (fee : UInt64) : Flow (Address × Bytes) := do
  let op := "initialize_config"
  let program := (← get).program
  match Address.withSeed payer.key seed program with
  | .error e => failWith (.address op e.message)
  | .ok config =>
    let lamports := (rent Config.size).toUInt64
    let a ← assembleOrStop op payer.key
      [Builder.createAccountWithSeed payer.key config payer.key seed lamports
          Config.size.toUInt64 program,
        Builder.initializeConfig program config owner authority feeCollector fee]
      [.keypair payer]
    return (config, ← submit a)

/-- Hands the config to a new owner. -/
def transferOwner (config : Address) (owner : Keypair) (newOwner : Address) : Flow Bytes := do
  let ix := Builder.transferOwner (← get).program config owner.key newOwner
  submit (← assembleOrStop "transfer_owner" owner.key [ix] [.keypair owner])

/-- Names a new settling authority. -/
def changeAuthority (config : Address) (owner : Keypair) (newAuthority : Address) : Flow Bytes := do
  let ix := Builder.changeAuthority (← get).program config owner.key newAuthority
  submit (← assembleOrStop "change_authority" owner.key [ix] [.keypair owner])

/-- Sets the fee and its collector. -/
def changeFee (config : Address) (owner : Keypair) (fee : UInt64) (feeCollector : Address) :
    Flow Bytes := do
  let ix := Builder.changeFee (← get).program config owner.key feeCollector fee
  submit (← assembleOrStop "change_fee" owner.key [ix] [.keypair owner])

/-- What a new route is set up with. -/
structure RouteParams where
  config : Address
  mint : Address
  escrow : Address
  tokenProgram : Address
  destination : UInt32
  max : UInt64
  min : UInt64

/-- Creates the route account and opens the route. -/
def createRoute (payer route owner : Keypair) (p : RouteParams) : Flow Bytes := do
  let op := "create_bridge_account"
  let program := (← get).program
  let lamports := (rent Route.size).toUInt64
  -- the search for the token authority panics when no bump seed gives a program address
  match Address.findProgramAddress [route.key.bytes] program with
  | none => throw .aborted
  | some (tokenAuthority, _) =>
    let a ← assembleOrStop op payer.key
      [Builder.createAccount payer.key route.key lamports Route.size.toUInt64 program,
        Builder.create program
          ⟨route.key, tokenAuthority, p.mint, p.escrow, p.tokenProgram, owner.key, p.config⟩
          p.destination p.max p.min]
      [.keypair payer, .keypair route, .keypair owner]
    submit a

/-- Sets a route's limits. -/
def changeLimit (config route : Address) (owner : Keypair) (max min : UInt64) : Flow Bytes := do
  let ix := Builder.changeLimit (← get).program config route owner.key max min
  submit (← assembleOrStop "change_limit" owner.key [ix] [.keypair owner])

/-- What a bridge-out asks for. -/
structure BridgeRequest where
  route : Address
  config : Address
  escrow : Address
  user : Address
  mint : Address
  tokenProgram : Address
  amount : UInt64
  recipient : String
  payload : Bytes

/-- The receipt of a committed bridge-out: the first transfer in its log lines. -/
def receipt (signature : Bytes) : Flow Receipt := do
  match (← get).transactionLogs signature with
  | .error e => pure ⟨signature, none, some e.message⟩
  | .ok lines => match LogLine.extract lines with
    | .ok logs => pure ⟨signature, logs.head?, none⟩
    | .error e => pure ⟨signature, none, some e.message⟩

/-- Sends tokens out along a route, paying the config's fee when there is one; with `approve`,
first lets the transfer authority spend the amount from the user's account. -/
def bridge (approve : Bool) (payer transferAuthority : Keypair) (r : BridgeRequest) :
    Flow Receipt := do
  let op := if approve then "approve_and_bridge" else "bridge"
  let program := (← get).program
  let config ← fetch op Config.decode r.config
  let fee := if config.fee > 0 then some ⟨payer.key, config.feeCollector⟩ else none
  let out := Builder.bridge program
    ⟨r.route, r.escrow, r.user, transferAuthority.key, r.mint, r.tokenProgram, r.config, fee⟩
    r.amount r.recipient r.payload
  let ixs ← if approve then
      match Builder.approve r.tokenProgram r.user transferAuthority.key payer.key r.amount with
      | .ok ix => pure [ix, out]
      | .error reason => failWith (.assemble (.approval op reason))
    else pure [out]
  let a ← assembleOrStop op payer.key ixs [.keypair payer, .keypair transferAuthority]
  receipt (← submit a)

/-- What a settlement asks for. -/
structure SettleRequest where
  route : Address
  config : Address
  escrow : Address
  user : Address
  mint : Address
  tokenProgram : Address
  amount : UInt64

/-- Pays tokens in from another chain, under the route's token authority. -/
def settle (authority : Keypair) (r : SettleRequest) : Flow Bytes := do
  let program := (← get).program
  -- the search for the token authority panics when no bump seed gives a program address
  match Address.findProgramAddress [r.route.bytes] program with
  | none => throw .aborted
  | some (tokenAuthority, _) =>
    let ix := Builder.settle program
      ⟨r.route, tokenAuthority, r.escrow, r.user, authority.key, r.mint, r.tokenProgram, r.config⟩
      r.amount
    submit (← assembleOrStop "settle" authority.key [ix] [.keypair authority])

end Client

end TokenBridge
