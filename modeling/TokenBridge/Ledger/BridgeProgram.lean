import TokenBridge.Ledger.Tokens
import TokenBridge.Record.Config
import TokenBridge.Record.Route
import TokenBridge.Relay.LogLine
import TokenBridge.Command
/-!
The bridge program on the ledger.

Every command reads its accounts by position first, then checks in a fixed order: that the
config and route accounts belong to the program, that they decode, that the right key signed,
and the command's own conditions, each with its error code. Governance commands need the
config's owner; settling needs its authority. A bridge-out takes the fee in lamports, burns the
tokens (home chain) or moves them into the route's escrow, raises the route's index by one and
logs the transfer; a settlement mints (home chain) or pays out of the escrow under the route's
token authority.
-/

namespace TokenBridge.BridgeProgram

/-- The line a program writes to the transaction's log. -/
def logLine (text : String) : String := LogLine.programLogPrefix ++ text

/-- Refuses an account that the program does not own. -/
def ownedBy (program key : Address) : Exec Unit := do
  match (← get).accounts.get? key with
  | some a => if a.owner == program then pure () else fail (.runtime .incorrectProgramId)
  | none => fail (.runtime .incorrectProgramId)

/-- Decodes the record stored at `key`. -/
def readRecord {α : Type} (decode : Bytes → Except CodecError α) (key : Address) : Exec α := do
  match (← get).accounts.get? key with
  | none => fail (.runtime .undecodableAccount)
  | some a => match decode a.data with
    | .ok r => pure r
    | .error e => fail (.runtime (.badRecord e))

/-- Stores a record's bytes at `key`, which the program must own. -/
def writeRecord (program key : Address) (bytes : Bytes) : Exec Unit := do
  let s ← get
  match s.accounts.get? key with
  | some a =>
    if a.owner == program then set { s with accounts := s.accounts.set key { a with data := bytes } }
    else fail (.runtime .foreignDataModified)
  | none => fail (.runtime .foreignDataModified)

/-- The mint at `key`, which must exist. -/
def mintAt (key : Address) : Exec Mint := do
  match (← get).mints.get? key with
  | some m => pure m
  | none => fail (.program .expectedMint)

/-- Refuses a key that did not sign or is not `expected`, with `code`. -/
def requireKey (a : Invoked) (expected : Address) (code : ErrorCode) : Exec Unit :=
  if a.signer && a.key == expected then pure () else fail (.program code)

/-- Sets up a config that is not yet initialized. -/
def setUp (program : Address) (accounts : List Invoked) (fee : UInt64) : Exec (List String) := do
  let configKey := (← nth accounts 0).key
  let owner := (← nth accounts 1).key
  let authority := (← nth accounts 2).key
  let feeCollector := (← nth accounts 3).key
  let config ← readRecord Config.decode configKey
  if config.initialized then fail (.program .alreadyInUse)
  writeRecord program configKey (Config.encode ⟨true, owner, authority, fee, feeCollector⟩)
  pure []

/-- Hands the config to a new owner, or names a new authority. -/
def changeKey (program : Address) (accounts : List Invoked) (ofOwner : Bool) :
    Exec (List String) := do
  let configKey := (← nth accounts 0).key
  let owner ← nth accounts 1
  let target := (← nth accounts 2).key
  ownedBy program configKey
  let config ← readRecord Config.decode configKey
  requireKey owner config.owner .invalidOwner
  let (config, line) :=
    if ofOwner then ({ config with owner := target }, "Owner change to " ++ target.toBase58)
    else ({ config with authority := target }, "Authority change to " ++ target.toBase58)
  writeRecord program configKey config.encode
  pure [logLine line]

/-- Sets the fee, and the collector when the fee is above zero. -/
def changeFee (program : Address) (accounts : List Invoked) (fee : UInt64) : Exec (List String) := do
  let configKey := (← nth accounts 0).key
  let owner ← nth accounts 1
  ownedBy program configKey
  let config ← readRecord Config.decode configKey
  requireKey owner config.owner .invalidOwner
  if fee > 0 then
    let feeCollector := (← nth accounts 2).key
    writeRecord program configKey { config with fee, feeCollector }.encode
  else
    writeRecord program configKey { config with fee }.encode
  pure []

/-- Sets a route's limits. -/
def changeLimit (program : Address) (accounts : List Invoked) (max min : UInt64) :
    Exec (List String) := do
  if min > max then fail (.program .invalidInput)
  let configKey := (← nth accounts 0).key
  let routeKey := (← nth accounts 1).key
  let owner ← nth accounts 2
  ownedBy program configKey
  ownedBy program routeKey
  let config ← readRecord Config.decode configKey
  requireKey owner config.owner .invalidOwner
  let route ← readRecord Route.decode routeKey
  if route.config != configKey then fail (.program .invalidConfig)
  writeRecord program routeKey { route with max, min }.encode
  pure []

/-- Opens a route whose token side is in place. -/
def create (program : Address) (accounts : List Invoked) (destination : UInt32) (max min : UInt64) :
    Exec (List String) := do
  let routeKey := (← nth accounts 0).key
  let tokenAuthority := (← nth accounts 1).key
  let mint := (← nth accounts 2).key
  let escrow := (← nth accounts 3).key
  let tokenProgram := (← nth accounts 4).key
  let owner ← nth accounts 5
  let configKey := (← nth accounts 6).key
  if min > max then fail (.program .invalidInput)
  let config ← readRecord Config.decode configKey
  ownedBy program configKey
  requireKey owner config.owner .invalidOwner
  let existing ← readRecord Route.decode routeKey
  if existing.initialized then fail (.program .alreadyInUse)
  match Address.findProgramAddress [routeKey.bytes] program with
  | none => fail .abort
  | some (expected, bumpSeed) =>
    if tokenAuthority != expected then fail (.program .invalidProgramAddress)
    if destination != 0 then
      match (← get).tokenAccounts.get? escrow with
      | none => fail (.program .expectedAccount)
      | some a =>
        if a.owner != tokenAuthority || a.mint != mint then fail (.program .invalidToken)
    else
      let m ← mintAt mint
      if m.authority != some tokenAuthority then fail (.program .invalidOwner)
    writeRecord program routeKey
      (Route.encode ⟨true, bumpSeed, tokenProgram, configKey, escrow, mint, destination, 0, max, min⟩)
    pure []

/-- Sends tokens out along a route and logs the transfer. -/
def bridgeOut (program : Address) (accounts : List Invoked) (amount : UInt64) (recipient : String)
    (payload : Bytes) : Exec (List String) := do
  let routeKey := (← nth accounts 0).key
  let escrow := (← nth accounts 1).key
  let user := (← nth accounts 2).key
  let transferAuthority ← nth accounts 3
  let mint := (← nth accounts 4).key
  let tokenProgram := (← nth accounts 5).key
  let configKey := (← nth accounts 6).key
  let config ← readRecord Config.decode configKey
  ownedBy program configKey
  ownedBy program routeKey
  let route ← readRecord Route.decode routeKey
  if route.config != configKey then fail (.program .invalidConfig)
  if tokenProgram != route.tokenProgram then fail (.program .invalidInput)
  if !route.acceptsAmount amount then fail (.program .invalidAmount)
  if route.mint != mint then fail (.program .invalidMint)
  let _ ← mintAt route.mint
  if config.fee > 0 then
    let payer ← nth accounts 7
    let feeCollector := (← nth accounts 8).key
    if feeCollector != config.feeCollector then fail (.program .invalidFeeCollector)
    requireSigner payer
    transferLamports payer.key feeCollector config.fee
  if route.destination == 0 then
    burn user mint transferAuthority amount
  else
    if user == escrow then fail (.program .invalidInput)
    transferTokens user mint escrow transferAuthority amount
  let index ← addAmount route.index 1
  writeRecord program routeKey { route with index }.encode
  let log : TransferLog :=
    ⟨route.mint, index, user, recipient, amount, config.fee, route.destination, payload⟩
  pure [logLine (LogLine.ofLog log)]

/-- Pays tokens in from another chain and logs the settlement. -/
def settle (program : Address) (accounts : List Invoked) (amount : UInt64) : Exec (List String) := do
  let routeKey := (← nth accounts 0).key
  let tokenAuthority := (← nth accounts 1).key
  let escrow := (← nth accounts 2).key
  let user := (← nth accounts 3).key
  let authority ← nth accounts 4
  let mint := (← nth accounts 5).key
  let configKey := (← nth accounts 7).key
  ownedBy program routeKey
  let config ← readRecord Config.decode configKey
  ownedBy program configKey
  let route ← readRecord Route.decode routeKey
  if route.config != configKey then fail (.program .invalidConfig)
  requireKey authority config.authority .invalidAuthority
  match Address.programAddress [routeKey.bytes, [route.bumpSeed]] program with
  | .error _ => fail (.program .invalidProgramAddress)
  | .ok expected =>
    if tokenAuthority != expected then fail (.program .invalidProgramAddress)
    let _ ← mintAt route.mint
    if route.destination == 0 then
      mintTo mint user tokenAuthority amount
    else
      transferTokens escrow mint user ⟨tokenAuthority, true⟩ amount
    pure [logLine ("Settle " ++ toString amount.toNat ++ " " ++ route.mint.toBase58 ++ " to "
      ++ user.toBase58)]

/-- Runs a bridge command; the log lines it writes. -/
def process (program : Address) (accounts : List Invoked) (data : Bytes) : Exec (List String) :=
  match Command.unpack data with
  | .error _ => fail (.runtime .invalidInstructionData)
  | .ok (.config fee) => setUp program accounts fee
  | .ok .transferOwner => changeKey program accounts true
  | .ok .changeAuthority => changeKey program accounts false
  | .ok (.changeFee fee) => changeFee program accounts fee
  | .ok (.changeLimit max min) => changeLimit program accounts max min
  | .ok (.create destination max min) => create program accounts destination max min
  | .ok (.bridge amount recipient payload) => bridgeOut program accounts amount recipient payload
  | .ok (.settle amount) => settle program accounts amount

end TokenBridge.BridgeProgram
