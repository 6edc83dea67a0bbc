import TokenBridge.Command
import TokenBridge.Tx.Instruction
/-!
Instructions of the bridge program, one builder per command.

Each builder fixes the order of the accounts and their permissions: the account a command
changes is writable, the key whose approval it needs signs, and every other account is only
read. Changing the fee names the fee collector only for a fee above zero; a bridge-out names the
fee payer (writable signer) and the fee collector (writable) only when a fee is paid.
-/

namespace TokenBridge.Builder

open AccountRef

/-- An instruction of the bridge program `program` carrying `c`. -/
def bridgeInstruction (program : Address) (accounts : List AccountRef) (c : Command) :
    Instruction :=
  ⟨program, accounts, c.pack⟩

/-- Sets up a config account: config (w), owner, authority, fee collector. -/
def initializeConfig (program config owner authority feeCollector : Address) (fee : UInt64) :
    Instruction :=
  bridgeInstruction program
    [mutable config false, readonly owner false, readonly authority false,
      readonly feeCollector false] (.config fee)

/-- Hands the config to a new owner: config (w), owner (signer), new owner. -/
def transferOwner (program config owner newOwner : Address) : Instruction :=
  bridgeInstruction program [mutable config false, readonly owner true, readonly newOwner false]
    .transferOwner

/-- Names a new settling authority: config (w), owner (signer), new authority. -/
def changeAuthority (program config owner newAuthority : Address) : Instruction :=
  bridgeInstruction program
    [mutable config false, readonly owner true, readonly newAuthority false] .changeAuthority

/-- Sets the fee: config (w), owner (signer), and the fee collector when the fee is above zero. -/
def changeFee (program config owner feeCollector : Address) (fee : UInt64) : Instruction :=
  bridgeInstruction program
    ([mutable config false, readonly owner true]
      ++ if fee > 0 then [readonly feeCollector false] else []) (.changeFee fee)

/-- The accounts a new route names. -/
structure CreateAccounts where
  route : Address
  tokenAuthority : Address
  mint : Address
  escrow : Address
  tokenProgram : Address
  owner : Address
  config : Address

/-- Opens a route: route (w), token authority, mint, escrow, token program, owner (signer),
config. -/
def create (program : Address) (a : CreateAccounts) (destination : UInt32) (max min : UInt64) :
    Instruction :=
  bridgeInstruction program
    [mutable a.route false, readonly a.tokenAuthority false, readonly a.mint false,
      readonly a.escrow false, readonly a.tokenProgram false, readonly a.owner true,
      readonly a.config false] (.create destination max min)

/-- Sets a route's limits: config, route (w), owner (signer). -/
def changeLimit (program config route owner : Address) (max min : UInt64) : Instruction :=
  bridgeInstruction program [readonly config false, mutable route false, readonly owner true]
    (.changeLimit max min)

/-- Who pays a bridge-out's fee, and who collects it. -/
structure FeeAccounts where
  payer : Address
  feeCollector : Address

/-- The accounts a bridge-out names. -/
structure BridgeAccounts where
  route : Address
  escrow : Address
  user : Address
  transferAuthority : Address
  mint : Address
  tokenProgram : Address
  config : Address
  fee : Option FeeAccounts := none

/-- The account list of a bridge-out: route (w), escrow (w), user account (w), transfer
authority (signer), mint (w), token program, config, then payer (w, signer) and fee collector
(w) when a fee is paid. -/
def BridgeAccounts.refs (a : BridgeAccounts) : List AccountRef :=
  [mutable a.route false, mutable a.escrow false, mutable a.user false,
    readonly a.transferAuthority true, mutable a.mint false, readonly a.tokenProgram false,
    readonly a.config false]
    ++ match a.fee with
      | some f => [mutable f.payer true, mutable f.feeCollector false]
      | none => []

/-- Sends tokens out along a route. -/
def bridge (program : Address) (a : BridgeAccounts) (amount : UInt64) (recipient : String)
    (payload : Bytes) : Instruction :=
  bridgeInstruction program a.refs (.bridge amount recipient payload)

/-- The accounts a settlement names. -/
structure SettleAccounts where
  route : Address
  tokenAuthority : Address
  escrow : Address
  user : Address
  authority : Address
  mint : Address
  tokenProgram : Address
  config : Address

/-- Pays tokens in from another chain: route, token authority, escrow (w), user account (w),
authority (signer), mint (w), token program, config. -/
def settle (program : Address) (a : SettleAccounts) (amount : UInt64) : Instruction :=
  bridgeInstruction program
    [readonly a.route false, readonly a.tokenAuthority false, mutable a.escrow false,
      mutable a.user false, readonly a.authority true, mutable a.mint false,
      readonly a.tokenProgram false, readonly a.config false] (.settle amount)

end TokenBridge.Builder
