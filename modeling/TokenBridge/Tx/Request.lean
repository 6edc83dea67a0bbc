import TokenBridge.Tx.Builder
import TokenBridge.Tx.System
import TokenBridge.Tx.Token
import TokenBridge.Tx.Transaction
import TokenBridge.Record.Config
import TokenBridge.Record.Route
/-!
Requests for instructions whose accounts are still names.

A request names a builder and its arguments, with each account given as a value of `α`: a text
to be read as an address, a name to be looked up, or an address. Resolving replaces every
account by an address, the first failure winning; building then calls the builder.
-/

namespace TokenBridge

/-- A request for one instruction from a builder. -/
inductive BuildRequest (α : Type) where
  | initializeConfig (program config owner authority feeCollector : α) (fee : UInt64)
  | transferOwner (program config owner newOwner : α)
  | changeAuthority (program config owner newAuthority : α)
  | changeFee (program config owner feeCollector : α) (fee : UInt64)
  | create (program route tokenAuthority mint escrow tokenProgram owner config : α)
      (destination : UInt32) (max min : UInt64)
  | changeLimit (program config route owner : α) (max min : UInt64)
  | bridge (program route escrow user transferAuthority mint tokenProgram config : α)
      (amount : UInt64) (recipient : String) (payload : Bytes) (fee : Option (α × α))
  | settle (program route tokenAuthority escrow user authority mint tokenProgram config : α)
      (amount : UInt64)
  | createConfigAccount (payer config : α) (seed : String) (lamports : UInt64) (program : α)
  | createBridgeAccount (payer route : α) (lamports : UInt64) (program : α)
  | approveTransfer (operation : String) (tokenProgram source transferAuthority owner : α)
      (amount : UInt64)

/-- An instruction given account by account. -/
structure RawInstruction (α : Type) where
  program : α
  accounts : List (α × Bool × Bool)
  data : Bytes

/-- An instruction given whole or by a builder. -/
inductive InstructionRequest (α : Type) where
  | raw (ix : RawInstruction α)
  | build (request : BuildRequest α)

namespace BuildRequest

variable {α β ε : Type}

/-- Resolves every account of a request, in argument order. -/
def resolve (f : α → Except ε β) : BuildRequest α → Except ε (BuildRequest β)
  | .initializeConfig p c o a fc fee => return .initializeConfig (← f p) (← f c) (← f o) (← f a) (← f fc) fee
  | .transferOwner p c o n => return .transferOwner (← f p) (← f c) (← f o) (← f n)
  | .changeAuthority p c o n => return .changeAuthority (← f p) (← f c) (← f o) (← f n)
  | .changeFee p c o fc fee => return .changeFee (← f p) (← f c) (← f o) (← f fc) fee
  | .create p r ta m e tp o c d mx mn =>
    return .create (← f p) (← f r) (← f ta) (← f m) (← f e) (← f tp) (← f o) (← f c) d mx mn
  | .changeLimit p c r o mx mn => return .changeLimit (← f p) (← f c) (← f r) (← f o) mx mn
  | .bridge p r e u ta m tp c amount recipient payload fee => do
    let p ← f p; let r ← f r; let e ← f e; let u ← f u; let ta ← f ta; let m ← f m
    let tp ← f tp; let c ← f c
    let fee ← match fee with
      | some (payer, collector) => pure (some (← f payer, ← f collector))
      | none => pure none
    pure (.bridge p r e u ta m tp c amount recipient payload fee)
  | .settle p r ta e u a m tp c amount =>
    return .settle (← f p) (← f r) (← f ta) (← f e) (← f u) (← f a) (← f m) (← f tp) (← f c) amount
  | .createConfigAccount payer c seed lamports p =>
    return .createConfigAccount (← f payer) (← f c) seed lamports (← f p)
  | .createBridgeAccount payer r lamports p =>
    return .createBridgeAccount (← f payer) (← f r) lamports (← f p)
  | .approveTransfer op tp s ta o amount =>
    return .approveTransfer op (← f tp) (← f s) (← f ta) (← f o) amount

/-- The instruction a request asks for; only an approval can be refused. -/
def build : BuildRequest Address → Except AssembleError Instruction
  | .initializeConfig p c o a fc fee => .ok (Builder.initializeConfig p c o a fc fee)
  | .transferOwner p c o n => .ok (Builder.transferOwner p c o n)
  | .changeAuthority p c o n => .ok (Builder.changeAuthority p c o n)
  | .changeFee p c o fc fee => .ok (Builder.changeFee p c o fc fee)
  | .create p r ta m e tp o c d mx mn => .ok (Builder.create p ⟨r, ta, m, e, tp, o, c⟩ d mx mn)
  | .changeLimit p c r o mx mn => .ok (Builder.changeLimit p c r o mx mn)
  | .bridge p r e u ta m tp c amount recipient payload fee =>
    .ok (Builder.bridge p ⟨r, e, u, ta, m, tp, c, fee.map fun (a, b) => ⟨a, b⟩⟩ amount recipient
      payload)
  | .settle p r ta e u a m tp c amount => .ok (Builder.settle p ⟨r, ta, e, u, a, m, tp, c⟩ amount)
  | .createConfigAccount payer c seed lamports p =>
    .ok (Builder.createAccountWithSeed payer c payer seed lamports Config.size.toUInt64 p)
  | .createBridgeAccount payer r lamports p =>
    .ok (Builder.createAccount payer r lamports Route.size.toUInt64 p)
  | .approveTransfer op tp s ta o amount =>
    match Builder.approve tp s ta o amount with
    | .ok ix => .ok ix
    | .error reason => .error (.approval op reason)

end BuildRequest

namespace InstructionRequest

variable {α ε : Type}

/-- Resolves the accounts of a request. -/
def resolve (f : α → Except ε Address) : InstructionRequest α → Except ε (InstructionRequest Address)
  | .raw ix => do
    let program ← f ix.program
    let accounts ← ix.accounts.mapM fun (k, s, w) => return (← f k, s, w)
    pure (.raw ⟨program, accounts, ix.data⟩)
  | .build r => return .build (← r.resolve f)

/-- The instruction a request asks for. -/
def toInstruction : InstructionRequest Address → Except AssembleError Instruction
  | .raw ix => .ok ⟨ix.program, ix.accounts.map fun (k, s, w) => ⟨k, s, w⟩, ix.data⟩
  | .build r => r.build

end InstructionRequest

end TokenBridge
