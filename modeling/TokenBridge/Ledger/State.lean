import TokenBridge.Ledger.Table
import TokenBridge.Wire.Fault
import TokenBridge.Program.Rejection
/-!
What the ledger holds: plain accounts (lamports, owning program, data), token mints (authority,
supply, decimals) and token accounts (mint, owner, balance, delegate with allowance).

An instruction fails with a code of its program (bridge, token or system), with a runtime error
of the ledger, or by an overflow of a `u64` amount, which stops the simulator.
-/

namespace TokenBridge

/-- A plain account. -/
structure Account where
  lamports : UInt64
  owner : Address
  data : Bytes
  deriving DecidableEq

/-- A token mint. -/
structure Mint where
  authority : Option Address
  supply : UInt64
  decimals : UInt8
  deriving DecidableEq

/-- A token account. -/
structure TokenAccount where
  mint : Address
  owner : Address
  amount : UInt64
  delegate : Option (Address × UInt64)
  deriving DecidableEq

/-- The accounts, mints and token accounts of the ledger. -/
structure State where
  accounts : Table Account := {}
  mints : Table Mint := {}
  tokenAccounts : Table TokenAccount := {}

/-- Lamports that make an account of `len` data bytes exempt from rent. -/
def rent (len : Nat) : Nat := (128 + len) * 3480 * 2

/-- Errors of the token program, by number. -/
inductive TokenError where
  | insufficientFunds
  | mintMismatch
  | ownerMismatch
  | overflow
  deriving DecidableEq, Repr

/-- The token error's number. -/
def TokenError.code : TokenError → UInt32
  | .insufficientFunds => 1
  | .mintMismatch => 3
  | .ownerMismatch => 4
  | .overflow => 14

/-- Errors of the system program, by number. -/
inductive SystemError where
  | accountAlreadyInUse
  | resultWithNegativeLamports
  deriving DecidableEq, Repr

/-- The system error's number. -/
def SystemError.code : SystemError → UInt32
  | .accountAlreadyInUse => 0
  | .resultWithNegativeLamports => 1

/-- Errors of the ledger itself while it runs an instruction. -/
inductive RuntimeError where
  | insufficientAccountKeys
  | missingSignature
  | invalidInstructionData
  | invalidSeeds
  | addressWithSeedMismatch
  | unsupportedSystemInstruction
  | debitWithoutCredit
  | unsupportedTokenInstruction
  | invalidAccountData
  | incorrectProgramId
  | undecodableAccount
  | badRecord (e : CodecError)
  | foreignDataModified
  | unknownProgram (program : Address)
  deriving DecidableEq

/-- The runtime error in words. -/
def RuntimeError.message : RuntimeError → String
  | .insufficientAccountKeys => "insufficient account keys for instruction"
  | .missingSignature => "missing required signature for instruction"
  | .invalidInstructionData => "invalid instruction data"
  | .invalidSeeds => "invalid seeds"
  | .addressWithSeedMismatch => "address with seed mismatch"
  | .unsupportedSystemInstruction => "unsupported system instruction"
  | .debitWithoutCredit => "attempt to debit an account but found no record of a prior credit"
  | .unsupportedTokenInstruction => "unsupported token instruction"
  | .invalidAccountData => "invalid account data for instruction"
  | .incorrectProgramId => "incorrect program id for instruction"
  | .undecodableAccount => "failed to deserialize account data"
  | .badRecord e => e.message
  | .foreignDataModified => "instruction modified data of an account it does not own"
  | .unknownProgram program => "unknown program " ++ program.toBase58

/-- Why an instruction did not complete. -/
inductive Failure where
  /-- The bridge program refused it. -/
  | program (e : ErrorCode)
  /-- The token program refused it. -/
  | token (e : TokenError)
  /-- The system program refused it. -/
  | system (e : SystemError)
  /-- The ledger refused it. -/
  | runtime (e : RuntimeError)
  /-- The simulator stops: a `u64` amount went out of range, an account was too large to
  allocate, or no bump seed gave a program address. -/
  | abort
  deriving DecidableEq

/-- The custom code of a failure refused by a program. -/
def Failure.code? : Failure → Option UInt32
  | .program e => some e.code
  | .token e => some e.code
  | .system e => some e.code
  | _ => none

/-- A running instruction: the ledger's accounts, which it may change, or its failure. -/
abbrev Exec := StateT State (Except Failure)

/-- Stops the instruction with a failure. -/
def fail {α : Type} (f : Failure) : Exec α := throw f

/-- Runs a computation that cannot touch the accounts. -/
def liftExcept {α : Type} (e : Except Failure α) : Exec α := fun s => e.map (·, s)

/-- `a + b` on `u64` amounts; out of range stops the simulator. -/
def addAmount (a b : UInt64) : Exec UInt64 :=
  if a.toNat + b.toNat < UInt64.size then pure (a + b) else fail .abort

/-- `a - b` on `u64` amounts; below zero stops the simulator. -/
def subAmount (a b : UInt64) : Exec UInt64 :=
  if b ≤ a then pure (a - b) else fail .abort

end TokenBridge
