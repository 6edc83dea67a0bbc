import TokenBridge.Ledger.State
import TokenBridge.Tx.System
import TokenBridge.Address.Derived
/-!
The system program on the ledger: creating accounts and moving lamports.

Creating an account needs the funding account's signature (and the new account's, or the seed
base's for a derived address); it refuses an address that already holds lamports, debits the
funder, and puts a zeroed account of the asked size in place. Moving lamports debits the sender
and credits the receiver, making a plain account for a receiver not seen before.
-/

namespace TokenBridge

/-- An account as an instruction sees it: its key, and whether it signed the transaction. -/
structure Invoked where
  key : Address
  signer : Bool
  deriving DecidableEq

/-- The instruction's account at position `i`. -/
def nth (accounts : List Invoked) (i : Nat) : Exec Invoked :=
  match accounts[i]? with
  | some a => pure a
  | none => fail (.runtime .insufficientAccountKeys)

/-- Refuses an instruction whose account did not sign. -/
def requireSigner (a : Invoked) : Exec Unit :=
  if a.signer then pure () else fail (.runtime .missingSignature)

/-- Takes lamports from an account. -/
def debit (source : Address) (lamports : UInt64) : Exec Unit := do
  let s ← get
  match s.accounts.get? source with
  | none => fail (.runtime .debitWithoutCredit)
  | some a =>
    if lamports ≤ a.lamports then
      set { s with accounts := s.accounts.set source { a with lamports := a.lamports - lamports } }
    else fail (.system .resultWithNegativeLamports)

/-- Gives lamports to an account, making a plain account if there is none. -/
def credit (target : Address) (lamports : UInt64) : Exec Unit := do
  let s ← get
  let a := (s.accounts.get? target).getD ⟨0, Address.systemProgram, []⟩
  let total ← addAmount a.lamports lamports
  set { s with accounts := s.accounts.set target { a with lamports := total } }

/-- Moves lamports between accounts. -/
def transferLamports (source target : Address) (lamports : UInt64) : Exec Unit := do
  debit source lamports
  credit target lamports

/-- Puts a new zeroed account at `target`, funded from `source`. A size of `2 ^ 63` bytes or more
cannot be addressed, and stops the simulator. -/
def allocate (source target : Address) (lamports space : UInt64) (owner : Address) : Exec Unit := do
  let s ← get
  if (s.accounts.get? target).any (·.lamports > 0) then fail (.system .accountAlreadyInUse)
  debit source lamports
  if space.toNat ≥ Nat.pow 2 63 then fail .abort
  modify fun s =>
    { s with accounts := s.accounts.set target ⟨lamports, owner, List.replicate space.toNat 0⟩ }

/-- Runs a system command. -/
def processSystem (accounts : List Invoked) (data : Bytes) : Exec Unit := do
  match SystemCommand.decode? data with
  | none => fail (.runtime .invalidInstructionData)
  | some (.createAccount lamports space owner) =>
    let source ← nth accounts 0
    let target ← nth accounts 1
    if !source.signer || !target.signer then fail (.runtime .missingSignature)
    allocate source.key target.key lamports space owner
  | some (.createAccountWithSeed base seed lamports space owner) =>
    let source ← nth accounts 0
    let target ← nth accounts 1
    let baseSigned := accounts.any fun a => a.key == base && a.signer
    if !source.signer || !baseSigned then fail (.runtime .missingSignature)
    match Address.withSeed base seed owner with
    | .error _ => fail (.runtime .invalidSeeds)
    | .ok expected =>
      if expected != target.key then fail (.runtime .addressWithSeedMismatch)
      allocate source.key target.key lamports space owner
  | some (.transfer lamports) =>
    let source ← nth accounts 0
    let target ← nth accounts 1
    requireSigner source
    transferLamports source.key target.key lamports
  | some _ => fail (.runtime .unsupportedSystemInstruction)

end TokenBridge
