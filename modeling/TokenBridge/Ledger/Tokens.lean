import TokenBridge.Ledger.Accounts
import TokenBridge.Tx.Token
/-!
The token program on the ledger: approving a delegate, and the burns, transfers and mints that
bridge instructions make.

Moving tokens out of an account needs a signature of its owner, or of its delegate within the
allowance, which then shrinks by the amount (the delegate goes when nothing is left). A burn
lowers the mint's supply by what leaves the account; a mint raises both.
-/

namespace TokenBridge

/-- Runs a token command; only approval is known. -/
def processToken (accounts : List Invoked) (data : Bytes) : Exec Unit := do
  if data.length != 9 || data.head? != some approveTag then
    fail (.runtime .unsupportedTokenInstruction)
  let amount := (Bytes.toNatLE (data.drop 1)).toUInt64
  let source ← nth accounts 0
  let delegate ← nth accounts 1
  let owner ← nth accounts 2
  requireSigner owner
  let s ← get
  match s.tokenAccounts.get? source.key with
  | none => fail (.runtime .invalidAccountData)
  | some a =>
    if a.owner != owner.key then fail (.token .ownerMismatch)
    set { s with
      tokenAccounts := s.tokenAccounts.set source.key { a with delegate := some (delegate.key, amount) } }

/-- The account after `authority` spends `amount` from it: the owner freely, a delegate out of
its allowance. -/
def authorize (a : TokenAccount) (authority : Invoked) (amount : UInt64) : Exec TokenAccount := do
  requireSigner authority
  if a.owner == authority.key then return a
  match a.delegate with
  | some (d, allowance) =>
    if d != authority.key then fail (.token .ownerMismatch)
    if amount ≤ allowance then
      let rest := allowance - amount
      return { a with delegate := if rest > 0 then some (d, rest) else none }
    else fail (.token .insufficientFunds)
  | none => fail (.token .ownerMismatch)

/-- The token account at a key. -/
def tokenAccount (key : Address) : Exec TokenAccount := do
  match (← get).tokenAccounts.get? key with
  | some a => pure a
  | none => fail (.runtime .invalidAccountData)

/-- Stores a token account. -/
def putTokenAccount (key : Address) (a : TokenAccount) : Exec Unit :=
  modify fun s => { s with tokenAccounts := s.tokenAccounts.set key a }

/-- Takes `amount` out of `source`, checked against its mint, balance and authority. -/
def withdraw (source mint : Address) (authority : Invoked) (amount : UInt64) : Exec Unit := do
  let a ← tokenAccount source
  if a.mint != mint then fail (.token .mintMismatch)
  if a.amount < amount then fail (.token .insufficientFunds)
  let a ← authorize a authority amount
  putTokenAccount source { a with amount := a.amount - amount }

/-- Destroys `amount` tokens of `source`, lowering the supply. -/
def burn (source mint : Address) (authority : Invoked) (amount : UInt64) : Exec Unit := do
  withdraw source mint authority amount
  match (← get).mints.get? mint with
  | none => fail (.runtime .invalidAccountData)
  | some m =>
    let supply ← subAmount m.supply amount
    modify fun s => { s with mints := s.mints.set mint { m with supply } }

/-- Moves `amount` tokens from `source` to `destination`, both of mint `mint`. -/
def transferTokens (source mint destination : Address) (authority : Invoked) (amount : UInt64) :
    Exec Unit := do
  let d ← tokenAccount destination
  if d.mint != mint then fail (.token .mintMismatch)
  withdraw source mint authority amount
  match (← get).tokenAccounts.get? destination with
  | none => pure ()
  | some d =>
    if d.amount.toNat + amount.toNat < UInt64.size then
      putTokenAccount destination { d with amount := d.amount + amount }
    else fail (.token .overflow)

/-- Creates `amount` tokens of `mint` in `destination`, on the mint authority's word. -/
def mintTo (mint destination authority : Address) (amount : UInt64) : Exec Unit := do
  match (← get).mints.get? mint with
  | none => fail (.runtime .invalidAccountData)
  | some m =>
    if m.authority != some authority then fail (.token .ownerMismatch)
    if m.supply.toNat + amount.toNat ≥ UInt64.size then fail (.token .overflow)
    modify fun s => { s with mints := s.mints.set mint { m with supply := m.supply + amount } }
    let a ← tokenAccount destination
    if a.mint != mint then fail (.token .mintMismatch)
    let total ← addAmount a.amount amount
    putTokenAccount destination { a with amount := total }

end TokenBridge
