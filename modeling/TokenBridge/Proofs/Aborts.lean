import Mathlib.Algebra.Order.BigOperators.Group.Finset
import TokenBridge.Proofs.Supply
import TokenBridge.Proofs.Lamports
import TokenBridge.Proofs.ReadBack
/-!
When the simulator stops.

An instruction stops the simulator, rather than failing with an error, in four places: a `u64`
sum out of range (a lamport credit, a token balance, a route's index), a `u64` difference below
zero (a mint's supply after a burn), a new account of `2 ^ 63` bytes or more, and a route key
for which no bump seed gives a program address. The ledger stops it as well on a transaction
with no signature to read, and on an instruction naming a position past the message's keys,
neither of which a transaction made with a payer has.

On a ledger whose amounts are in range (`State.Bounded`: every token account is backed by its
mint's supply, and all lamports together fit in a `u64`), which every committed transaction
keeps, the first two are out of reach except at a route's index: a credit is bounded by the
lamports of all accounts, and a burn or a mint by the supply. So a submission made with a payer
stops the simulator only at an instruction that `Halts`, after the ones before it went through
(`aborts_only_at_halts`): a bridge-out that passed all its checks on a route whose index is the
largest `u64`; a system call that creates an account of `2 ^ 63` bytes or more; or a create on a
route key with no program address. The second is within reach of any funded account, with no bridge
command at all (`abort_without_bridge_command`).
-/

namespace TokenBridge

open BridgeProgram

/-! ### Failing runs -/

section Errors

variable {α β : Type} {s : State} {e : Failure}

theorem bind_run_eq_error {x : Exec α} {f : α → Exec β} :
    (x >>= f).run s = .error e ↔
      x.run s = .error e ∨ ∃ a s', x.run s = .ok (a, s') ∧ (f a).run s' = .error e := by
  rw [StateT.run_bind]
  cases h : x.run s with
  | error e' => simp [bind, Except.bind]
  | ok p =>
    obtain ⟨a, s'⟩ := p
    simp [bind, Except.bind]

theorem fail_run_eq_error {e' : Failure} : (fail e' : Exec α).run s = .error e ↔ e' = e := by
  show Except.error e' = _ ↔ _
  simp

/-- A guard in `do` notation stops the simulator only through what follows it. -/
theorem ite_fail_bind_run_eq_abort {c : Prop} [Decidable c] {k : α → Exec β} {y : Exec β}
    (he : e ≠ .abort) :
    (if c then fail e >>= k else y).run s = .error .abort ↔ ¬ c ∧ y.run s = .error .abort := by
  by_cases hc : c
  · simp only [hc, if_true, not_true, false_and, iff_false]
    intro h
    rcases bind_run_eq_error.1 h with h | ⟨_, _, h, -⟩
    · exact he (fail_run_eq_error.1 h)
    · exact fail_run_ne_ok h
  · simp only [hc, if_false, not_false_eq_true, true_and]

theorem ite_run_eq_error {c : Prop} [Decidable c] {x y : Exec α} :
    (if c then x else y).run s = .error e ↔ c ∧ x.run s = .error e ∨ ¬ c ∧ y.run s = .error e := by
  by_cases hc : c <;> simp [hc]

end Errors

/-- `x` never stops the simulator, from any state. -/
def NeverAborts {α : Type} (x : Exec α) : Prop :=
  ∀ s, x.run s ≠ .error .abort

namespace NeverAborts

variable {α β : Type}

/-- The form in which `simp` takes a computation that never stops apart. -/
theorem run_eq_abort {x : Exec α} (hx : NeverAborts x) {s : State} :
    x.run s = .error .abort ↔ False :=
  iff_false_intro (hx s)

theorem pure' (a : α) : NeverAborts (pure a : Exec α) := fun s h => by
  rw [StateT.run_pure] at h
  cases h

theorem fail' {e : Failure} (he : e ≠ .abort) : NeverAborts (fail e : Exec α) := fun _ h =>
  he (fail_run_eq_error.1 h)

theorem get' : NeverAborts (get : Exec State) := fun s h => by
  rw [StateT.run_get] at h
  cases h

theorem set' (t : State) : NeverAborts (set t : Exec PUnit) := fun s h => by
  rw [StateT.run_set] at h
  cases h

theorem modify' (f : State → State) : NeverAborts (modify f : Exec PUnit) := fun s h => by
  rw [StateT.run_modify] at h
  cases h

theorem bind {x : Exec α} {f : α → Exec β} (hx : NeverAborts x) (hf : ∀ a, NeverAborts (f a)) :
    NeverAborts (x >>= f) := fun s h => by
  rcases bind_run_eq_error.1 h with h | ⟨a, s', -, h⟩
  · exact hx s h
  · exact hf a s' h

theorem ite' {c : Prop} [Decidable c] {x y : Exec α} (hx : NeverAborts x) (hy : NeverAborts y) :
    NeverAborts (if c then x else y) := by
  split
  · exact hx
  · exact hy

/-- A program's own refusal is never a stop. -/
theorem program' (e : ErrorCode) : NeverAborts (fail (.program e) : Exec α) := fail' nofun

theorem runtime' (e : RuntimeError) : NeverAborts (fail (.runtime e) : Exec α) := fail' nofun

theorem token' (e : TokenError) : NeverAborts (fail (.token e) : Exec α) := fail' nofun

theorem system' (e : SystemError) : NeverAborts (fail (.system e) : Exec α) := fail' nofun

theorem fail_bind' {e : Failure} (he : e ≠ .abort) (k : α → Exec β) :
    NeverAborts (fail e >>= k) := fun s h => by
  rcases bind_run_eq_error.1 h with h | ⟨_, _, h, -⟩
  · exact he (fail_run_eq_error.1 h)
  · exact fail_run_ne_ok h

end NeverAborts

/-! ### Operations that never stop the simulator -/

section Operations

open NeverAborts

-- As for `KeepsAccounts`, a guard `if c then fail e` puts the rest of the block after the failure
-- too, and `fail_bind'` disposes of that copy.

theorem nth_never (accounts : List Invoked) (i : Nat) : NeverAborts (nth accounts i) := by
  unfold nth
  split
  · exact pure' _
  · exact runtime' _

theorem requireSigner_never (a : Invoked) : NeverAborts (requireSigner a) :=
  ite' (pure' _) (runtime' _)

theorem requireKey_never (a : Invoked) (expected : Address) (code : ErrorCode) :
    NeverAborts (requireKey a expected code) :=
  ite' (pure' _) (program' _)

theorem ownedBy_never (program key : Address) : NeverAborts (ownedBy program key) := by
  refine get'.bind fun s => ?_
  split
  · exact ite' (pure' _) (runtime' _)
  · exact runtime' _

theorem readRecord_never {α : Type} (decode : Bytes → Except CodecError α) (key : Address) :
    NeverAborts (readRecord decode key) := by
  refine get'.bind fun s => ?_
  split
  · exact runtime' _
  · split
    · exact pure' _
    · exact runtime' _

theorem writeRecord_never (program key : Address) (bytes : Bytes) :
    NeverAborts (writeRecord program key bytes) := by
  refine get'.bind fun s => ?_
  split
  · exact ite' (set' _) (runtime' _)
  · exact runtime' _

theorem mintAt_never (key : Address) : NeverAborts (mintAt key) := by
  refine get'.bind fun s => ?_
  split
  · exact pure' _
  · exact program' _

theorem debit_never (source : Address) (n : UInt64) : NeverAborts (debit source n) := by
  refine get'.bind fun s => ?_
  split
  · exact runtime' _
  · exact ite' (set' _) (system' _)

theorem tokenAccount_never (key : Address) : NeverAborts (tokenAccount key) := by
  refine get'.bind fun s => ?_
  split
  · exact pure' _
  · exact runtime' _

theorem putTokenAccount_never (key : Address) (a : TokenAccount) :
    NeverAborts (putTokenAccount key a) :=
  modify' _

theorem authorize_never (a : TokenAccount) (authority : Invoked) (amount : UInt64) :
    NeverAborts (authorize a authority amount) := by
  unfold authorize
  refine (requireSigner_never authority).bind fun _ => ite' (pure' _) ?_
  split
  · exact ite' (fail_bind' (by decide) _) (ite' (pure' _) (token' _))
  · exact token' _

theorem withdraw_never (source mint : Address) (authority : Invoked) (amount : UInt64) :
    NeverAborts (withdraw source mint authority amount) := by
  unfold withdraw
  refine (tokenAccount_never source).bind fun a => ?_
  dsimp only
  exact ite' (fail_bind' (by decide) _) (ite' (fail_bind' (by decide) _)
    ((authorize_never a authority amount).bind fun _ => putTokenAccount_never source _))

theorem transferTokens_never (source mint destination : Address) (authority : Invoked)
    (amount : UInt64) : NeverAborts (transferTokens source mint destination authority amount) := by
  unfold transferTokens
  refine (tokenAccount_never destination).bind fun d => ?_
  dsimp only
  refine ite' (fail_bind' (by decide) _) ((withdraw_never source mint authority amount).bind fun _ =>
    get'.bind fun s => ?_)
  split
  · exact pure' _
  · exact ite' (putTokenAccount_never _ _) (token' _)

theorem processToken_never (accounts : List Invoked) (data : Bytes) :
    NeverAborts (processToken accounts data) := by
  unfold processToken
  dsimp only
  refine ite' (fail_bind' (by decide) _) ((nth_never _ _).bind fun _ => (nth_never _ _).bind fun _ =>
    (nth_never _ _).bind fun owner => (requireSigner_never owner).bind fun _ => get'.bind fun s => ?_)
  split
  · exact runtime' _
  · exact ite' (fail_bind' (by decide) _) (set' _)

theorem setUp_never (program : Address) (accounts : List Invoked) (fee : UInt64) :
    NeverAborts (setUp program accounts fee) := by
  unfold setUp
  dsimp only
  refine (nth_never _ _).bind fun _ => (nth_never _ _).bind fun _ => (nth_never _ _).bind fun _ =>
    (nth_never _ _).bind fun _ => (readRecord_never _ _).bind fun _ => ?_
  exact ite' (fail_bind' (by decide) _) ((writeRecord_never _ _ _).bind fun _ => pure' _)

theorem changeKey_never (program : Address) (accounts : List Invoked) (ofOwner : Bool) :
    NeverAborts (changeKey program accounts ofOwner) := by
  unfold changeKey
  dsimp only
  refine (nth_never _ _).bind fun _ => (nth_never _ _).bind fun _ => (nth_never _ _).bind fun _ =>
    (ownedBy_never _ _).bind fun _ => (readRecord_never _ _).bind fun _ =>
    (requireKey_never _ _ _).bind fun _ => ?_
  split <;> exact (writeRecord_never _ _ _).bind fun _ => pure' _

theorem changeFee_never (program : Address) (accounts : List Invoked) (fee : UInt64) :
    NeverAborts (changeFee program accounts fee) := by
  unfold changeFee
  dsimp only
  refine (nth_never _ _).bind fun _ => (nth_never _ _).bind fun _ => (ownedBy_never _ _).bind
    fun _ => (readRecord_never _ _).bind fun _ => (requireKey_never _ _ _).bind fun _ => ?_
  exact ite' ((nth_never _ _).bind fun _ => (writeRecord_never _ _ _).bind fun _ => pure' _)
    ((writeRecord_never _ _ _).bind fun _ => pure' _)

theorem changeLimit_never (program : Address) (accounts : List Invoked) (max min : UInt64) :
    NeverAborts (changeLimit program accounts max min) := by
  unfold changeLimit
  dsimp only
  refine ite' (fail_bind' (by decide) _) ((nth_never _ _).bind fun _ => (nth_never _ _).bind
    fun _ => (nth_never _ _).bind fun _ => (ownedBy_never _ _).bind fun _ =>
    (ownedBy_never _ _).bind fun _ => (readRecord_never _ _).bind fun _ =>
    (requireKey_never _ _ _).bind fun _ => (readRecord_never _ _).bind fun _ => ?_)
  exact ite' (fail_bind' (by decide) _) ((writeRecord_never _ _ _).bind fun _ => pure' _)

end Operations

/-! ### Amounts out of range -/

section Range

variable {s : State}

theorem addAmount_run_eq_abort {a b : UInt64} :
    (addAmount a b).run s = .error .abort ↔ UInt64.size ≤ a.toNat + b.toNat := by
  unfold addAmount
  by_cases h : a.toNat + b.toNat < UInt64.size
  · rw [if_pos h]
    exact iff_of_false (NeverAborts.pure' _ s) (by omega)
  · rw [if_neg h]
    exact iff_of_true (fail_run_eq_error.2 rfl) (by omega)

theorem subAmount_run_eq_abort {a b : UInt64} :
    (subAmount a b).run s = .error .abort ↔ a < b := by
  unfold subAmount
  by_cases h : b ≤ a
  · rw [if_pos h]
    exact iff_of_false (NeverAborts.pure' _ s) (by simpa using h)
  · rw [if_neg h]
    exact iff_of_true (fail_run_eq_error.2 rfl) (by simpa using h)

/-- A credit stops the simulator exactly when the receiver's balance would pass the largest
`u64`. -/
theorem credit_run_eq_abort {target : Address} {n : UInt64} :
    (credit target n).run s = .error .abort ↔ UInt64.size ≤ balance s target + n.toNat := by
  unfold credit
  rw [get_bind_run]
  dsimp only
  have hbal : balance s target =
      ((s.accounts.get? target).getD ⟨0, Address.systemProgram, []⟩).lamports.toNat := by
    cases h : s.accounts.get? target <;> simp [balance, h]
  rw [bind_run_eq_error, addAmount_run_eq_abort, hbal]
  constructor
  · rintro (h | ⟨_, _, -, h⟩)
    · exact h
    · exact absurd h (NeverAborts.set' _ _)
  · exact .inl

/-- An entry of a table is part of its total. -/
theorem Table.le_total {α : Type} {t : Table α} {k : Address} {a : α} (h : t.get? k = some a)
    (f : α → Nat) : f a ≤ t.total f := by
  have hk : k ∈ t.keys := Table.mem_keys.2 (by simp [h])
  have hle := Finset.single_le_sum (f := fun j => ((t.get? j).map f).getD 0)
    (fun _ _ => Nat.zero_le _) hk
  unfold Table.total
  simpa [h] using hle

theorem balance_le_lamportTotal (s : State) (k : Address) : balance s k ≤ s.lamportTotal := by
  cases ha : s.accounts.get? k with
  | none => simp [balance, ha]
  | some a =>
    have hle := Table.le_total ha (·.lamports.toNat)
    simpa [balance, ha, State.lamportTotal] using hle

/-- What a debit takes leaves the lamports of all accounts together. -/
theorem debit_lamportTotal {source : Address} {n : UInt64} {u : Unit} {s' : State}
    (h : (debit source n).run s = .ok (u, s')) : s'.lamportTotal + n.toNat = s.lamportTotal := by
  obtain ⟨a, ha, hle, rfl⟩ := debit_run_eq_ok.1 h
  have hset := Table.total_set ha { a with lamports := a.lamports - n } (·.lamports.toNat)
  have hsub : (a.lamports - n).toNat = a.lamports.toNat - n.toNat := UInt64.toNat_sub_of_le _ _ hle
  have hle : n.toNat ≤ a.lamports.toNat := UInt64.le_iff_toNat_le.1 hle
  dsimp only at hset
  unfold State.lamportTotal
  dsimp only
  omega

/-- A move of lamports never overflows while all lamports together fit in a `u64`: the receiver
holds part of what is left after the debit, and gets back only what the debit took. -/
theorem transferLamports_ne_abort {source target : Address} {n : UInt64}
    (hl : s.lamportTotal < UInt64.size) :
    (transferLamports source target n).run s ≠ .error .abort := by
  intro h
  rcases bind_run_eq_error.1 h with h | ⟨_, s₁, hd, hc⟩
  · exact debit_never _ _ s h
  · have hover := credit_run_eq_abort.1 hc
    have hdebit := debit_lamportTotal hd
    have hle := balance_le_lamportTotal s₁ target
    omega

/-- A token account holds no more than all the token accounts of its mint together. -/
theorem amount_le_heldOf {key : Address} {a : TokenAccount} (h : s.tokenAccounts.get? key = some a) :
    a.amount.toNat ≤ s.heldOf a.mint := by
  have hle := Table.le_total h (TokenAccount.holding a.mint)
  simpa [TokenAccount.holding, State.heldOf] using hle

end Range

/-! ### Tokens out of range -/

section Supplies

variable {s : State}

theorem supplyOf_eq {M : Address} {m : Mint} (h : s.mints.get? M = some m) :
    s.supplyOf M = m.supply.toNat := by
  simp [State.supplyOf, h]

/-- On a backed ledger a burn never takes the supply below zero: the supply covers what the
account held, which covers the amount. -/
theorem burn_ne_abort {source mint : Address} {authority : Invoked} {amount : UInt64}
    (hb : s.Backed) : (burn source mint authority amount).run s ≠ .error .abort := by
  intro h
  unfold burn at h
  rcases bind_run_eq_error.1 h with h | ⟨_, s₁, hw, h⟩
  · exact withdraw_never _ _ _ _ s h
  obtain ⟨a, after, ha, rfl, hle, -, -, rfl⟩ := withdraw_run_eq_ok.1 hw
  rw [get_bind_run] at h
  split at h
  · exact absurd (fail_run_eq_error.1 h) nofun
  rename_i m hm
  -- the withdrawal left the mints as they were
  have hm : s.mints.get? a.mint = some m := hm
  rcases bind_run_eq_error.1 h with h | ⟨_, _, -, h⟩
  · have hlt : m.supply.toNat < amount.toNat := UInt64.lt_iff_toNat_lt.1 (subAmount_run_eq_abort.1 h)
    have hheld := amount_le_heldOf ha
    have hsup := hb.1 a.mint (by simp [hm])
    rw [supplyOf_eq hm] at hsup
    have hle : amount.toNat ≤ a.amount.toNat := UInt64.le_iff_toNat_le.1 hle
    omega
  · exact NeverAborts.modify' _ _ h

/-- On a backed ledger a mint never takes a balance past the largest `u64`: the supply, which it
checks, covers the receiving account. -/
theorem mintTo_ne_abort {mint destination authority : Address} {amount : UInt64}
    (hb : s.Backed) : (mintTo mint destination authority amount).run s ≠ .error .abort := by
  intro h
  unfold mintTo at h
  rw [get_bind_run] at h
  split at h
  · exact absurd (fail_run_eq_error.1 h) nofun
  rename_i m hm
  simp only [ite_run_eq_error, bind_run_eq_error, fail_run_eq_error, reduceCtorEq, fail_run_ne_ok,
    false_and, exists_false, or_false, false_or, modify_run_eq_ok, tokenAccount_run_eq_ok,
    (NeverAborts.modify' _).run_eq_abort, (tokenAccount_never _).run_eq_abort, (putTokenAccount_never _ _).run_eq_abort,
    addAmount_run_eq_abort, and_false, bne_iff_ne, ne_eq, Decidable.not_not, exists_eq_left] at h
  obtain ⟨-, hsup, _, a, _, ⟨ha, -⟩, rfl, hover⟩ := h
  -- the account is counted in the supply, which has room for the amount
  have hheld := amount_le_heldOf (s := s) ha
  have hback := hb.1 a.mint (by simp [hm])
  rw [supplyOf_eq hm] at hback
  omega

/-- On a backed ledger a settlement never stops the simulator: it only reads, then mints or moves
tokens. -/
theorem settle_ne_abort {program : Address} {accounts : List Invoked} {amount : UInt64}
    (hb : s.Backed) : (settle program accounts amount).run s ≠ .error .abort := by
  intro h
  unfold settle at h
  simp only [bind_run_eq_error, (nth_never _ _).run_eq_abort, (ownedBy_never _ _).run_eq_abort,
    (readRecord_never _ _).run_eq_abort, (requireKey_never _ _ _).run_eq_abort, false_or,
    nth_run_eq_ok, ownedBy_run_eq_ok, readRecord_run_eq_ok, requireKey_run_eq_ok, ite_run_eq_error,
    fail_run_eq_error, reduceCtorEq, fail_run_ne_ok, false_and, exists_false, or_false,
    and_false, and_assoc, exists_and_left, exists_eq_left, exists_const] at h
  obtain ⟨_, -, _, -, _, -, _, -, _, -, _, -, _, -, -, _, -, -, _, -, -, -, -, h⟩ := h
  split at h
  · exact absurd (fail_run_eq_error.1 h) nofun
  -- past the checks, only minting can stop, and a backed ledger has room for it
  simp only [ite_run_eq_error, bind_run_eq_error, fail_run_eq_error, reduceCtorEq, fail_run_ne_ok,
    false_and, exists_false, or_false, false_or, and_false, (mintAt_never _).run_eq_abort,
    (transferTokens_never _ _ _ _ _).run_eq_abort, (NeverAborts.pure' _).run_eq_abort,
    mintAt_run_eq_ok, and_assoc, exists_and_left, exists_eq_left, iff_false_intro (mintTo_ne_abort hb)] at h

end Supplies

/-! ### Where each program stops -/

section Programs

variable {program : Address} {accounts : List Invoked} {s : State}

theorem any_lamports_pos_iff {target : Address} :
    (s.accounts.get? target).any (·.lamports > 0) = true ↔ balance s target ≠ 0 := by
  cases ha : s.accounts.get? target with
  | none => simp [balance, ha]
  | some a => simp [balance, ha, UInt64.lt_iff_toNat_lt, Nat.pos_iff_ne_zero]

/-- A new account stops the simulator exactly when everything before its size goes through (the
target holds no lamports, the funder can pay) and the size is `2 ^ 63` bytes or more. -/
theorem allocate_run_eq_abort {source target owner : Address} {lamports space : UInt64} :
    (allocate source target lamports space owner).run s = .error .abort ↔
      balance s target = 0 ∧ (∃ s₁, (debit source lamports).run s = .ok ((), s₁)) ∧
        Nat.pow 2 63 ≤ space.toNat := by
  unfold allocate
  rw [get_bind_run]
  simp only [ite_run_eq_error, bind_run_eq_error, fail_run_eq_error, reduceCtorEq, fail_run_ne_ok,
    false_and, exists_false, or_false, false_or, and_false, and_true,
    (debit_never _ _).run_eq_abort, (NeverAborts.modify' _).run_eq_abort, any_lamports_pos_iff,
    Decidable.not_not, ge_iff_le]
  constructor
  · rintro ⟨hfree, _, s₁, hd, hbig⟩
    exact ⟨hfree, ⟨s₁, hd⟩, hbig⟩
  · rintro ⟨hfree, ⟨s₁, hd⟩, hbig⟩
    exact ⟨hfree, (), s₁, hd, hbig⟩

/-- A system call creates an account of `space` bytes past every check before the size: it is a
creation funded by its first account, which signed, for its second, which holds no lamports, and
the funder can pay. -/
def CreationChecked (accounts : List Invoked) (data : Bytes) (s : State) (space : UInt64) : Prop :=
  ∃ (source : Invoked) (target owner : Address) (lamports : UInt64),
    (SystemCommand.decode? data = some (.createAccount lamports space owner) ∨
      ∃ base seed,
        SystemCommand.decode? data = some (.createAccountWithSeed base seed lamports space owner)) ∧
    accounts[0]? = some source ∧ source.signer = true ∧
    (accounts[1]?).map Invoked.key = some target ∧ balance s target = 0 ∧
    ∃ s₁, (debit source.key lamports).run s = .ok ((), s₁)

/-- A system call stops the simulator only as a creation of an account of `2 ^ 63` bytes or more
that passed its checks; a move of lamports cannot, while all lamports together fit in a `u64`. -/
theorem processSystem_run_eq_abort {data : Bytes} (hl : s.lamportTotal < UInt64.size)
    (h : (processSystem accounts data).run s = .error .abort) :
    ∃ space, CreationChecked accounts data s space ∧ Nat.pow 2 63 ≤ space.toNat := by
  unfold processSystem at h
  split at h
  · exact absurd (fail_run_eq_error.1 h) nofun
  · rename_i lamports space owner hcmd
    simp only [bind_run_eq_error, (nth_never _ _).run_eq_abort, nth_run_eq_ok,
      ite_fail_bind_run_eq_abort, ne_eq, reduceCtorEq, not_false_eq_true, allocate_run_eq_abort,
      false_or, Bool.or_eq_true, Bool.not_eq_true', not_or, Bool.not_eq_false, and_assoc,
      exists_and_left, exists_eq_left] at h
    obtain ⟨source, h0, target, h1, hsig, -, hfree, hdebit, hbig⟩ := h
    exact ⟨space, ⟨source, target.key, owner, lamports, .inl hcmd, h0, hsig, by simp [h1], hfree,
      hdebit⟩, hbig⟩
  · rename_i base seed lamports space owner hcmd
    simp only [bind_run_eq_error, (nth_never _ _).run_eq_abort, nth_run_eq_ok,
      ite_fail_bind_run_eq_abort, ne_eq, reduceCtorEq, not_false_eq_true, false_or,
      Bool.or_eq_true, Bool.not_eq_true', not_or, Bool.not_eq_false, and_assoc, exists_and_left,
      exists_eq_left] at h
    obtain ⟨source, h0, target, h1, hsig, -, h⟩ := h
    split at h
    · exact absurd (fail_run_eq_error.1 h) nofun
    rw [ite_fail_bind_run_eq_abort (by decide), allocate_run_eq_abort] at h
    obtain ⟨-, hfree, hdebit, hbig⟩ := h
    exact ⟨space, ⟨source, target.key, owner, lamports, .inr ⟨base, seed, hcmd⟩, h0, hsig,
      by simp [h1], hfree, hdebit⟩, hbig⟩
  · simp only [bind_run_eq_error, (nth_never _ _).run_eq_abort, nth_run_eq_ok,
      (requireSigner_never _).run_eq_abort, requireSigner_run_eq_ok, false_or, and_assoc,
      exists_and_left, exists_eq_left, iff_false_intro (transferLamports_ne_abort hl)] at h
    -- the search ends in `False` for a move of lamports
    exact absurd h (by simp)
  · exact absurd (fail_run_eq_error.1 h) nofun

/-- A create passes every check before the token authority's address, on the route key `rk` that
its first account names: its first seven accounts are there, its minimum is at most its maximum,
the owner of the config the seventh names signed, and the record at `rk` is a route not yet
initialized. -/
def CreateChecked (program : Address) (accounts : List Invoked) (max min : UInt64) (s : State)
    (rk : Address) : Prop :=
  min ≤ max ∧ 7 ≤ accounts.length ∧ (accounts[0]?).map Invoked.key = some rk ∧
    ∃ (ck : Address) (owner : Invoked) (c : Config) (existing : Route),
      accounts[5]? = some owner ∧ (accounts[6]?).map Invoked.key = some ck ∧
      configAt program s ck = some c ∧ owner.signer = true ∧ owner.key = c.owner ∧
      (∃ a, s.accounts.get? rk = some a ∧ Route.decode a.data = .ok existing) ∧
      existing.initialized = false

/-- A create stops the simulator only when it passed its checks and no bump seed gives the route
key a program address. -/
theorem create_run_eq_abort {destination : UInt32} {max min : UInt64}
    (h : (create program accounts destination max min).run s = .error .abort) :
    ∃ rk, CreateChecked program accounts max min s rk ∧
      Address.findProgramAddress [rk.bytes] program = none := by
  unfold create at h
  simp only [bind_run_eq_error, (nth_never _ _).run_eq_abort, (ownedBy_never _ _).run_eq_abort,
    (readRecord_never _ _).run_eq_abort, (requireKey_never _ _ _).run_eq_abort, false_or,
    nth_run_eq_ok, ownedBy_run_eq_ok, readRecord_run_eq_ok, requireKey_run_eq_ok, ite_run_eq_error,
    fail_run_eq_error, reduceCtorEq, fail_run_ne_ok, false_and, exists_false, or_false,
    and_false, and_assoc, exists_and_left, exists_eq_left, exists_const] at h
  obtain ⟨rk, h0, _, -, _, -, _, -, _, -, owner, h5, ck, h6, hle, c, hcd, hco, hsig, hkey, existing,
    hrd, hinit, h⟩ := h
  obtain ⟨hlen, -⟩ := List.getElem?_eq_some_iff.1 h6
  refine ⟨rk.key, ⟨by simpa using hle, by omega, by simp [h0], ck.key, owner, c, existing, h5,
    by simp [h6], recordAt_of_read hco hcd, hsig, hkey, hrd, by simpa using hinit⟩, ?_⟩
  split at h
  · rename_i hnone
    exact hnone
  -- past the program address every step is a check or a write
  open NeverAborts in
  refine absurd h (ite' (fail_bind' (by decide) _) (ite' (get'.bind fun _ => ?_)
    ((mintAt_never _).bind fun _ => ite' (fail_bind' (by decide) _) ?_)) s)
  · split
    · exact fail_bind' (by decide) _
    · exact ite' (fail_bind' (by decide) _) ((writeRecord_never _ _ _).bind fun _ => pure' _)
  · exact (writeRecord_never _ _ _).bind fun _ => pure' _

/-- A bridge-out passes every check and takes the fee and the tokens from `s`, on the route `route`
that its first account names: the accounts, records, limits and mint are those of a bridge-out
that goes through, the fee moved (`FeeMoved`), and the tokens were burnt or moved into the
escrow. -/
def BridgeOutChecked (program : Address) (accounts : List Invoked) (amount : UInt64) (s : State)
    (route : Route) : Prop :=
  ∃ (rk escrow user mint : Address) (authority : Invoked) (config : Config) (s₁ s₂ : State),
    (accounts[0]?).map Invoked.key = some rk ∧ (accounts[1]?).map Invoked.key = some escrow ∧
    (accounts[2]?).map Invoked.key = some user ∧ accounts[3]? = some authority ∧
    (accounts[4]?).map Invoked.key = some mint ∧
    (accounts[5]?).map Invoked.key = some route.tokenProgram ∧
    (accounts[6]?).map Invoked.key = some route.config ∧
    routeAt program s rk = some route ∧ configAt program s route.config = some config ∧
    route.mint = mint ∧ route.acceptsAmount amount = true ∧ (s.mints.get? mint).isSome ∧
    FeeMoved accounts config s s₁ ∧
    ((route.destination = 0 ∧ (burn user mint authority amount).run s₁ = .ok ((), s₂)) ∨
      (route.destination ≠ 0 ∧ user ≠ escrow ∧
        (transferTokens user mint escrow authority amount).run s₁ = .ok ((), s₂)))

/-- The end of a bridge-out stops the simulator only at the index, on a backed ledger: a burn
cannot take the supply below zero there, and moving tokens never stops. -/
theorem bridgeOut_finish_abort (routeKey escrow user mint : Address) (authority : Invoked)
    (route : Route) (recipient : String) (payload : Bytes) (amount fee : UInt64) (hb : s.Backed)
    (h : (do
      if route.destination == 0 then
        burn user mint authority amount
      else
        if user == escrow then fail (.program .invalidInput)
        transferTokens user mint escrow authority amount
      let index ← addAmount route.index 1
      writeRecord program routeKey { route with index }.encode
      let log : TransferLog :=
        ⟨route.mint, index, user, recipient, amount, fee, route.destination, payload⟩
      pure [logLine (LogLine.ofLog log)] : Exec (List String)).run s = .error .abort) :
    ∃ s₂, ((route.destination = 0 ∧ (burn user mint authority amount).run s = .ok ((), s₂)) ∨
        (route.destination ≠ 0 ∧ user ≠ escrow ∧
          (transferTokens user mint escrow authority amount).run s = .ok ((), s₂))) ∧
      route.index.toNat + 1 = UInt64.size := by
  dsimp only at h
  have hadvance : ∀ s₂, (do
      let index ← addAmount route.index 1
      writeRecord program routeKey { route with index }.encode
      pure [logLine (LogLine.ofLog
        ⟨route.mint, index, user, recipient, amount, fee, route.destination, payload⟩)] :
        Exec (List String)).run s₂ = .error .abort → route.index.toNat + 1 = UInt64.size := by
    intro s₂ h
    rcases bind_run_eq_error.1 h with h | ⟨_, _, -, h⟩
    · have hover := addAmount_run_eq_abort.1 h
      have hlt := route.index.toNat_lt_size
      simp only [UInt64.toNat_one] at hover
      omega
    · exact absurd h (((writeRecord_never _ _ _).bind fun _ => NeverAborts.pure' _) _)
  by_cases hd : route.destination = 0
  · rw [if_pos (by simpa using hd)] at h
    rcases bind_run_eq_error.1 h with h | ⟨_, s₂, hburn, h⟩
    · exact absurd h (burn_ne_abort hb)
    · exact ⟨s₂, .inl ⟨hd, hburn⟩, hadvance s₂ h⟩
  · rw [if_neg (by simpa using hd), ite_run_eq_error] at h
    rcases h with ⟨-, h⟩ | ⟨hne, h⟩
    · exact absurd h (NeverAborts.fail_bind' (by decide) _ _)
    rcases bind_run_eq_error.1 h with h | ⟨_, s₂, hmove, h⟩
    · exact absurd h (transferTokens_never _ _ _ _ _ _)
    · exact ⟨s₂, .inr ⟨hd, by simpa using hne, hmove⟩, hadvance s₂ h⟩

/-- On a ledger whose amounts are in range, a bridge-out stops the simulator only when it passed
every check and took the fee and the tokens, on a route whose index is the largest `u64`. -/
theorem bridgeOut_run_eq_abort {amount : UInt64} {recipient : String} {payload : Bytes}
    (hb : s.Backed) (hl : s.lamportTotal < UInt64.size)
    (h : (bridgeOut program accounts amount recipient payload).run s = .error .abort) :
    ∃ route, BridgeOutChecked program accounts amount s route ∧
      route.index.toNat + 1 = UInt64.size := by
  unfold bridgeOut at h
  simp only [bind_run_eq_error, (nth_never _ _).run_eq_abort, (ownedBy_never _ _).run_eq_abort,
    (readRecord_never _ _).run_eq_abort, (mintAt_never _).run_eq_abort, false_or, nth_run_eq_ok,
    readRecord_run_eq_ok, ownedBy_run_eq_ok, mintAt_run_eq_ok, ite_fail_bind_run_eq_abort, ne_eq,
    reduceCtorEq, not_false_eq_true, and_assoc, exists_and_left, exists_and_right, exists_eq_left,
    exists_const] at h
  obtain ⟨rk, h0, esc, h1, usr, h2, auth, h3, mint, h4, tp, h5, ck, h6, config, hcd, hco, hro, route,
    hrd, hcfg, htp, hamt, hmint, ⟨m, hm⟩, h⟩ := h
  have hcfg : route.config = ck.key := by simpa using hcfg
  have hmint : route.mint = mint.key := by simpa using hmint
  -- the fee moves first, when there is one, and cannot overflow; the rest runs from there
  obtain ⟨s₁, hfee, h⟩ : ∃ s₁, FeeMoved accounts config s s₁ ∧ _ := by
    by_cases hpos : 0 < config.fee
    · rw [if_pos hpos] at h
      simp only [bind_run_eq_error, (nth_never _ _).run_eq_abort, nth_run_eq_ok,
        ite_fail_bind_run_eq_abort, ne_eq, reduceCtorEq, not_false_eq_true,
        (requireSigner_never _).run_eq_abort, requireSigner_run_eq_ok,
        iff_false_intro (transferLamports_ne_abort hl), false_or, and_assoc, exists_and_left,
        exists_eq_left] at h
      obtain ⟨payer, h7, col, h8, hcol, hsig, _, _, s₁, hmove, h⟩ := h
      have hcol : col.key = config.feeCollector := by simpa using hcol
      exact ⟨s₁, .inr ⟨hpos, payer, h7, hsig, by simp [h8, hcol], hcol ▸ hmove⟩, h⟩
    · rw [if_neg hpos] at h
      exact ⟨s, .inl ⟨by simpa using hpos, rfl⟩, h⟩
  -- the fee moves lamports only, so the ledger stays backed for the tokens
  have hb₁ : s₁.Backed := hb.of_balanced (.of_tokens hfee.tokens.1 hfee.tokens.2)
  obtain ⟨s₂, htok, hidx⟩ := bridgeOut_finish_abort rk.key esc.key usr.key mint.key auth route
    recipient payload amount config.fee hb₁ h
  exact ⟨route, ⟨rk.key, esc.key, usr.key, mint.key, auth, config, s₁, s₂, by simp [h0],
    by simp [h1], by simp [h2], h3, by simp [h4], by simpa [h5] using htp, by simp [h6, hcfg],
    routeAt_of_read hro hrd, hcfg ▸ recordAt_of_read hco hcd, hmint, by simpa using hamt,
    by simp [← hmint, hm], hfee, htok⟩, hidx⟩

/-- A bridge command stops the simulator only as a bridge-out on a full route, or as a create on a
route key with no program address. -/
theorem process_run_eq_abort {data : Bytes} (hb : s.Backed) (hl : s.lamportTotal < UInt64.size)
    (h : (process program accounts data).run s = .error .abort) :
    (∃ amount recipient payload route,
      Command.unpack data = .ok (.bridge amount recipient payload) ∧
      BridgeOutChecked program accounts amount s route ∧ route.index.toNat + 1 = UInt64.size) ∨
    ∃ destination max min rk, Command.unpack data = .ok (.create destination max min) ∧
      CreateChecked program accounts max min s rk ∧
      Address.findProgramAddress [rk.bytes] program = none := by
  unfold process at h
  split at h
  · exact absurd (fail_run_eq_error.1 h) nofun
  · exact absurd h (setUp_never _ _ _ _)
  · exact absurd h (changeKey_never _ _ _ _)
  · exact absurd h (changeKey_never _ _ _ _)
  · exact absurd h (changeFee_never _ _ _ _)
  · exact absurd h (changeLimit_never _ _ _ _ _)
  · rename_i destination max min hcmd
    obtain ⟨rk, hchk, hnone⟩ := create_run_eq_abort h
    exact .inr ⟨destination, max, min, rk, hcmd, hchk, hnone⟩
  · rename_i amount recipient payload hcmd
    obtain ⟨route, hchk, hidx⟩ := bridgeOut_run_eq_abort hb hl h
    exact .inl ⟨amount, recipient, payload, route, hcmd, hchk, hidx⟩
  · exact absurd h (settle_ne_abort hb)

end Programs

/-! ### Submissions -/

namespace State

/-- The amounts of a ledger are in range: every token account is backed by its mint's supply, and
all lamports together fit in a `u64`. -/
structure Bounded (s : State) : Prop where
  backed : s.Backed
  lamports : s.lamportTotal < UInt64.size

end State

namespace Ledger

variable {l : Ledger} {m : Message} {s s' : State}

/-- A run of calls keeps the amounts in range: it conserves tokens and lamports. -/
theorem Trace.bounded {cs : List Call} (h : l.Trace s cs s') (hs : s.Bounded) : s'.Bounded :=
  ⟨hs.backed.of_balanced h.balanced, h.lamportTotal_eq ▸ hs.lamports⟩

/-- How an instruction of `program` on `accounts` with `data` stops the simulator from `s`, on a
ledger that runs the bridge program `l.program`. -/
inductive Halts (l : Ledger) (s : State) (program : Address) (accounts : List Invoked)
    (data : Bytes) : Prop where
  /-- A bridge-out that passed every check and took the fee and the tokens, on a route whose
  index is the largest `u64`. -/
  | indexFull {amount : UInt64} {recipient : String} {payload : Bytes} {route : Route} :
      program = l.program → Command.unpack data = .ok (.bridge amount recipient payload) →
      BridgeOutChecked l.program accounts amount s route → route.index.toNat + 1 = UInt64.size →
      Halts l s program accounts data
  /-- A create that passed its checks, on a route key that no bump seed gives a program
  address. -/
  | noProgramAddress {destination : UInt32} {max min : UInt64} {rk : Address} :
      program = l.program → Command.unpack data = .ok (.create destination max min) →
      CreateChecked l.program accounts max min s rk →
      Address.findProgramAddress [rk.bytes] l.program = none → Halts l s program accounts data
  /-- A system call that creates an account of `2 ^ 63` bytes or more, past its other checks. -/
  | tooLarge {space : UInt64} :
      program ≠ l.program → program = Address.systemProgram →
      CreationChecked accounts data s space → Nat.pow 2 63 ≤ space.toNat →
      Halts l s program accounts data

/-- On a ledger whose amounts are in range, an instruction stops the simulator only in one of the
ways of `Halts`; the token program never stops it. -/
theorem execute_run_eq_abort {program : Address} {accounts : List Invoked} {data : Bytes}
    (hs : s.Bounded) (h : (l.execute program accounts data).run s = .error .abort) :
    l.Halts s program accounts data := by
  unfold execute at h
  by_cases hp : program = l.program
  · rw [if_pos (by simpa using hp)] at h
    rcases process_run_eq_abort hs.backed hs.lamports h with
      ⟨_, _, _, _, hcmd, hchk, hidx⟩ | ⟨_, _, _, _, hcmd, hchk, hnone⟩
    · exact .indexFull hp hcmd hchk hidx
    · exact .noProgramAddress hp hcmd hchk hnone
  rw [if_neg (by simpa using hp)] at h
  by_cases hsys : program = Address.systemProgram
  · rw [if_pos (by simpa using hsys)] at h
    rcases bind_run_eq_error.1 h with h | ⟨_, _, -, h⟩
    · obtain ⟨space, hchk, hbig⟩ := processSystem_run_eq_abort hs.lamports h
      exact .tooLarge hp hsys hchk hbig
    · exact absurd h (NeverAborts.pure' _ _)
  rw [if_neg (by simpa using hsys)] at h
  split at h
  · rcases bind_run_eq_error.1 h with h | ⟨_, _, -, h⟩
    · exact absurd h (processToken_never _ _ _)
    · exact absurd h (NeverAborts.pure' _ _)
  · exact absurd (fail_run_eq_error.1 h) nofun

/-- A submission stops the simulator only when it carries no signature to read, or its run stops
at some instruction. -/
theorem sendAndConfirm_aborted {t : Transaction} (h : (l.sendAndConfirm t).1 = .aborted) :
    t.signatures = [] ∨ ∃ i, ({ l with submissions := l.submissions + 1 } : Ledger).runFrom t.message 0
      t.message.instructions l.state [] = .error (i, .abort) := by
  obtain ⟨-, ⟨_, hv⟩ | ⟨hnil, -⟩ | ⟨i, f, hrun, hv⟩⟩ :=
    sendAndConfirm_of_not_committed (Prod.ext h rfl) fun _ hc => by cases hc
  · cases hv
  · exact .inl hnil
  · obtain rfl := failureVerdict_eq_aborted.1 hv.symm
    exact .inr ⟨i, hrun⟩

/-- Where any submission stops the simulator: for want of a signature to read, or at one of its
instructions, after the ones before it ran, which names a position past the keys or halts. -/
theorem sendAndConfirm_aborted_at {t : Transaction} (hs : l.state.Bounded)
    (h : (l.sendAndConfirm t).1 = .aborted) :
    t.signatures = [] ∨ ∃ done ix rest s lines, t.message.instructions = done ++ ix :: rest ∧
      Runs l t.message done l.state s lines ∧
      (¬ InRange t.message ix ∨
        l.Halts s (programOf t.message ix) (accountsOf t.message ix) ix.data) := by
  refine (sendAndConfirm_aborted h).imp id fun ⟨i, hrun⟩ => ?_
  obtain ⟨done, ix, rest, s, lines, hsplit, -, hruns, hfail⟩ := runFrom_eq_error hrun
  -- the counted ledger runs the same programs
  have hruns := hruns.congr l rfl rfl
  refine ⟨done, ix, rest, s, lines, hsplit, hruns, ?_⟩
  rcases hfail with ⟨hin, -⟩ | hfail
  · exact .inl hin
  · have hfail : (l.execute (programOf t.message ix) (accountsOf t.message ix) ix.data).run s =
        .error .abort := hfail
    obtain ⟨htr, -⟩ := hruns.trace
    exact .inr (execute_run_eq_abort (htr.bounded hs) hfail)

/-- Where a submission stops the simulator. On a ledger whose amounts are in range, a transaction
made with a payer that stops the simulator stops it at one of its instructions, after the ones
before it ran, in one of the ways of `Halts`. -/
theorem aborts_only_at_halts (l : Ledger) (t : Transaction) (hs : l.state.Bounded)
    (ht : t.MadeWithPayer) (h : (l.sendAndConfirm t).1 = .aborted) :
    ∃ done ix rest s lines, t.message.instructions = done ++ ix :: rest ∧
      Runs l t.message done l.state s lines ∧
      l.Halts s (programOf t.message ix) (accountsOf t.message ix) ix.data := by
  rcases sendAndConfirm_aborted_at hs h with
    hnil | ⟨done, ix, rest, s, lines, hsplit, hruns, hin | hhalt⟩
  · exact absurd hnil ht.signatures_ne_nil
  · have hix : ix ∈ t.message.instructions := by
      rw [hsplit]
      exact List.mem_append_right _ List.mem_cons_self
    exact absurd (ht.inRange hix) hin
  · exact ⟨done, ix, rest, s, lines, hsplit, hruns, hhalt⟩

/-! ### An account too large -/

/-- The bridge program of the ledger below. -/
def hugeOwner : Address := Address.ofBytes (List.replicate 32 11)

/-- The key of the keypair with the seed of 32 bytes 1. -/
def hugeFunder : Address := Address.ofBytes [138, 136, 227, 221, 116, 9, 241, 149, 253, 82, 219,
  45, 60, 186, 93, 114, 202, 103, 9, 191, 29, 148, 18, 27, 243, 116, 136, 1, 180, 15, 111, 92]

/-- The address derived from `hugeFunder` with the seed "huge" for `hugeOwner`. -/
def hugeAccount : Address := Address.ofBytes [190, 126, 99, 230, 240, 213, 135, 10, 6, 201, 122,
  124, 108, 242, 133, 144, 97, 46, 45, 6, 175, 52, 242, 83, 38, 27, 240, 0, 166, 128, 65, 153]

/-- A ledger with one funded account and one blockhash handed out. -/
def hugeLedger : Ledger where
  program := hugeOwner
  state := { accounts := ({} : Table Account).set hugeFunder ⟨10000000000, Address.systemProgram, []⟩ }
  blockhashes := [Bytes.ofNatLE 32 1]

/-- The funder's signed request for an account of `2 ^ 63` bytes at `hugeAccount`, as a message
compiled with the funder as payer. -/
def hugeTransaction : Transaction where
  signatures := [[121, 251, 9, 38, 49, 68, 203, 165, 79, 182, 21, 49, 49, 62, 31, 227, 190, 14,
    245, 124, 45, 107, 174, 26, 139, 177, 134, 60, 77, 132, 124, 237, 69, 149, 14, 178, 85, 16,
    166, 47, 218, 16, 13, 90, 95, 152, 87, 193, 76, 220, 166, 26, 44, 49, 196, 138, 145, 121, 64,
    118, 158, 82, 167, 3]]
  message :=
    { header := ⟨1, 0, 1⟩
      keys := [hugeFunder, hugeAccount, Address.systemProgram]
      recentBlockhash := Bytes.ofNatLE 32 1
      instructions := [⟨2, [0, 1, 0], (SystemCommand.createAccountWithSeed hugeFunder "huge" 0
        (UInt64.ofNat (Nat.pow 2 63)) hugeOwner).encode⟩] }

theorem hugeLedger_bounded : hugeLedger.state.Bounded := by
  refine ⟨⟨fun M hM => ?_, fun A a ha => ?_⟩, by decide +kernel⟩
  · simp [hugeLedger, Table.get?] at hM
  · simp [hugeLedger, Table.get?] at ha

set_option maxRecDepth 100000 in
theorem hugeTransaction_aborts : (hugeLedger.sendAndConfirm hugeTransaction).1 = .aborted := by
  decide +kernel

/-- The funder's transaction is made with a payer: its message is the one compiled from the request
with the funder paying. -/
theorem hugeTransaction_madeWithPayer : hugeTransaction.MadeWithPayer :=
  ⟨⟨hugeFunder, [Builder.createAccountWithSeed hugeFunder hugeAccount hugeFunder "huge" 0
      (UInt64.ofNat (Nat.pow 2 63)) hugeOwner], Bytes.ofNatLE 32 1, by decide⟩, by decide⟩

theorem huge_account_halts :
    hugeLedger.state.Bounded ∧ hugeTransaction.MadeWithPayer ∧
      (hugeLedger.sendAndConfirm hugeTransaction).1 = .aborted ∧
      ∃ done ix rest s lines, hugeTransaction.message.instructions = done ++ ix :: rest ∧
        Runs hugeLedger hugeTransaction.message done hugeLedger.state s lines ∧
        hugeLedger.Halts s (programOf hugeTransaction.message ix)
          (accountsOf hugeTransaction.message ix) ix.data :=
  ⟨hugeLedger_bounded, hugeTransaction_madeWithPayer, hugeTransaction_aborts,
    aborts_only_at_halts hugeLedger hugeTransaction hugeLedger_bounded hugeTransaction_madeWithPayer
      hugeTransaction_aborts⟩

/-- A bridge command is not needed to stop the simulator: on a ledger whose amounts are in range,
one funded account stops it with a transaction made with a payer, a system call for an account of
`2 ^ 63` bytes. -/
theorem abort_without_bridge_command :
    ¬ ∀ (l : Ledger) (t : Transaction), l.state.Bounded → t.MadeWithPayer →
      (l.sendAndConfirm t).1 = .aborted →
      ∃ ix ∈ t.message.instructions, programOf t.message ix = l.program ∧
        ∃ amount recipient payload, Command.unpack ix.data = .ok (.bridge amount recipient payload) := by
  intro hall
  obtain ⟨ix, hix, hprog, -⟩ := hall hugeLedger hugeTransaction hugeLedger_bounded
    hugeTransaction_madeWithPayer hugeTransaction_aborts
  -- the one instruction is the system program's
  simp only [hugeTransaction, List.mem_singleton] at hix
  subst hix
  exact absurd hprog (by decide)

end Ledger

end TokenBridge
