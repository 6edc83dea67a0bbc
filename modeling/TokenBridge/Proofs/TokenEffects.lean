import Mathlib.Algebra.BigOperators.Group.Finset.Basic
import TokenBridge.Proofs.Effects
/-!
What the token operations do to the mints and the token accounts.

Each operation gets one lemma that says exactly in what state it leaves the ledger when it goes
through (`withdraw_run_eq_ok`, `burn_spec`, `transferTokens_spec`, `mintTo_spec`,
`processToken_spec`); a transfer and a mint go through exactly when their conditions hold
(`Burns`, `Transfers`, `MintsTo`, with `burn_run_eq_ok_iff`, `transferTokens_run_eq_ok_iff` and
`mintTo_run_eq_ok_iff`). Spending from an account is one relation, `Spend`, between the account and the
delegate it is left with: the owner spends freely, a delegate out of its allowance, which drops by
the amount and goes when nothing is left.

Two facts follow for every operation. It conserves tokens (`Conserves`): for each mint, the supply
less what the token accounts hold is the same after as before, since a burn lowers both, a mint
raises both, and a transfer moves tokens between two accounts of one mint. And it keeps the
layout (`SameLayout`): no mint or token account appears or goes, and no token account changes
its mint. What the token accounts hold is summed over the keys of the table, one entry each
(`Table.total`), so the sums mean the same whatever the order of the entries.
-/

namespace TokenBridge

namespace Table

variable {α : Type}

/-- The keys that have an entry. -/
def keys (t : Table α) : Finset Address := (t.entries.map Prod.fst).toFinset

theorem mem_keys {t : Table α} {k : Address} : k ∈ t.keys ↔ (t.get? k).isSome := by
  rw [keys, List.mem_toFinset, List.mem_map, get?, List.lookup_isSome_iff]
  exact exists_congr fun p => and_congr_right fun _ => by rw [beq_iff_eq, eq_comm]

theorem map_get?_set {β : Type} {t : Table α} {k : Address} {a : α} (ha : t.get? k = some a)
    {v : α} {f : α → β} (hv : f v = f a) (j : Address) :
    ((t.set k v).get? j).map f = (t.get? j).map f := by
  rw [get?_set]
  split
  · subst j
    simp [ha, hv]
  · rfl

theorem isSome_get?_set {t : Table α} {k : Address} (hk : (t.get? k).isSome) (v : α)
    (j : Address) : ((t.set k v).get? j).isSome = (t.get? j).isSome := by
  rw [get?_set]
  split
  · subst j
    simp [hk]
  · rfl

theorem keys_set_of_mem {t : Table α} {k : Address} (v : α) (h : k ∈ t.keys) :
    (t.set k v).keys = t.keys := by
  have hc : t.contains k = true := mem_keys.1 h
  simp only [set, hc, if_true, keys, List.map_map]
  congr 2
  funext e
  by_cases he : e.1 = k <;> simp [he]

/-- The sum of `f` over the entries, one for each key. -/
def total (t : Table α) (f : α → Nat) : Nat := ∑ k ∈ t.keys, ((t.get? k).map f).getD 0

/-- Replacing the entry of a key changes a total by the new entry less the old. -/
theorem total_set {t : Table α} {k : Address} {a : α} (h : t.get? k = some a) (v : α)
    (f : α → Nat) : (t.set k v).total f + f a = t.total f + f v := by
  have hk : k ∈ t.keys := mem_keys.2 (by simp [h])
  -- the other keys keep their entries, so the sums over them agree
  have hrest : ∑ j ∈ t.keys.erase k, (((t.set k v).get? j).map f).getD 0 =
      ∑ j ∈ t.keys.erase k, ((t.get? j).map f).getD 0 :=
    Finset.sum_congr rfl fun j hj => by rw [get?_set_of_ne _ _ (Finset.ne_of_mem_erase hj)]
  unfold total
  rw [keys_set_of_mem v hk, ← Finset.add_sum_erase _ _ hk, ← Finset.add_sum_erase t.keys _ hk,
    hrest, get?_set_self, h]
  simp only [Option.map_some, Option.getD_some]
  omega

end Table

/-! ### Running the token operations -/

section TokenRuns

variable {s s' : State}

theorem tokenAccount_run_eq_ok {key : Address} {a : TokenAccount} :
    (tokenAccount key).run s = .ok (a, s') ↔ s.tokenAccounts.get? key = some a ∧ s' = s := by
  simp only [tokenAccount, get_bind_run]
  split
  · rename_i b hb
    simpa [hb] using pure_run_eq_ok
  · rename_i hb
    simpa [hb] using fail_run_ne_ok

theorem putTokenAccount_run_eq_ok {key : Address} {a : TokenAccount} {u : Unit} :
    (putTokenAccount key a).run s = .ok (u, s') ↔
      s' = { s with tokenAccounts := s.tokenAccounts.set key a } :=
  modify_run_eq_ok

/-- `d` may spend `amount` from the token account `a`, which is then left with the delegate
`after`: as the owner, `d` leaves the delegate as it was; as the delegate, `d` spends out of an
allowance that covers the amount and drops by it, and the delegate goes when nothing is left. -/
def Spend (a : TokenAccount) (d : Address) (amount : UInt64) (after : Option (Address × UInt64)) :
    Prop :=
  (a.owner = d ∧ after = a.delegate) ∨
    (a.owner ≠ d ∧ ∃ y, a.delegate = some (d, y) ∧ amount ≤ y ∧
      after = if 0 < y - amount then some (d, y - amount) else none)

theorem authorize_run_eq_ok {a a' : TokenAccount} {authority : Invoked} {amount : UInt64} :
    (authorize a authority amount).run s = .ok (a', s') ↔
      authority.signer = true ∧ s' = s ∧
        ∃ after, Spend a authority.key amount after ∧ a' = { a with delegate := after } := by
  unfold authorize
  simp only [bind_run_eq_ok, requireSigner_run_eq_ok, and_assoc, exists_and_left, exists_eq_left,
    exists_const]
  by_cases ho : a.owner = authority.key
  · -- the owner spends freely
    rw [if_pos (by simpa using ho), pure_run_eq_ok]
    have hsp : ∀ after, Spend a authority.key amount after ↔ after = a.delegate := fun _ => by
      simp [Spend, ho]
    simp only [hsp, exists_eq_left]
    constructor
    · rintro ⟨hs, rfl, rfl⟩
      exact ⟨hs, rfl, rfl⟩
    · rintro ⟨hs, rfl, rfl⟩
      exact ⟨hs, rfl, rfl⟩
  rw [if_neg (by simpa using ho)]
  cases hd : a.delegate with
  | none => simp [fail_run_ne_ok, Spend, ho, hd]
  | some p =>
    obtain ⟨d, y⟩ := p
    dsimp only
    -- only the delegate itself may spend, and only within its allowance
    by_cases hdk : d = authority.key
    · subst hdk
      rw [if_neg (by simp)]
      by_cases hy : amount ≤ y
      · rw [if_pos hy, pure_run_eq_ok]
        simp only [Spend, ho, hd, false_and, false_or, ne_eq, not_false_eq_true, true_and,
          Option.some.injEq, Prod.mk.injEq, exists_eq_left', gt_iff_lt]
        constructor
        · rintro ⟨hs, rfl, rfl⟩
          exact ⟨hs, rfl, _, ⟨hy, rfl⟩, rfl⟩
        · rintro ⟨hs, rfl, _, ⟨-, rfl⟩, rfl⟩
          exact ⟨hs, rfl, rfl⟩
      · rw [if_neg hy]
        simp [fail_run_ne_ok, Spend, ho, hd, hy]
    · rw [if_pos (by simpa using hdk)]
      simp only [Spend, ho, hd, false_and, false_or, ne_eq, not_false_eq_true, Option.some.injEq,
        Prod.mk.injEq, hdk, and_false, exists_false, iff_false, not_and]
      exact fun _ => fail_bind_run_ne_ok

theorem withdraw_run_eq_ok {source mint : Address} {authority : Invoked} {amount : UInt64}
    {u : Unit} :
    (withdraw source mint authority amount).run s = .ok (u, s') ↔
      ∃ a after, s.tokenAccounts.get? source = some a ∧ a.mint = mint ∧ amount ≤ a.amount ∧
        authority.signer = true ∧ Spend a authority.key amount after ∧
        s' = { s with tokenAccounts :=
          s.tokenAccounts.set source { a with amount := a.amount - amount, delegate := after } } := by
  unfold withdraw
  simp only [bind_run_eq_ok, tokenAccount_run_eq_ok, ite_fail_bind_run_eq_ok,
    authorize_run_eq_ok, putTokenAccount_run_eq_ok, bne_iff_ne, ne_eq, Decidable.not_not,
    UInt64.not_lt]
  constructor
  · rintro ⟨a, _, ⟨ha, rfl⟩, hm, hle, _, _, ⟨hs, rfl, after, hsp, rfl⟩, rfl⟩
    exact ⟨a, after, ha, hm, hle, hs, hsp, rfl⟩
  · rintro ⟨a, after, ha, hm, hle, hs, hsp, rfl⟩
    exact ⟨a, s, ⟨ha, rfl⟩, hm, hle, _, s, ⟨hs, rfl, after, hsp, rfl⟩, rfl⟩

/-- A burn of `amount` of `mint` from `source`, on the word of `authority`, goes through from `s`
to `s'`: the source holds enough of the mint and the authority may spend it, and the mint's supply
covers the amount. -/
def Burns (s : State) (source mint : Address) (authority : Invoked) (amount : UInt64) (s' : State) :
    Prop :=
  ∃ a after m, s.tokenAccounts.get? source = some a ∧ a.mint = mint ∧ amount ≤ a.amount ∧
    authority.signer = true ∧ Spend a authority.key amount after ∧
    s.mints.get? mint = some m ∧ amount ≤ m.supply ∧
    s' = { s with
      tokenAccounts :=
        s.tokenAccounts.set source { a with amount := a.amount - amount, delegate := after },
      mints := s.mints.set mint { m with supply := m.supply - amount } }

theorem burn_spec {source mint : Address} {authority : Invoked} {amount : UInt64} {u : Unit}
    (h : (burn source mint authority amount).run s = .ok (u, s')) :
    Burns s source mint authority amount s' := by
  unfold burn at h
  simp only [bind_run_eq_ok, withdraw_run_eq_ok, get_run_eq_ok] at h
  obtain ⟨_, s₁, ⟨a, after, ha, hm, hle, hs, hsp, rfl⟩, _, _, ⟨rfl, rfl⟩, h⟩ := h
  split at h
  · exact absurd h fail_run_ne_ok
  · rename_i m hmint
    simp only [bind_run_eq_ok, subAmount_run_eq_ok, modify_run_eq_ok] at h
    obtain ⟨_, _, ⟨hsup, rfl, rfl⟩, rfl⟩ := h
    exact ⟨a, after, m, ha, hm, hle, hs, hsp, hmint, hsup, rfl⟩

theorem burn_run_eq_ok_iff {source mint : Address} {authority : Invoked} {amount : UInt64}
    {u : Unit} :
    (burn source mint authority amount).run s = .ok (u, s') ↔
      Burns s source mint authority amount s' := by
  refine ⟨burn_spec, ?_⟩
  rintro ⟨a, after, m, ha, hm, hle, hs, hsp, hmint, hsup, rfl⟩
  unfold burn
  simp only [bind_run_eq_ok, withdraw_run_eq_ok, get_run_eq_ok]
  refine ⟨(), _, ⟨a, after, ha, hm, hle, hs, hsp, rfl⟩, _, _, ⟨rfl, rfl⟩, ?_⟩
  -- the withdrawal leaves the mints as they were
  simp only [hmint, bind_run_eq_ok, subAmount_run_eq_ok, modify_run_eq_ok]
  exact ⟨_, _, ⟨hsup, rfl, rfl⟩, rfl⟩

/-- A transfer of `amount` from `source` to `destination`, both of `mint`, on the word of
`authority`, goes through from `s` to `s'`: the source holds enough and the authority may spend it,
and the destination, read after the source is paid from, has room for the amount. -/
def Transfers (s : State) (source mint destination : Address) (authority : Invoked)
    (amount : UInt64) (s' : State) : Prop :=
  ∃ a after d, s.tokenAccounts.get? source = some a ∧ a.mint = mint ∧ amount ≤ a.amount ∧
    authority.signer = true ∧ Spend a authority.key amount after ∧
    s.tokenAccounts.get? destination = some d ∧ d.mint = mint ∧
    let paid := s.tokenAccounts.set source { a with amount := a.amount - amount, delegate := after }
    ∃ d', paid.get? destination = some d' ∧ d'.amount.toNat + amount.toNat < UInt64.size ∧
      s' = { s with tokenAccounts := paid.set destination { d' with amount := d'.amount + amount } }

theorem transferTokens_spec {source mint destination : Address} {authority : Invoked}
    {amount : UInt64} {u : Unit}
    (h : (transferTokens source mint destination authority amount).run s = .ok (u, s')) :
    Transfers s source mint destination authority amount s' := by
  unfold transferTokens at h
  simp only [bind_run_eq_ok, tokenAccount_run_eq_ok, ite_fail_bind_run_eq_ok, withdraw_run_eq_ok,
    get_run_eq_ok, bne_iff_ne, ne_eq, Decidable.not_not] at h
  obtain ⟨d, _, ⟨hd, rfl⟩, hdm, _, s₁, ⟨a, after, ha, hm, hle, hs, hsp, rfl⟩, _, _, ⟨rfl, rfl⟩, h⟩ := h
  split at h
  · -- only the source was written, so the destination is still there
    rename_i hnone
    rw [Table.get?_set] at hnone
    split at hnone <;> simp_all
  · rename_i d' hd'
    split at h
    · rename_i hfit
      exact ⟨a, after, d, ha, hm, hle, hs, hsp, hd, hdm, d', hd', hfit, putTokenAccount_run_eq_ok.1 h⟩
    · exact absurd h fail_run_ne_ok

theorem transferTokens_run_eq_ok_iff {source mint destination : Address} {authority : Invoked}
    {amount : UInt64} {u : Unit} :
    (transferTokens source mint destination authority amount).run s = .ok (u, s') ↔
      Transfers s source mint destination authority amount s' := by
  refine ⟨transferTokens_spec, ?_⟩
  rintro ⟨a, after, d, ha, hm, hle, hs, hsp, hd, hdm, d', hd', hfit, rfl⟩
  unfold transferTokens
  simp only [bind_run_eq_ok, tokenAccount_run_eq_ok, ite_fail_bind_run_eq_ok, withdraw_run_eq_ok,
    get_run_eq_ok, bne_iff_ne, ne_eq, Decidable.not_not]
  refine ⟨d, s, ⟨hd, rfl⟩, hdm, (), _, ⟨a, after, ha, hm, hle, hs, hsp, rfl⟩, _, _, ⟨rfl, rfl⟩, ?_⟩
  simp only [hd', hfit, if_true]
  exact putTokenAccount_run_eq_ok.2 rfl

/-- A mint of `amount` of `mint` to `destination` under `authority` goes through from `s` to `s'`:
the authority is the mint's, and both the supply and the destination have room for the amount. -/
def MintsTo (s : State) (mint destination authority : Address) (amount : UInt64) (s' : State) :
    Prop :=
  ∃ m a, s.mints.get? mint = some m ∧ m.authority = some authority ∧
    m.supply.toNat + amount.toNat < UInt64.size ∧ s.tokenAccounts.get? destination = some a ∧
    a.mint = mint ∧ a.amount.toNat + amount.toNat < UInt64.size ∧
    s' = { s with mints := s.mints.set mint { m with supply := m.supply + amount },
                  tokenAccounts := s.tokenAccounts.set destination { a with amount := a.amount + amount } }

theorem mintTo_spec {mint destination authority : Address} {amount : UInt64} {u : Unit}
    (h : (mintTo mint destination authority amount).run s = .ok (u, s')) :
    MintsTo s mint destination authority amount s' := by
  unfold mintTo at h
  rw [get_bind_run] at h
  split at h
  · exact absurd h fail_run_ne_ok
  rename_i m hm
  simp only [ite_fail_bind_run_eq_ok, bind_run_eq_ok, modify_run_eq_ok, tokenAccount_run_eq_ok,
    addAmount_run_eq_ok, putTokenAccount_run_eq_ok, bne_iff_ne, ne_eq, Decidable.not_not,
    Nat.not_le] at h
  obtain ⟨hauth, hsup, _, _, rfl, a, _, ⟨ha, rfl⟩, ham, _, _, ⟨hfit, rfl, rfl⟩, rfl⟩ := h
  exact ⟨m, a, hm, hauth, hsup, ha, ham, hfit, rfl⟩

theorem mintTo_run_eq_ok_iff {mint destination authority : Address} {amount : UInt64} {u : Unit} :
    (mintTo mint destination authority amount).run s = .ok (u, s') ↔
      MintsTo s mint destination authority amount s' := by
  refine ⟨mintTo_spec, ?_⟩
  rintro ⟨m, a, hm, hauth, hsup, ha, ham, hfit, rfl⟩
  unfold mintTo
  rw [get_bind_run, hm]
  simp only [ite_fail_bind_run_eq_ok, bind_run_eq_ok, modify_run_eq_ok, tokenAccount_run_eq_ok,
    addAmount_run_eq_ok, putTokenAccount_run_eq_ok, bne_iff_ne, ne_eq, Decidable.not_not,
    Nat.not_le]
  exact ⟨hauth, hsup, (), _, rfl, a, _, ⟨ha, rfl⟩, ham, _, _, ⟨hfit, rfl, rfl⟩, rfl⟩

theorem processToken_spec {accounts : List Invoked} {data : Bytes} {u : Unit}
    (h : (processToken accounts data).run s = .ok (u, s')) :
    data.length = 9 ∧ data.head? = some approveTag ∧
      ∃ source delegate owner a, accounts[0]? = some source ∧ accounts[1]? = some delegate ∧
        accounts[2]? = some owner ∧ owner.signer = true ∧
        s.tokenAccounts.get? source.key = some a ∧ a.owner = owner.key ∧
        s' = { s with
          tokenAccounts := s.tokenAccounts.set source.key
            { a with delegate := some (delegate.key, (Bytes.toNatLE (data.drop 1)).toUInt64) } } := by
  unfold processToken at h
  simp only [ite_fail_bind_run_eq_ok, bind_run_eq_ok, nth_run_eq_ok, requireSigner_run_eq_ok,
    get_run_eq_ok, Bool.or_eq_true, bne_iff_ne, ne_eq, not_or, Decidable.not_not] at h
  obtain ⟨⟨hlen, htag⟩, source, _, ⟨h0, rfl⟩, delegate, _, ⟨h1, rfl⟩, owner, _, ⟨h2, rfl⟩, _, _,
    ⟨hs, rfl⟩, _, _, ⟨rfl, rfl⟩, h⟩ := h
  split at h
  · exact absurd h fail_run_ne_ok
  · rename_i a ha
    obtain ⟨ho, h⟩ := ite_fail_bind_run_eq_ok.1 h
    exact ⟨hlen, htag, source, delegate, owner, a, h0, h1, h2, hs, ha, by simpa using ho,
      set_run_eq_ok.1 h⟩

end TokenRuns

/-! ### Supplies and holdings -/

/-- What a token account holds of mint `M`: its balance when it is of that mint, else nothing. -/
def TokenAccount.holding (M : Address) (a : TokenAccount) : Nat :=
  if a.mint = M then a.amount.toNat else 0

/-- Replacing a token account by one of the same mint changes the total held of that mint by the
difference of their balances. -/
theorem Table.total_holding_set {t : Table TokenAccount} {k mint : Address} {a b : TokenAccount}
    (ha : t.get? k = some a) (hma : a.mint = mint) (hmb : b.mint = mint) (M : Address) :
    (t.set k b).total (TokenAccount.holding M) + (if mint = M then a.amount.toNat else 0) =
      t.total (TokenAccount.holding M) + (if mint = M then b.amount.toNat else 0) := by
  simpa only [TokenAccount.holding, hma, hmb] using Table.total_set ha b (TokenAccount.holding M)

namespace State

/-- The supply of mint `M`, 0 where there is no mint. -/
def supplyOf (s : State) (M : Address) : Nat := ((s.mints.get? M).map (·.supply.toNat)).getD 0

/-- The tokens of mint `M` over all token accounts. -/
def heldOf (s : State) (M : Address) : Nat := s.tokenAccounts.total (TokenAccount.holding M)

end State

/-- Token accounts and supplies that agree on every mint: for each mint, the supply less what the
token accounts hold is the same in `s'` as in `s`. -/
def Conserves (s s' : State) : Prop :=
  ∀ M, (s'.supplyOf M : Int) - s'.heldOf M = (s.supplyOf M : Int) - s.heldOf M

section Conservation

variable {s s' : State} {u : Unit}

theorem Conserves.of_tokens (hm : s'.mints = s.mints) (ht : s'.tokenAccounts = s.tokenAccounts) :
    Conserves s s' := by
  intro M
  simp only [State.supplyOf, State.heldOf, hm, ht]

theorem Conserves.trans {s'' : State} (h₁ : Conserves s s') (h₂ : Conserves s' s'') :
    Conserves s s'' :=
  fun M => (h₂ M).trans (h₁ M)

theorem burn_conserves {source mint : Address} {authority : Invoked} {amount : UInt64}
    (h : (burn source mint authority amount).run s = .ok (u, s')) : Conserves s s' := by
  obtain ⟨a, after, m, ha, hm, hle, -, -, hmint, hsup, rfl⟩ := burn_spec h
  intro M
  have hheld := Table.total_holding_set ha
    (b := { a with amount := a.amount - amount, delegate := after }) hm hm M
  have hle' := UInt64.le_iff_toNat_le.1 hle
  have hsup' := UInt64.le_iff_toNat_le.1 hsup
  simp only [State.supplyOf, State.heldOf, Table.get?_set]
  -- the burnt amount leaves the account's balance and the supply of its mint alike
  by_cases hM : M = mint
  · subst hM
    simp only [if_true, hmint, Option.map_some, Option.getD_some,
      UInt64.toNat_sub_of_le _ _ hle, UInt64.toNat_sub_of_le _ _ hsup] at hheld ⊢
    omega
  · simp only [hM, Ne.symm hM, if_false] at hheld ⊢
    omega

theorem transferTokens_conserves {source mint destination : Address} {authority : Invoked}
    {amount : UInt64} (h : (transferTokens source mint destination authority amount).run s = .ok (u, s')) :
    Conserves s s' := by
  obtain ⟨a, after, d, ha, hm, hle, -, -, hd, hdm, d', hd', hfit, rfl⟩ := transferTokens_spec h
  -- the destination as the withdrawal left it is of the same mint
  have hdm' : d'.mint = mint := by
    rw [Table.get?_set] at hd'
    split at hd'
    · cases hd'
      exact hm
    · rw [hd] at hd'
      cases hd'
      exact hdm
  intro M
  have hout := Table.total_holding_set ha
    (b := { a with amount := a.amount - amount, delegate := after }) hm hm M
  have hin := Table.total_holding_set hd' (b := { d' with amount := d'.amount + amount }) hdm' hdm' M
  have hle' := UInt64.le_iff_toNat_le.1 hle
  have hadd : (d'.amount + amount).toNat = d'.amount.toNat + amount.toNat := by
    rw [UInt64.toNat_add]
    exact Nat.mod_eq_of_lt hfit
  simp only [State.supplyOf, State.heldOf]
  -- what leaves the source enters the destination, both of the one mint
  by_cases hM : mint = M
  · simp only [hM, if_true, UInt64.toNat_sub_of_le _ _ hle, hadd] at hout hin
    omega
  · simp only [hM, if_false] at hout hin
    omega

theorem mintTo_conserves {mint destination authority : Address} {amount : UInt64}
    (h : (mintTo mint destination authority amount).run s = .ok (u, s')) : Conserves s s' := by
  obtain ⟨m, a, hmint, -, hsup, ha, ham, hfit, rfl⟩ := mintTo_spec h
  intro M
  have hin := Table.total_holding_set ha (b := { a with amount := a.amount + amount }) ham ham M
  have hadd : (a.amount + amount).toNat = a.amount.toNat + amount.toNat := by
    rw [UInt64.toNat_add]
    exact Nat.mod_eq_of_lt hfit
  have hadd' : (m.supply + amount).toNat = m.supply.toNat + amount.toNat := by
    rw [UInt64.toNat_add]
    exact Nat.mod_eq_of_lt hsup
  simp only [State.supplyOf, State.heldOf, Table.get?_set]
  -- the new tokens raise the supply and the destination's balance alike
  by_cases hM : M = mint
  · subst hM
    simp only [if_true, hmint, Option.map_some, Option.getD_some, hadd, hadd'] at hin ⊢
    omega
  · simp only [hM, Ne.symm hM, if_false] at hin ⊢
    omega

theorem processToken_conserves {accounts : List Invoked} {data : Bytes}
    (h : (processToken accounts data).run s = .ok (u, s')) : Conserves s s' := by
  obtain ⟨-, -, source, delegate, -, a, -, -, -, -, ha, -, rfl⟩ := processToken_spec h
  intro M
  -- an approval leaves every balance
  have hsame := Table.total_holding_set ha
    (b := { a with delegate := some (delegate.key, (Bytes.toNatLE (data.drop 1)).toUInt64) }) rfl rfl M
  dsimp only at hsame
  simp only [State.supplyOf, State.heldOf]
  omega

end Conservation

/-! ### Mints and token accounts stay -/

/-- `s'` has the mints and the token accounts of `s`, each token account of the mint it had. -/
def SameLayout (s s' : State) : Prop :=
  (∀ M, (s'.mints.get? M).isSome = (s.mints.get? M).isSome) ∧
    ∀ A, (s'.tokenAccounts.get? A).map (·.mint) = (s.tokenAccounts.get? A).map (·.mint)

namespace SameLayout

variable {s s' s'' : State}

theorem refl (s : State) : SameLayout s s := ⟨fun _ => rfl, fun _ => rfl⟩

theorem trans (h₁ : SameLayout s s') (h₂ : SameLayout s' s'') : SameLayout s s'' :=
  ⟨fun M => (h₂.1 M).trans (h₁.1 M), fun A => (h₂.2 A).trans (h₁.2 A)⟩

theorem of_tokens (hm : s'.mints = s.mints) (ht : s'.tokenAccounts = s.tokenAccounts) :
    SameLayout s s' :=
  ⟨fun M => by rw [hm], fun A => by rw [ht]⟩

end SameLayout

section Layout

variable {s s' : State} {u : Unit}

theorem burn_layout {source mint : Address} {authority : Invoked} {amount : UInt64}
    (h : (burn source mint authority amount).run s = .ok (u, s')) : SameLayout s s' := by
  obtain ⟨a, after, m, ha, -, -, -, -, hmint, -, rfl⟩ := burn_spec h
  exact ⟨Table.isSome_get?_set (by simp [hmint]) _, Table.map_get?_set ha rfl⟩

theorem transferTokens_layout {source mint destination : Address} {authority : Invoked}
    {amount : UInt64} (h : (transferTokens source mint destination authority amount).run s = .ok (u, s')) :
    SameLayout s s' := by
  obtain ⟨a, after, -, ha, -, -, -, -, -, -, d', hd', -, rfl⟩ := transferTokens_spec h
  exact ⟨fun _ => rfl, fun A => (Table.map_get?_set hd' (v := { d' with amount := d'.amount + amount })
    rfl A).trans
      (Table.map_get?_set ha (v := { a with amount := a.amount - amount, delegate := after }) rfl A)⟩

theorem mintTo_layout {mint destination authority : Address} {amount : UInt64}
    (h : (mintTo mint destination authority amount).run s = .ok (u, s')) : SameLayout s s' := by
  obtain ⟨m, a, hmint, -, -, ha, -, -, rfl⟩ := mintTo_spec h
  exact ⟨Table.isSome_get?_set (by simp [hmint]) _, Table.map_get?_set ha rfl⟩

theorem processToken_layout {accounts : List Invoked} {data : Bytes}
    (h : (processToken accounts data).run s = .ok (u, s')) : SameLayout s s' := by
  obtain ⟨-, -, _, _, _, a, -, -, -, -, ha, -, rfl⟩ := processToken_spec h
  exact ⟨fun _ => rfl, Table.map_get?_set ha rfl⟩

end Layout

end TokenBridge
