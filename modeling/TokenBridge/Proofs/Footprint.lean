import TokenBridge.Proofs.HandlerEffects
/-!
What a command changes of the state, and what it reads of its accounts.

Every handler names its accounts by position. It changes the state only at the keys of a few of
them (`setUp_changed`, ..., `processSystem_changed`): at every other key the account, the mint and
the token account are as they were (`State.ChangedWithin`). It reads the signer flag at a few
positions only, so that setting the flags elsewhere to anything changes nothing (`relabel`,
`setUp_relabel`, ..., `processToken_relabel`). And it reads no account past a fixed position, so
that accounts added at the end change nothing (`setUp_append`, ...), with one exception: a
bridge-out reads a fee payer and a fee collector after its seven accounts, but only under a config
that asks for a fee (`bridgeOut_append_run`).
-/

namespace TokenBridge

open BridgeProgram

/-! ### Where a state changed -/

namespace State

/-- `s'` is as `s` at the key `k`: the account, the mint and the token account there. -/
def SameAt (s s' : State) (k : Address) : Prop :=
  s'.accounts.get? k = s.accounts.get? k ∧ s'.mints.get? k = s.mints.get? k ∧
    s'.tokenAccounts.get? k = s.tokenAccounts.get? k

/-- `s'` is as `s` at every key outside `ks`. -/
def ChangedWithin (s s' : State) (ks : List Address) : Prop :=
  ∀ k, k ∉ ks → s.SameAt s' k

namespace ChangedWithin

variable {s s' s'' : State} {ks ks' : List Address}

theorem refl (s : State) (ks : List Address) : s.ChangedWithin s ks :=
  fun _ _ => ⟨rfl, rfl, rfl⟩

theorem mono (h : s.ChangedWithin s' ks) (hsub : ks ⊆ ks') : s.ChangedWithin s' ks' :=
  fun k hk => h k fun hmem => hk (hsub hmem)

theorem trans (h₁ : s.ChangedWithin s' ks) (h₂ : s'.ChangedWithin s'' ks) :
    s.ChangedWithin s'' ks := fun k hk => by
  obtain ⟨ha₁, hm₁, ht₁⟩ := h₁ k hk
  obtain ⟨ha₂, hm₂, ht₂⟩ := h₂ k hk
  exact ⟨ha₂.trans ha₁, hm₂.trans hm₁, ht₂.trans ht₁⟩

theorem set_accounts (s : State) (k : Address) (a : Account) :
    s.ChangedWithin { s with accounts := s.accounts.set k a } [k] := fun j hj =>
  ⟨Table.get?_set_of_ne _ _ (by simpa using hj), rfl, rfl⟩

theorem set_tokenAccounts (s : State) (k : Address) (a : TokenAccount) :
    s.ChangedWithin { s with tokenAccounts := s.tokenAccounts.set k a } [k] := fun j hj =>
  ⟨rfl, rfl, Table.get?_set_of_ne _ _ (by simpa using hj)⟩

theorem set_mints (s : State) (k : Address) (m : Mint) :
    s.ChangedWithin { s with mints := s.mints.set k m } [k] := fun j hj =>
  ⟨rfl, Table.get?_set_of_ne _ _ (by simpa using hj), rfl⟩

end ChangedWithin

end State

/-- The keys of the accounts at the positions `ps`, where there are accounts. -/
def keysAt (accounts : List Invoked) (ps : List Nat) : List Address :=
  ps.filterMap fun i => (accounts[i]?).map Invoked.key

section KeysAt

variable {accounts : List Invoked} {ps : List Nat} {i : Nat} {k : Address}

theorem mem_keysAt : k ∈ keysAt accounts ps ↔ ∃ i ∈ ps, (accounts[i]?).map Invoked.key = some k := by
  simp [keysAt]

theorem mem_keysAt_of (h : (accounts[i]?).map Invoked.key = some k) (hi : i ∈ ps) :
    k ∈ keysAt accounts ps :=
  mem_keysAt.2 ⟨i, hi, h⟩

theorem singleton_subset_keysAt (h : (accounts[i]?).map Invoked.key = some k) (hi : i ∈ ps) :
    [k] ⊆ keysAt accounts ps :=
  List.cons_subset.2 ⟨mem_keysAt_of h hi, List.nil_subset _⟩

theorem keysAt_mono {qs : List Nat} (h : ps ⊆ qs) : keysAt accounts ps ⊆ keysAt accounts qs :=
  fun _ hk => by
    obtain ⟨i, hi, hk⟩ := mem_keysAt.1 hk
    exact mem_keysAt_of hk (h hi)

end KeysAt

/-! ### What each operation changes -/

section Operations

variable {s s' : State} {u : Unit}

theorem writeRecord_changed {program key : Address} {bytes : Bytes}
    (h : (writeRecord program key bytes).run s = .ok (u, s')) : s.ChangedWithin s' [key] := by
  obtain ⟨a, -, -, rfl⟩ := writeRecord_run_eq_ok.1 h
  exact .set_accounts s key _

theorem debit_changed {source : Address} {n : UInt64}
    (h : (debit source n).run s = .ok (u, s')) : s.ChangedWithin s' [source] := by
  obtain ⟨a, -, -, rfl⟩ := debit_run_eq_ok.1 h
  exact .set_accounts s source _

theorem credit_changed {target : Address} {n : UInt64}
    (h : (credit target n).run s = .ok (u, s')) : s.ChangedWithin s' [target] := by
  obtain ⟨-, rfl⟩ := credit_run_eq_ok.1 h
  exact .set_accounts s target _

theorem transferLamports_changed {source target : Address} {n : UInt64}
    (h : (transferLamports source target n).run s = .ok (u, s')) :
    s.ChangedWithin s' [source, target] := by
  obtain ⟨s₁, hd, hc⟩ := transferLamports_run_eq_ok.1 h
  exact ((debit_changed hd).mono (by simp)).trans ((credit_changed hc).mono (by simp))

theorem burn_changed {source mint : Address} {authority : Invoked} {amount : UInt64}
    (h : (burn source mint authority amount).run s = .ok (u, s')) :
    s.ChangedWithin s' [source, mint] := by
  obtain ⟨_, _, _, -, -, -, -, -, -, -, rfl⟩ := burn_spec h
  exact ((State.ChangedWithin.set_tokenAccounts s source _).mono (by simp)).trans
    ((State.ChangedWithin.set_mints _ mint _).mono (by simp))

theorem transferTokens_changed {source mint destination : Address} {authority : Invoked}
    {amount : UInt64}
    (h : (transferTokens source mint destination authority amount).run s = .ok (u, s')) :
    s.ChangedWithin s' [source, destination] := by
  obtain ⟨_, _, _, -, -, -, -, -, -, -, _, -, -, rfl⟩ := transferTokens_spec h
  exact ((State.ChangedWithin.set_tokenAccounts s source _).mono (by simp)).trans
    ((State.ChangedWithin.set_tokenAccounts _ destination _).mono (by simp))

theorem mintTo_changed {mint destination authority : Address} {amount : UInt64}
    (h : (mintTo mint destination authority amount).run s = .ok (u, s')) :
    s.ChangedWithin s' [mint, destination] := by
  obtain ⟨_, _, -, -, -, -, -, -, rfl⟩ := mintTo_spec h
  exact ((State.ChangedWithin.set_mints s mint _).mono (by simp)).trans
    ((State.ChangedWithin.set_tokenAccounts _ destination _).mono (by simp))

theorem allocate_changed {source target owner : Address} {lamports space : UInt64}
    (h : (allocate source target lamports space owner).run s = .ok (u, s')) :
    s.ChangedWithin s' [source, target] := by
  obtain ⟨-, s₁, hd, rfl⟩ := allocate_effect h
  exact ((debit_changed hd).mono (by simp)).trans ((State.ChangedWithin.set_accounts _ target _).mono (by simp))

theorem processToken_changed {accounts : List Invoked} {data : Bytes}
    (h : (processToken accounts data).run s = .ok (u, s')) :
    s.ChangedWithin s' (keysAt accounts [0]) := by
  obtain ⟨-, -, source, _, _, _, h0, -, -, -, -, -, rfl⟩ := processToken_spec h
  exact (State.ChangedWithin.set_tokenAccounts s source.key _).mono
    (singleton_subset_keysAt (i := 0) (by simp [h0]) (by simp))

/-- Whatever the system program runs, it changes at most its first two accounts: the funder and
the new account, or the sender and the receiver. -/
theorem processSystem_changed {accounts : List Invoked} {data : Bytes}
    (h : (processSystem accounts data).run s = .ok (u, s')) :
    s.ChangedWithin s' (keysAt accounts [0, 1]) := by
  have hkeys : ∀ {source target : Invoked}, accounts[0]? = some source → accounts[1]? = some target →
      [source.key, target.key] ⊆ keysAt accounts [0, 1] := fun h0 h1 =>
    List.cons_subset.2 ⟨mem_keysAt_of (i := 0) (by simp [h0]) (by simp),
      singleton_subset_keysAt (i := 1) (by simp [h1]) (by simp)⟩
  unfold processSystem at h
  split at h
  · exact absurd h fail_run_ne_ok
  · simp only [bind_run_eq_ok, nth_run_eq_ok, ite_fail_bind_run_eq_ok, and_assoc,
      exists_and_left, exists_eq_left] at h
    obtain ⟨source, h0, target, h1, -, h⟩ := h
    exact (allocate_changed h).mono (hkeys h0 h1)
  · simp only [bind_run_eq_ok, nth_run_eq_ok, ite_fail_bind_run_eq_ok, and_assoc,
      exists_and_left, exists_eq_left] at h
    obtain ⟨source, h0, target, h1, -, h⟩ := h
    split at h
    · exact absurd h fail_run_ne_ok
    exact (allocate_changed (ite_fail_bind_run_eq_ok.1 h).2).mono (hkeys h0 h1)
  · simp only [bind_run_eq_ok, nth_run_eq_ok, requireSigner_run_eq_ok, and_assoc,
      exists_and_left, exists_eq_left] at h
    obtain ⟨source, h0, target, h1, -, _, h⟩ := h
    exact (transferLamports_changed h).mono (hkeys h0 h1)
  · exact absurd h fail_run_ne_ok

end Operations

/-! ### What each command changes -/

section Commands

variable {program : Address} {accounts : List Invoked} {s s' : State} {lines : List String}

theorem setUp_changed {fee : UInt64} (h : (setUp program accounts fee).run s = .ok (lines, s')) :
    s.ChangedWithin s' (keysAt accounts [0]) := by
  obtain ⟨-, ck, _, _, _, _, h0, -, -, -, -, -, hw⟩ := setUp_effect h
  exact (writeRecord_changed hw).mono (singleton_subset_keysAt h0 (by simp))

theorem changeKey_changed {ofOwner : Bool}
    (h : (changeKey program accounts ofOwner).run s = .ok (lines, s')) :
    s.ChangedWithin s' (keysAt accounts [0]) := by
  obtain ⟨ck, _, _, _, h0, -, -, -, -, -, hw, -⟩ := changeKey_effect h
  exact (writeRecord_changed hw).mono (singleton_subset_keysAt h0 (by simp))

theorem changeFee_changed {fee : UInt64}
    (h : (changeFee program accounts fee).run s = .ok (lines, s')) :
    s.ChangedWithin s' (keysAt accounts [0]) := by
  obtain ⟨-, ck, _, _, _, h0, -, -, -, -, -, hw⟩ := changeFee_effect h
  exact (writeRecord_changed hw).mono (singleton_subset_keysAt h0 (by simp))

theorem changeLimit_changed {max min : UInt64}
    (h : (changeLimit program accounts max min).run s = .ok (lines, s')) :
    s.ChangedWithin s' (keysAt accounts [1]) := by
  obtain ⟨-, -, _, rk, _, _, _, -, h1, -, -, -, -, -, -, hw⟩ := changeLimit_effect h
  exact (writeRecord_changed hw).mono (singleton_subset_keysAt h1 (by simp))

theorem create_changed {destination : UInt32} {max min : UInt64}
    (h : (create program accounts destination max min).run s = .ok (lines, s')) :
    s.ChangedWithin s' (keysAt accounts [0]) := by
  obtain ⟨-, -, rk, _, _, _, _, _, _, _, _, _, h0, -, -, -, -, -, -, -, -, -, -, -, -, hw⟩ :=
    create_effect h
  exact (writeRecord_changed hw).mono (singleton_subset_keysAt h0 (by simp))

/-- The fee of a bridge-out moves between its eighth and ninth accounts, if at all. -/
theorem FeeMoved.changed {config : Config} (h : FeeMoved accounts config s s') :
    s.ChangedWithin s' (keysAt accounts [7, 8]) := by
  rcases h with ⟨-, rfl⟩ | ⟨-, payer, h7, -, h8, hmove⟩
  · exact .refl _ _
  · exact (transferLamports_changed hmove).mono (List.cons_subset.2
      ⟨mem_keysAt_of (i := 7) (by simp [h7]) (by simp), singleton_subset_keysAt h8 (by simp)⟩)

/-- A bridge-out changes its route (account 0), the escrow (1), the user's account (2), the mint
(4), and the fee payer and collector (7 and 8). -/
theorem bridgeOut_changed {amount : UInt64} {recipient : String} {payload : Bytes}
    (h : (bridgeOut program accounts amount recipient payload).run s = .ok (lines, s')) :
    s.ChangedWithin s' (keysAt accounts [0, 1, 2, 4, 7, 8]) := by
  obtain ⟨rk, esc, usr, mint, _, _, _, s₁, s₂, h0, h1, h2, -, h4, -, -, -, -, -, -, -, hfee, htok,
    -, hw, -⟩ := bridgeOut_effect h
  have htok' : s₁.ChangedWithin s₂ (keysAt accounts [0, 1, 2, 4, 7, 8]) := by
    rcases htok with ⟨-, hburn⟩ | ⟨-, -, hmove⟩
    · exact (burn_changed hburn).mono
        (List.cons_subset.2 ⟨mem_keysAt_of h2 (by simp), singleton_subset_keysAt h4 (by simp)⟩)
    · exact (transferTokens_changed hmove).mono
        (List.cons_subset.2 ⟨mem_keysAt_of h2 (by simp), singleton_subset_keysAt h1 (by simp)⟩)
  exact ((hfee.changed.mono (keysAt_mono (by simp))).trans htok').trans
    ((writeRecord_changed hw).mono (singleton_subset_keysAt h0 (by simp)))

/-- A settlement changes the escrow (account 2), the user's account (3) and the mint (5). -/
theorem settle_changed {amount : UInt64}
    (h : (settle program accounts amount).run s = .ok (lines, s')) :
    s.ChangedWithin s' (keysAt accounts [2, 3, 5]) := by
  obtain ⟨_, _, esc, usr, mint, _, _, _, -, -, h2, h3, -, h5, -, -, -, -, -, -, -, htok, -⟩ :=
    settle_effect h
  rcases htok with ⟨-, hmint⟩ | ⟨-, hmove⟩
  · exact (mintTo_changed hmint).mono
      (List.cons_subset.2 ⟨mem_keysAt_of h5 (by simp), singleton_subset_keysAt h3 (by simp)⟩)
  · exact (transferTokens_changed hmove).mono
      (List.cons_subset.2 ⟨mem_keysAt_of h2 (by simp), singleton_subset_keysAt h3 (by simp)⟩)

end Commands

/-! ### Taking accounts by position -/

section Positions

variable {accounts extra : List Invoked} {i : Nat}

theorem map_fail {α β : Type} (f : α → β) (e : Failure) : f <$> (fail e : Exec α) = fail e := rfl

theorem fail_bind {α β : Type} (e : Failure) (k : α → Exec β) : (fail e : Exec α) >>= k = fail e :=
  rfl

theorem nth_eq_pure {a : Invoked} (h : accounts[i]? = some a) : nth accounts i = pure a := by
  simp [nth, h]

theorem bind_run_congr {α β : Type} {s : State} {x : Exec α} {f g : α → Exec β}
    (h : ∀ a s', x.run s = .ok (a, s') → (f a).run s' = (g a).run s') :
    (x >>= f).run s = (x >>= g).run s := by
  rw [StateT.run_bind, StateT.run_bind]
  cases hx : x.run s with
  | error e => rfl
  | ok p => exact h p.1 p.2 hx

theorem nth_append (h : i < accounts.length) : nth (accounts ++ extra) i = nth accounts i := by
  simp [nth, List.getElem?_append_left h]

end Positions

/-! ### The signer flags a command reads -/

/-- `accounts` with the signer flag of every position that `keep` does not keep set to what
`flags` says. -/
def relabel (keep flags : Nat → Bool) (accounts : List Invoked) : List Invoked :=
  accounts.mapIdx fun i a => if keep i then a else ⟨a.key, flags i⟩

section Relabel

variable {keep flags : Nat → Bool} {accounts : List Invoked}

theorem getElem?_relabel (i : Nat) :
    (relabel keep flags accounts)[i]? =
      (accounts[i]?).map fun a => if keep i then a else ⟨a.key, flags i⟩ := by
  simp [relabel, List.getElem?_mapIdx]

theorem nth_relabel (i : Nat) :
    nth (relabel keep flags accounts) i =
      (fun a => if keep i then a else ⟨a.key, flags i⟩) <$> nth accounts i := by
  unfold nth
  rw [getElem?_relabel]
  cases accounts[i]? with
  | none => exact (map_fail _ _).symm
  | some a => rfl

-- Each handler takes an account by `nth` and then uses its key alone, or, at the positions kept,
-- the whole account: rewriting every `nth` of the relabelled accounts leaves the key of an
-- account whose flag was changed, which is its key before.

theorem setUp_relabel (program : Address) (fee : UInt64) :
    setUp program (relabel keep flags accounts) fee = setUp program accounts fee := by
  simp only [setUp, nth_relabel, bind_map_left, apply_ite Invoked.key, ite_self]

theorem changeKey_relabel (program : Address) (ofOwner : Bool) (h1 : keep 1 = true) :
    changeKey program (relabel keep flags accounts) ofOwner = changeKey program accounts ofOwner := by
  simp only [changeKey, nth_relabel, bind_map_left, apply_ite Invoked.key, ite_self, h1, if_true]

theorem changeFee_relabel (program : Address) (fee : UInt64) (h1 : keep 1 = true) :
    changeFee program (relabel keep flags accounts) fee = changeFee program accounts fee := by
  simp only [changeFee, nth_relabel, bind_map_left, apply_ite Invoked.key, ite_self, h1, if_true]

theorem changeLimit_relabel (program : Address) (max min : UInt64) (h2 : keep 2 = true) :
    changeLimit program (relabel keep flags accounts) max min =
      changeLimit program accounts max min := by
  simp only [changeLimit, nth_relabel, bind_map_left, apply_ite Invoked.key, ite_self, h2, if_true]

theorem create_relabel (program : Address) (destination : UInt32) (max min : UInt64)
    (h5 : keep 5 = true) :
    create program (relabel keep flags accounts) destination max min =
      create program accounts destination max min := by
  simp only [create, nth_relabel, bind_map_left, apply_ite Invoked.key, ite_self, h5, if_true]

/-- A bridge-out reads the flags of the transfer authority (account 3) and of the fee payer
(account 7). -/
theorem bridgeOut_relabel (program : Address) (amount : UInt64) (recipient : String)
    (payload : Bytes) (h3 : keep 3 = true) (h7 : keep 7 = true) :
    bridgeOut program (relabel keep flags accounts) amount recipient payload =
      bridgeOut program accounts amount recipient payload := by
  simp only [bridgeOut, nth_relabel, bind_map_left, apply_ite Invoked.key, ite_self, h3, h7, if_true]

theorem settle_relabel (program : Address) (amount : UInt64) (h4 : keep 4 = true) :
    settle program (relabel keep flags accounts) amount = settle program accounts amount := by
  simp only [settle, nth_relabel, bind_map_left, apply_ite Invoked.key, ite_self, h4, if_true]

theorem processToken_relabel (data : Bytes) (h2 : keep 2 = true) :
    processToken (relabel keep flags accounts) data = processToken accounts data := by
  simp only [processToken, nth_relabel, bind_map_left, apply_ite Invoked.key, ite_self, h2, if_true]

theorem relabel_of_keep (h : ∀ i < accounts.length, keep i = true) :
    relabel keep flags accounts = accounts := by
  refine List.ext_getElem? fun i => ?_
  rw [getElem?_relabel]
  cases hi : accounts[i]? with
  | none => rfl
  | some a =>
    have hlt : i < accounts.length := (List.getElem?_eq_some_iff.1 hi).1
    simp [h i hlt]

/-- Accounts with the same keys as `accounts`, and the same flags where `keep` says, are
`accounts` relabelled. -/
theorem eq_relabel {others : List Invoked}
    (hkeys : others.map Invoked.key = accounts.map Invoked.key)
    (hkeep : ∀ i, keep i = true → others[i]? = accounts[i]?) :
    others = relabel keep (fun i => ((others[i]?).map Invoked.signer).getD false) accounts := by
  refine List.ext_getElem? fun i => ?_
  rw [getElem?_relabel]
  by_cases hk : keep i = true
  · simp [hk, hkeep i hk]
  · have hi := congrArg (·[i]?) hkeys
    simp only [List.getElem?_map] at hi
    cases ho : others[i]? with
    | none => rw [ho, Option.map_none] at hi; simp [Option.map_eq_none_iff.1 hi.symm]
    | some b =>
      rw [ho, Option.map_some] at hi
      obtain ⟨a, ha, hab⟩ := Option.map_eq_some_iff.1 hi.symm
      simp [ha, hk, hab]

end Relabel

/-! ### A creation at an address derived from the funder -/

/-- Some account whose key is `base` signed, when one such account did. -/
theorem signed_of_mem {accounts : List Invoked} {a : Invoked} {base : Address} (ha : a ∈ accounts)
    (hk : a.key = base) : (!a.signer || !accounts.any fun b => b.key == base && b.signer) = !a.signer := by
  cases hs : a.signer
  · rfl
  · have hany : (accounts.any fun b => b.key == base && b.signer) = true :=
      List.any_eq_true.2 ⟨a, ha, by simp [hk, hs]⟩
    simp [hany]

section Seeded

variable {keep flags : Nat → Bool} {accounts extra : List Invoked} {data : Bytes} {base : Address}
  {seed : String} {lamports space : UInt64} {owner : Address}

-- When the funder of a creation at a derived address is the base of that address, the base has
-- signed exactly when the funder has, and no other account's flag counts.

theorem processSystem_seeded_relabel
    (hcmd : SystemCommand.decode? data = some (.createAccountWithSeed base seed lamports space owner))
    (h0 : (accounts[0]?).map Invoked.key = some base) (hk0 : keep 0 = true) :
    processSystem (relabel keep flags accounts) data = processSystem accounts data := by
  obtain ⟨a0, ha0, hk⟩ := Option.map_eq_some_iff.1 h0
  have hr0 : (relabel keep flags accounts)[0]? = some a0 := by simp [getElem?_relabel, ha0, hk0]
  simp only [processSystem, hcmd, nth_eq_pure ha0, nth_eq_pure hr0, pure_bind,
    signed_of_mem (List.mem_of_getElem? ha0) hk, signed_of_mem (List.mem_of_getElem? hr0) hk,
    nth_relabel, bind_map_left, apply_ite Invoked.key, ite_self]

theorem processSystem_seeded_append
    (hcmd : SystemCommand.decode? data = some (.createAccountWithSeed base seed lamports space owner))
    (h0 : (accounts[0]?).map Invoked.key = some base) (h : 2 ≤ accounts.length) :
    processSystem (accounts ++ extra) data = processSystem accounts data := by
  obtain ⟨a0, ha0, hk⟩ := Option.map_eq_some_iff.1 h0
  have ha0' : (accounts ++ extra)[0]? = some a0 := by rw [List.getElem?_append_left (by omega), ha0]
  simp only [processSystem, hcmd, nth_eq_pure ha0, nth_eq_pure ha0', pure_bind,
    signed_of_mem (List.mem_of_getElem? ha0) hk, signed_of_mem (List.mem_of_getElem? ha0') hk,
    nth_append (show 1 < accounts.length by omega)]

end Seeded

theorem processSystem_created_append {accounts extra : List Invoked} {data : Bytes}
    {lamports space : UInt64} {owner : Address}
    (hcmd : SystemCommand.decode? data = some (.createAccount lamports space owner))
    (h : 2 ≤ accounts.length) :
    processSystem (accounts ++ extra) data = processSystem accounts data := by
  simp only [processSystem, hcmd, nth_append (show 0 < accounts.length by omega),
    nth_append (show 1 < accounts.length by omega)]

/-! ### The accounts a command reads -/

section Append

variable {accounts extra : List Invoked}

theorem setUp_append (program : Address) (fee : UInt64) (h : 4 ≤ accounts.length) :
    setUp program (accounts ++ extra) fee = setUp program accounts fee := by
  simp (disch := omega) only [setUp, nth_append]

theorem changeKey_append (program : Address) (ofOwner : Bool) (h : 3 ≤ accounts.length) :
    changeKey program (accounts ++ extra) ofOwner = changeKey program accounts ofOwner := by
  simp (disch := omega) only [changeKey, nth_append]

/-- A new fee reads the collector only when the fee is above zero. -/
theorem changeFee_append (program : Address) (fee : UInt64)
    (h : (if 0 < fee then 3 else 2) ≤ accounts.length) :
    changeFee program (accounts ++ extra) fee = changeFee program accounts fee := by
  by_cases hfee : 0 < fee
  · rw [if_pos hfee] at h
    simp (disch := omega) only [changeFee, nth_append]
  · rw [if_neg hfee] at h
    simp (disch := omega) only [changeFee, nth_append, hfee, if_false]

theorem changeLimit_append (program : Address) (max min : UInt64) (h : 3 ≤ accounts.length) :
    changeLimit program (accounts ++ extra) max min = changeLimit program accounts max min := by
  simp (disch := omega) only [changeLimit, nth_append]

theorem create_append (program : Address) (destination : UInt32) (max min : UInt64)
    (h : 7 ≤ accounts.length) :
    create program (accounts ++ extra) destination max min =
      create program accounts destination max min := by
  -- the seven reads by position, rewritten one at a time
  unfold create
  rw [nth_append (by omega), nth_append (by omega), nth_append (by omega), nth_append (by omega),
    nth_append (by omega), nth_append (by omega), nth_append (by omega)]

theorem bridgeOut_append (program : Address) (amount : UInt64) (recipient : String)
    (payload : Bytes) (h : 9 ≤ accounts.length) :
    bridgeOut program (accounts ++ extra) amount recipient payload =
      bridgeOut program accounts amount recipient payload := by
  unfold bridgeOut
  rw [nth_append (by omega), nth_append (by omega), nth_append (by omega), nth_append (by omega),
    nth_append (by omega), nth_append (by omega), nth_append (by omega), nth_append (by omega),
    nth_append (by omega)]

/-- A bridge-out with only its seven accounts reads no more than them under a config that asks
for no fee, or that the program does not keep. -/
theorem bridgeOut_append_run (program : Address) (amount : UInt64) (recipient : String)
    (payload : Bytes) (s : State) (h : 7 ≤ accounts.length)
    (hfee : ∀ a ∈ accounts[6]?, ∀ config, configAt program s a.key = some config → config.fee = 0) :
    (bridgeOut program (accounts ++ extra) amount recipient payload).run s =
      (bridgeOut program accounts amount recipient payload).run s := by
  unfold bridgeOut
  rw [nth_append (by omega), nth_append (by omega), nth_append (by omega), nth_append (by omega),
    nth_append (by omega), nth_append (by omega), nth_append (by omega)]
  obtain ⟨a6, h6⟩ : ∃ a, accounts[6]? = some a := ⟨_, List.getElem?_eq_getElem (by omega)⟩
  obtain ⟨a5, h5⟩ : ∃ a, accounts[5]? = some a := ⟨_, List.getElem?_eq_getElem (by omega)⟩
  obtain ⟨a4, h4⟩ : ∃ a, accounts[4]? = some a := ⟨_, List.getElem?_eq_getElem (by omega)⟩
  obtain ⟨a3, h3⟩ : ∃ a, accounts[3]? = some a := ⟨_, List.getElem?_eq_getElem (by omega)⟩
  obtain ⟨a2, h2⟩ : ∃ a, accounts[2]? = some a := ⟨_, List.getElem?_eq_getElem (by omega)⟩
  obtain ⟨a1, h1⟩ : ∃ a, accounts[1]? = some a := ⟨_, List.getElem?_eq_getElem (by omega)⟩
  obtain ⟨a0, h0⟩ : ∃ a, accounts[0]? = some a := ⟨_, List.getElem?_eq_getElem (by omega)⟩
  simp only [nth_eq_pure h0, nth_eq_pure h1, nth_eq_pure h2, nth_eq_pure h3, nth_eq_pure h4,
    nth_eq_pure h5, nth_eq_pure h6, pure_bind]
  -- past the config's checks, the config is one the program keeps, so its fee is 0
  refine bind_run_congr fun config s₁ hread => ?_
  obtain ⟨⟨acc, hacc, hdec⟩, rfl⟩ := readRecord_run_eq_ok.1 hread
  refine bind_run_congr fun _ s₂ hown => ?_
  obtain ⟨⟨acc', hacc', howner⟩, rfl⟩ := ownedBy_run_eq_ok.1 hown
  rw [hacc] at hacc'
  cases hacc'
  have hzero := hfee a6 h6 config (recordAt_eq_some.2 ⟨acc, hacc, howner, hdec⟩)
  simp [hzero]

theorem settle_append (program : Address) (amount : UInt64) (h : 8 ≤ accounts.length) :
    settle program (accounts ++ extra) amount = settle program accounts amount := by
  simp (disch := omega) only [settle, nth_append]

theorem processToken_append (data : Bytes) (h : 3 ≤ accounts.length) :
    processToken (accounts ++ extra) data = processToken accounts data := by
  simp (disch := omega) only [processToken, nth_append]

end Append

end TokenBridge
