import TokenBridge.Ledger.BridgeProgram
import TokenBridge.Proofs.RecordCodec
/-!
What the operations of a running instruction do to the ledger's accounts.

An instruction runs in `Exec`, a state monad over the accounts, mints and token accounts that can
fail. Each operation gets one lemma that says exactly when it succeeds and in what state
(`nth_run_eq_ok`, `writeRecord_run_eq_ok`, ...), so that the handlers of the programs are taken
apart by rewriting alone. Two views of the state carry what later proofs track: `routeAt`, the
route a program owns at a key, and `balance`, the lamports at a key. Moving lamports keeps every
route; the token operations keep the accounts altogether.
-/

namespace TokenBridge

open BridgeProgram

/-! ### Tables -/

namespace Table

variable {α : Type}

/-- The entries of a table after `set` replaces the entry of `k`. -/
def replaced (es : List (Address × α)) (k : Address) (v : α) : List (Address × α) :=
  es.map fun e => if e.1 == k then (k, v) else e

theorem lookup_replaced_of_ne (es : List (Address × α)) {k k' : Address} (v : α) (h : k' ≠ k) :
    (replaced es k v).lookup k' = es.lookup k' := by
  induction es with
  | nil => rfl
  | cons e es ih =>
    obtain ⟨a, b⟩ := e
    by_cases ha : a = k
    · -- the replaced head has key `k`, which is not the key looked up
      subst ha
      have hne : (k' == a) = false := beq_false_of_ne h
      simpa [replaced, List.lookup_cons, hne] using ih
    · by_cases hk' : k' = a
      · subst hk'
        simp [replaced, ha]
      · have hne : (k' == a) = false := beq_false_of_ne hk'
        simpa [replaced, List.lookup_cons, ha, hne] using ih

theorem lookup_replaced_self (es : List (Address × α)) (k : Address) (v : α)
    (hk : (es.lookup k).isSome) : (replaced es k v).lookup k = some v := by
  induction es with
  | nil => simp at hk
  | cons e es ih =>
    obtain ⟨a, b⟩ := e
    by_cases ha : a = k
    · subst ha
      simp [replaced]
    · have hne : (k == a) = false := beq_false_of_ne (Ne.symm ha)
      simp only [List.lookup_cons, hne] at hk
      simpa [replaced, List.lookup_cons, ha, hne] using ih hk

theorem get?_set (t : Table α) (k k' : Address) (v : α) :
    (t.set k v).get? k' = if k' = k then some v else t.get? k' := by
  unfold set
  split
  · rename_i hk
    show (replaced t.entries k v).lookup k' = _
    by_cases hk' : k' = k
    · subst hk'
      simp [lookup_replaced_self t.entries k' v hk]
    · simp [lookup_replaced_of_ne t.entries v hk', hk', get?]
  · rename_i hk
    have hnone : t.entries.lookup k = none := Option.not_isSome_iff_eq_none.1 hk
    show (t.entries ++ [(k, v)]).lookup k' = _
    rw [List.lookup_append]
    by_cases hk' : k' = k
    · subst hk'
      simp [hnone]
    · have hne : (k' == k) = false := beq_false_of_ne hk'
      simp [List.lookup_cons, hk', hne, get?]

@[simp] theorem get?_set_self (t : Table α) (k : Address) (v : α) : (t.set k v).get? k = some v := by
  simp [get?_set]

@[simp] theorem get?_set_of_ne (t : Table α) {k k' : Address} (v : α) (h : k' ≠ k) :
    (t.set k v).get? k' = t.get? k' := by
  simp [get?_set, h]

end Table

/-! ### Running `Exec` -/

section Run

variable {α β : Type} {s s' s'' : State}

theorem bind_run_eq_ok {x : Exec α} {f : α → Exec β} {b : β} :
    (x >>= f).run s = .ok (b, s'') ↔ ∃ a s', x.run s = .ok (a, s') ∧ (f a).run s' = .ok (b, s'') := by
  rw [StateT.run_bind]
  cases h : x.run s with
  | error e => simp [bind, Except.bind]
  | ok p =>
    obtain ⟨a, s'⟩ := p
    simp only [bind, Except.bind, Except.ok.injEq, Prod.mk.injEq]
    constructor
    · intro hf
      exact ⟨a, s', ⟨rfl, rfl⟩, hf⟩
    · rintro ⟨_, _, ⟨rfl, rfl⟩, hf⟩
      exact hf

theorem pure_run_eq_ok {a b : α} : (pure a : Exec α).run s = .ok (b, s') ↔ a = b ∧ s' = s := by
  rw [StateT.run_pure]
  simp [pure, Except.pure, eq_comm]

theorem pure_unit_run_eq_ok {u : PUnit} : (pure PUnit.unit : Exec PUnit).run s = .ok (u, s') ↔ s' = s :=
  pure_run_eq_ok.trans ⟨And.right, fun h => ⟨rfl, h⟩⟩

theorem get_run_eq_ok {t : State} : (get : Exec State).run s = .ok (t, s') ↔ t = s ∧ s' = s := by
  rw [StateT.run_get]
  simp [pure, Except.pure, eq_comm]

/-- Reading the state first runs the rest on that same state. -/
theorem get_bind_run {f : State → Exec β} : (get >>= f).run s = (f s).run s := rfl

theorem modify_run_eq_ok {f : State → State} {u : PUnit} :
    (modify f : Exec PUnit).run s = .ok (u, s') ↔ s' = f s := by
  rw [StateT.run_modify]
  simp [pure, Except.pure, eq_comm]

theorem set_run_eq_ok {t : State} {u : PUnit} : (set t : Exec PUnit).run s = .ok (u, s') ↔ s' = t := by
  rw [StateT.run_set]
  simp [pure, Except.pure, eq_comm]

theorem fail_run_ne_ok {e : Failure} {p : α × State} : ¬ (fail e : Exec α).run s = .ok p := by
  show ¬ Except.error e = _
  simp

theorem fail_bind_run_ne_ok {e : Failure} {k : α → Exec β} {p : β × State} :
    ¬ (fail e >>= k).run s = .ok p := fun h => by
  obtain ⟨_, _, hf, -⟩ := bind_run_eq_ok.1 h
  exact fail_run_ne_ok hf

/-- A guard in `do` notation: `if c then fail e` followed by the rest goes on only when `c` is
false. -/
theorem ite_fail_bind_run_eq_ok {c : Prop} [Decidable c] {e : Failure} {k : α → Exec β}
    {y : Exec β} {p : β × State} :
    (if c then fail e >>= k else y).run s = .ok p ↔ ¬ c ∧ y.run s = .ok p := by
  by_cases hc : c
  · simp only [hc, if_true, not_true, false_and, iff_false]
    exact fail_bind_run_ne_ok
  · simp only [hc, if_false, not_false_eq_true, true_and]

end Run

/-! ### Operations that read -/

section Read

variable {α : Type} {s s' : State}

theorem nth_run_eq_ok {accounts : List Invoked} {i : Nat} {a : Invoked} :
    (nth accounts i).run s = .ok (a, s') ↔ accounts[i]? = some a ∧ s' = s := by
  unfold nth
  cases accounts[i]? with
  | none => simpa using fail_run_ne_ok
  | some b => simpa using pure_run_eq_ok

theorem requireSigner_run_eq_ok {a : Invoked} {u : Unit} :
    (requireSigner a).run s = .ok (u, s') ↔ a.signer = true ∧ s' = s := by
  unfold requireSigner
  cases a.signer
  · simpa using fail_run_ne_ok
  · simpa using pure_unit_run_eq_ok

theorem requireKey_run_eq_ok {a : Invoked} {expected : Address} {code : ErrorCode} {u : Unit} :
    (requireKey a expected code).run s = .ok (u, s') ↔
      a.signer = true ∧ a.key = expected ∧ s' = s := by
  unfold requireKey
  by_cases h : (a.signer && a.key == expected) = true
  · simp only [Bool.and_eq_true, beq_iff_eq] at h
    simp only [h, Bool.and_self, beq_self_eq_true, if_true, true_and]
    exact pure_unit_run_eq_ok
  · rw [if_neg h]
    simp only [Bool.and_eq_true, beq_iff_eq, not_and] at h
    simp only [fail_run_ne_ok, false_iff, not_and]
    exact fun hs hk _ => h hs hk

theorem ownedBy_run_eq_ok {program key : Address} {u : Unit} :
    (ownedBy program key).run s = .ok (u, s') ↔
      (∃ a, s.accounts.get? key = some a ∧ a.owner = program) ∧ s' = s := by
  simp only [ownedBy, get_bind_run]
  split
  · rename_i a ha
    by_cases ho : a.owner = program
    · simpa [ha, ho] using pure_unit_run_eq_ok
    · simpa [ha, ho] using fail_run_ne_ok
  · rename_i ha
    simpa [ha] using fail_run_ne_ok

theorem readRecord_run_eq_ok {decode : Bytes → Except CodecError α} {key : Address} {r : α} :
    (readRecord decode key).run s = .ok (r, s') ↔
      (∃ a, s.accounts.get? key = some a ∧ decode a.data = .ok r) ∧ s' = s := by
  simp only [readRecord, get_bind_run]
  split
  · rename_i ha
    simpa [ha] using fail_run_ne_ok
  · rename_i a ha
    split
    · rename_i v hd
      simpa [ha, hd] using pure_run_eq_ok
    · rename_i e hd
      simpa [ha, hd] using fail_run_ne_ok

theorem mintAt_run_eq_ok {key : Address} {m : Mint} :
    (mintAt key).run s = .ok (m, s') ↔ s.mints.get? key = some m ∧ s' = s := by
  simp only [mintAt, get_bind_run]
  split
  · rename_i n hm
    simpa [hm] using pure_run_eq_ok
  · rename_i hm
    simpa [hm] using fail_run_ne_ok

theorem addAmount_run_eq_ok {a b c : UInt64} :
    (addAmount a b).run s = .ok (c, s') ↔ a.toNat + b.toNat < UInt64.size ∧ a + b = c ∧ s' = s := by
  unfold addAmount
  by_cases h : a.toNat + b.toNat < UInt64.size
  · simp only [h, if_true, true_and]
    exact pure_run_eq_ok
  · simp only [h, if_false, false_and, iff_false]
    exact fail_run_ne_ok

theorem subAmount_run_eq_ok {a b c : UInt64} :
    (subAmount a b).run s = .ok (c, s') ↔ b ≤ a ∧ a - b = c ∧ s' = s := by
  unfold subAmount
  by_cases h : b ≤ a
  · simp only [h, if_true, true_and]
    exact pure_run_eq_ok
  · simp only [h, if_false, false_and, iff_false]
    exact fail_run_ne_ok

end Read

/-! ### Operations that write -/

section Write

variable {s s' : State}

theorem writeRecord_run_eq_ok {program key : Address} {bytes : Bytes} {u : Unit} :
    (writeRecord program key bytes).run s = .ok (u, s') ↔
      ∃ a, s.accounts.get? key = some a ∧ a.owner = program ∧
        s' = { s with accounts := s.accounts.set key { a with data := bytes } } := by
  simp only [writeRecord, get_bind_run]
  split
  · rename_i a ha
    by_cases ho : a.owner = program
    · simp [ha, ho, pure, Except.pure, eq_comm]
    · simpa [ha, ho] using fail_run_ne_ok
  · rename_i ha
    simpa [ha] using fail_run_ne_ok

theorem debit_run_eq_ok {source : Address} {n : UInt64} {u : Unit} :
    (debit source n).run s = .ok (u, s') ↔
      ∃ a, s.accounts.get? source = some a ∧ n ≤ a.lamports ∧
        s' = { s with accounts := s.accounts.set source { a with lamports := a.lamports - n } } := by
  simp only [debit, get_bind_run]
  split
  · rename_i ha
    simpa [ha] using fail_run_ne_ok
  · rename_i a ha
    by_cases hn : n ≤ a.lamports
    · simp [ha, hn, pure, Except.pure, eq_comm]
    · simpa [ha, hn] using fail_run_ne_ok

theorem credit_run_eq_ok {target : Address} {n : UInt64} {u : Unit} :
    (credit target n).run s = .ok (u, s') ↔
      let a := (s.accounts.get? target).getD ⟨0, Address.systemProgram, []⟩
      a.lamports.toNat + n.toNat < UInt64.size ∧
        s' = { s with accounts := s.accounts.set target { a with lamports := a.lamports + n } } := by
  simp only [credit, get_bind_run, bind_run_eq_ok, addAmount_run_eq_ok, set_run_eq_ok]
  constructor
  · rintro ⟨_, _, ⟨hlt, rfl, rfl⟩, rfl⟩
    exact ⟨hlt, rfl⟩
  · rintro ⟨hlt, rfl⟩
    exact ⟨_, _, ⟨hlt, rfl, rfl⟩, rfl⟩

end Write

/-! ### The routes and balances of a state -/

/-- The route that `program` keeps at `key`: what the account's data decodes to, when the program
owns the account. -/
def routeAt (program : Address) (s : State) (key : Address) : Option Route :=
  match s.accounts.get? key with
  | some a => if a.owner = program then (Route.decode a.data).toOption else none
  | none => none

/-- The lamports at `key`, 0 where there is no account. -/
def balance (s : State) (key : Address) : Nat :=
  ((s.accounts.get? key).map (·.lamports.toNat)).getD 0

section Views

variable {program key : Address} {s s' : State}

theorem routeAt_eq_some {r : Route} :
    routeAt program s key = some r ↔
      ∃ a, s.accounts.get? key = some a ∧ a.owner = program ∧ Route.decode a.data = .ok r := by
  unfold routeAt
  cases s.accounts.get? key with
  | none => simp
  | some a =>
    by_cases ho : a.owner = program
    · cases hd : Route.decode a.data <;> simp [ho, hd, Except.toOption]
    · simp [ho]

theorem routeAt_of_accounts (h : s'.accounts = s.accounts) : routeAt program s' = routeAt program s := by
  funext k
  simp only [routeAt, h]

theorem balance_of_accounts (h : s'.accounts = s.accounts) : balance s' = balance s := by
  funext k
  simp only [balance, h]

/-- An empty account holds no route. -/
theorem decode_nil_toOption : (Route.decode []).toOption = none := by
  cases h : Route.decode [] with
  | error e => rfl
  | ok r =>
    have hlen := congrArg List.length (Route.decode_eq_ok_iff.1 h)
    rw [Route.length_encode] at hlen
    exact absurd hlen (by decide)

/-- Storing an account with the same owner and data keeps every route. -/
theorem routeAt_set_same {a a' : Account} (ha : s.accounts.get? key = some a)
    (ho : a'.owner = a.owner) (hd : a'.data = a.data) :
    routeAt program { s with accounts := s.accounts.set key a' } = routeAt program s := by
  funext k
  by_cases hk : k = key
  · subst hk
    simp [routeAt, ha, ho, hd]
  · simp [routeAt, hk]

/-- A route read from an account the program owns is the route there. -/
theorem routeAt_of_read {r : Route} (ho : ∃ a, s.accounts.get? key = some a ∧ a.owner = program)
    (hr : ∃ a, s.accounts.get? key = some a ∧ Route.decode a.data = .ok r) :
    routeAt program s key = some r := by
  obtain ⟨a, ha, hao⟩ := ho
  obtain ⟨a', ha', hd⟩ := hr
  rw [ha] at ha'
  cases ha'
  exact routeAt_eq_some.2 ⟨a, ha, hao, hd⟩

/-- Storing bytes at `key` puts there the route they decode to, and leaves every other route. -/
theorem routeAt_writeRecord {bytes : Bytes} {u : Unit}
    (h : (writeRecord program key bytes).run s = .ok (u, s')) :
    routeAt program s' key = (Route.decode bytes).toOption ∧
      ∀ k, k ≠ key → routeAt program s' k = routeAt program s k := by
  obtain ⟨a, ha, ho, rfl⟩ := writeRecord_run_eq_ok.1 h
  exact ⟨by simp [routeAt, ho], fun k hk => by simp [routeAt, hk]⟩

theorem balance_writeRecord {bytes : Bytes} {u : Unit}
    (h : (writeRecord program key bytes).run s = .ok (u, s')) : balance s' = balance s := by
  obtain ⟨a, ha, ho, rfl⟩ := writeRecord_run_eq_ok.1 h
  funext k
  by_cases hk : k = key
  · subst hk
    simp [balance, ha]
  · simp [balance, hk]

end Views

/-! ### Moving lamports -/

section Lamports

variable {s s' : State} {program : Address} {u : Unit}

theorem debit_routeAt {source : Address} {n : UInt64} (h : (debit source n).run s = .ok (u, s')) :
    routeAt program s' = routeAt program s := by
  obtain ⟨a, ha, -, rfl⟩ := debit_run_eq_ok.1 h
  exact routeAt_set_same ha rfl rfl

theorem credit_routeAt {target : Address} {n : UInt64} (h : (credit target n).run s = .ok (u, s')) :
    routeAt program s' = routeAt program s := by
  obtain ⟨-, rfl⟩ := credit_run_eq_ok.1 h
  cases ha : s.accounts.get? target with
  | some a =>
    rw [Option.getD_some]
    exact routeAt_set_same ha rfl rfl
  | none =>
    -- a plain account appears, and its empty data holds no route
    funext k
    by_cases hk : k = target
    · subst hk
      simp [routeAt, ha, decode_nil_toOption]
    · simp [routeAt, hk]

theorem transferLamports_run_eq_ok {source target : Address} {n : UInt64} :
    (transferLamports source target n).run s = .ok (u, s') ↔
      ∃ s₁, (debit source n).run s = .ok ((), s₁) ∧ (credit target n).run s₁ = .ok (u, s') := by
  simp only [transferLamports, bind_run_eq_ok]
  exact ⟨fun ⟨_, s₁, h₁, h₂⟩ => ⟨s₁, h₁, h₂⟩, fun ⟨s₁, h₁, h₂⟩ => ⟨(), s₁, h₁, h₂⟩⟩

theorem transferLamports_routeAt {source target : Address} {n : UInt64}
    (h : (transferLamports source target n).run s = .ok (u, s')) :
    routeAt program s' = routeAt program s := by
  obtain ⟨s₁, h₁, h₂⟩ := transferLamports_run_eq_ok.1 h
  rw [credit_routeAt h₂, debit_routeAt h₁]

theorem debit_balance {source : Address} {n : UInt64} (h : (debit source n).run s = .ok (u, s'))
    (k : Address) : balance s' k + (if k = source then n.toNat else 0) = balance s k := by
  obtain ⟨a, ha, hn, rfl⟩ := debit_run_eq_ok.1 h
  by_cases hk : k = source
  · subst hk
    have hle : n.toNat ≤ a.lamports.toNat := UInt64.le_iff_toNat_le.1 hn
    simp [balance, ha, UInt64.toNat_sub_of_le _ _ hn]
    omega
  · simp [balance, hk]

theorem credit_balance {target : Address} {n : UInt64} (h : (credit target n).run s = .ok (u, s'))
    (k : Address) : balance s' k = balance s k + (if k = target then n.toNat else 0) := by
  obtain ⟨hlt, rfl⟩ := credit_run_eq_ok.1 h
  by_cases hk : k = target
  · subst hk
    have hsum : (((s.accounts.get? k).getD ⟨0, Address.systemProgram, []⟩).lamports + n).toNat =
        ((s.accounts.get? k).getD ⟨0, Address.systemProgram, []⟩).lamports.toNat + n.toNat := by
      rw [UInt64.toNat_add]
      exact Nat.mod_eq_of_lt hlt
    cases ha : s.accounts.get? k <;> simp_all [balance]
  · simp [balance, hk]

/-- Moving `n` lamports from `source` to `target`: every balance changes by what leaves or
enters it, and by nothing else. -/
theorem transferLamports_balance {source target : Address} {n : UInt64}
    (h : (transferLamports source target n).run s = .ok (u, s')) (k : Address) :
    balance s' k + (if k = source then n.toNat else 0) =
      balance s k + (if k = target then n.toNat else 0) := by
  obtain ⟨s₁, h₁, h₂⟩ := transferLamports_run_eq_ok.1 h
  have hd := debit_balance h₁ k
  have hc := credit_balance h₂ k
  omega

end Lamports

/-! ### Operations that leave the plain accounts alone -/

/-- A computation that, when it succeeds, leaves the plain accounts as they were. -/
def KeepsAccounts {α : Type} (x : Exec α) : Prop :=
  ∀ s a s', x.run s = .ok (a, s') → s'.accounts = s.accounts

namespace KeepsAccounts

variable {α β : Type}

theorem of_state {x : Exec α} (h : ∀ s a s', x.run s = .ok (a, s') → s' = s) : KeepsAccounts x :=
  fun s a s' hx => by rw [h s a s' hx]

theorem pure' (a : α) : KeepsAccounts (pure a : Exec α) :=
  of_state fun _ _ _ h => (pure_run_eq_ok.1 h).2

theorem fail' (e : Failure) : KeepsAccounts (fail e : Exec α) :=
  fun _ _ _ h => absurd h fail_run_ne_ok

theorem fail_bind' (e : Failure) (k : α → Exec β) : KeepsAccounts (fail e >>= k) :=
  fun _ _ _ h => absurd h fail_bind_run_ne_ok

theorem get' : KeepsAccounts (get : Exec State) :=
  of_state fun _ _ _ h => (get_run_eq_ok.1 h).2

theorem bind {x : Exec α} {f : α → Exec β} (hx : KeepsAccounts x) (hf : ∀ a, KeepsAccounts (f a)) :
    KeepsAccounts (x >>= f) := by
  intro s b s'' h
  obtain ⟨a, s', h₁, h₂⟩ := bind_run_eq_ok.1 h
  rw [hf a s' b s'' h₂, hx s a s' h₁]

theorem ite' {c : Prop} [Decidable c] {x y : Exec α} (hx : KeepsAccounts x) (hy : KeepsAccounts y) :
    KeepsAccounts (if c then x else y) := by
  split
  · exact hx
  · exact hy

theorem modify' {f : State → State} (hf : ∀ s, (f s).accounts = s.accounts) :
    KeepsAccounts (modify f : Exec PUnit) := by
  intro s u s' h
  rw [modify_run_eq_ok.1 h, hf]

theorem nth' (accounts : List Invoked) (i : Nat) : KeepsAccounts (nth accounts i) :=
  of_state fun _ _ _ h => (nth_run_eq_ok.1 h).2

theorem requireSigner' (a : Invoked) : KeepsAccounts (requireSigner a) :=
  of_state fun _ _ _ h => (requireSigner_run_eq_ok.1 h).2

theorem addAmount' (a b : UInt64) : KeepsAccounts (addAmount a b) :=
  of_state fun _ _ _ h => (addAmount_run_eq_ok.1 h).2.2

theorem subAmount' (a b : UInt64) : KeepsAccounts (subAmount a b) :=
  of_state fun _ _ _ h => (subAmount_run_eq_ok.1 h).2.2

end KeepsAccounts

section Tokens

open KeepsAccounts

theorem tokenAccount_keeps (key : Address) : KeepsAccounts (tokenAccount key) := by
  refine get'.bind fun s => ?_
  split
  · exact pure' _
  · exact fail' _

theorem putTokenAccount_keeps (key : Address) (a : TokenAccount) :
    KeepsAccounts (putTokenAccount key a) :=
  modify' fun _ => by rfl

-- In `do` notation a guard `if c then fail e` puts the rest of the block after the failure too;
-- `fail_bind'` disposes of that copy.

theorem authorize_keeps (a : TokenAccount) (authority : Invoked) (amount : UInt64) :
    KeepsAccounts (authorize a authority amount) := by
  unfold authorize
  refine (requireSigner' authority).bind fun _ => ite' (pure' _) ?_
  split
  · exact ite' (fail_bind' _ _) (ite' (pure' _) (fail' _))
  · exact fail' _

theorem withdraw_keeps (source mint : Address) (authority : Invoked) (amount : UInt64) :
    KeepsAccounts (withdraw source mint authority amount) := by
  unfold withdraw
  refine (tokenAccount_keeps source).bind fun a => ?_
  dsimp only
  exact ite' (fail_bind' _ _) (ite' (fail_bind' _ _)
    ((authorize_keeps a authority amount).bind fun _ => putTokenAccount_keeps source _))

theorem burn_keeps (source mint : Address) (authority : Invoked) (amount : UInt64) :
    KeepsAccounts (burn source mint authority amount) := by
  refine (withdraw_keeps source mint authority amount).bind fun _ => get'.bind fun s => ?_
  split
  · exact fail' _
  · exact (subAmount' _ _).bind fun _ => modify' fun _ => by rfl

theorem transferTokens_keeps (source mint destination : Address) (authority : Invoked)
    (amount : UInt64) : KeepsAccounts (transferTokens source mint destination authority amount) := by
  unfold transferTokens
  refine (tokenAccount_keeps destination).bind fun d => ?_
  dsimp only
  refine ite' (fail_bind' _ _) ((withdraw_keeps source mint authority amount).bind fun _ =>
    get'.bind fun s => ?_)
  split
  · exact pure' _
  · exact ite' (putTokenAccount_keeps _ _) (fail' _)

theorem mintTo_keeps (mint destination authority : Address) (amount : UInt64) :
    KeepsAccounts (mintTo mint destination authority amount) := by
  unfold mintTo
  refine get'.bind fun s => ?_
  dsimp only
  split
  · exact fail' _
  · exact ite' (fail_bind' _ _) (ite' (fail_bind' _ _) ((modify' fun _ => by rfl).bind fun _ =>
      (tokenAccount_keeps destination).bind fun a => ite' (fail_bind' _ _)
        ((addAmount' _ _).bind fun _ => putTokenAccount_keeps destination _)))

theorem processToken_keeps (accounts : List Invoked) (data : Bytes) :
    KeepsAccounts (processToken accounts data) := by
  unfold processToken
  dsimp only
  refine ite' (fail_bind' _ _) ((nth' _ _).bind fun _ => (nth' _ _).bind fun _ =>
    (nth' _ _).bind fun owner => (requireSigner' owner).bind fun _ => ?_)
  intro s u s' h
  rw [get_bind_run] at h
  split at h
  · exact absurd h fail_run_ne_ok
  · -- only the delegate of a token account is written
    split at h
    · exact absurd h fail_bind_run_ne_ok
    · rw [set_run_eq_ok.1 h]

end Tokens

end TokenBridge
