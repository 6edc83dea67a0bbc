import TokenBridge.Proofs.Aborts
/-!
Why the bridge program refuses a command.

A client classifies a refusal of the bridge program by its code alone (`ErrorCode.kind`):
`InvalidAmount` and `InvalidInput` are limit violations, `InvalidOwner` and `InvalidAuthority`
unauthorised signers. The program raises these codes in more places than limits and signers,
though. `InvalidInput` also refuses a bridge-out naming a token program other than its route's, and
a bridge-out to another chain whose source is the route's escrow; `InvalidOwner` also refuses a
route to the home chain opened on a mint whose authority is not the route's token authority.

Every other operation the handlers call (reading accounts and records, moving lamports and tokens)
refuses with no classified code (`Unclassified`), so the classified refusals of each handler are
exactly its own guards: `LimitRefusal` and `SignerRefusal` list them, and `process_refusal` shows
that every classified refusal of a bridge command is one of them.
-/

namespace TokenBridge

open BridgeProgram

/-! ### Classified codes -/

/-- How a client classifies a refusal of the bridge program with `e`. -/
def ErrorCode.kind : ErrorCode → RejectionKind
  | .invalidAmount | .invalidInput => .limitViolation
  | .invalidOwner | .invalidAuthority => .unauthorizedSigner
  | _ => .other

namespace ErrorCode

theorem ofCode?_eq_some_iff {n : UInt32} {e : ErrorCode} : ofCode? n = some e ↔ e.code = n := by
  constructor
  · intro h
    unfold ofCode? at h
    have hcode := List.find?_some h
    exact beq_iff_eq.1 hcode
  · rintro rfl
    exact ofCode?_code e

/-- No two error codes share a number. -/
theorem code_injective {e e' : ErrorCode} (h : e.code = e'.code) : e = e' :=
  Option.some.inj ((ofCode?_code e).symm.trans (h ▸ ofCode?_code e'))

end ErrorCode

/-- A rejection is classified by the named code of the bridge program, and is `other` for every
other program and every code without a name. -/
theorem Rejection.kind_eq (r : Rejection) :
    r.kind = if r.bridgeProgram then ((ErrorCode.ofCode? r.code).map ErrorCode.kind).getD .other
      else .other := by
  unfold Rejection.kind Rejection.error?
  cases r.bridgeProgram with
  | false => rfl
  | true =>
    cases ErrorCode.ofCode? r.code with
    | none => rfl
    | some e => cases e <;> rfl

/-- The token program's codes (1, 3, 4 and 14) and the system program's (0 and 1), read as codes
of the bridge program, are never classified. -/
theorem Failure.kind_ofCode_other {f : Failure} {n : UInt32} (hf : f.code? = some n)
    (hp : ∀ e, f ≠ .program e) {e : ErrorCode} (he : ErrorCode.ofCode? n = some e) :
    e.kind = .other := by
  rw [ErrorCode.ofCode?_eq_some_iff] at he
  subst he
  cases f with
  | program e' => exact absurd rfl (hp e')
  | token t => cases t <;> cases e <;> first | rfl | exact absurd hf (by decide)
  | system t => cases t <;> cases e <;> first | rfl | exact absurd hf (by decide)
  | runtime r => cases hf
  | abort => cases hf

/-! ### Computations that raise no classified code -/

/-- Every refusal of the bridge program that `x` makes, from any state, is of kind `other`. -/
def Unclassified {α : Type} (x : Exec α) : Prop :=
  ∀ s e, x.run s = .error (.program e) → e.kind = .other

namespace Unclassified

variable {α β : Type} {e : ErrorCode} {s : State}

theorem run_ne {x : Exec α} (hx : Unclassified x) (he : e.kind ≠ .other) :
    x.run s ≠ .error (.program e) :=
  fun h => he (hx s e h)

/-- The form in which `simp` takes a classified refusal of such a computation apart. -/
theorem run_eq {x : Exec α} (hx : Unclassified x) (he : e.kind ≠ .other) :
    x.run s = .error (.program e) ↔ False :=
  iff_false_intro (hx.run_ne he)

theorem pure' (a : α) : Unclassified (pure a : Exec α) := fun s _ h => by
  rw [StateT.run_pure] at h
  cases h

theorem get' : Unclassified (get : Exec State) := fun s _ h => by
  rw [StateT.run_get] at h
  cases h

theorem set' (t : State) : Unclassified (set t : Exec PUnit) := fun s _ h => by
  rw [StateT.run_set] at h
  cases h

theorem modify' (f : State → State) : Unclassified (modify f : Exec PUnit) := fun s _ h => by
  rw [StateT.run_modify] at h
  cases h

theorem bind {x : Exec α} {f : α → Exec β} (hx : Unclassified x) (hf : ∀ a, Unclassified (f a)) :
    Unclassified (x >>= f) := fun s e h => by
  rcases bind_run_eq_error.1 h with h | ⟨a, s', -, h⟩
  · exact hx s e h
  · exact hf a s' e h

theorem ite' {c : Prop} [Decidable c] {x y : Exec α} (hx : Unclassified x) (hy : Unclassified y) :
    Unclassified (if c then x else y) := by
  split
  · exact hx
  · exact hy

/-- A failure that is no classified refusal of the bridge program. -/
theorem fail' {f : Failure} (hf : ∀ e, f = .program e → e.kind = .other) :
    Unclassified (fail f : Exec α) := fun _ e h =>
  hf e (fail_run_eq_error.1 h)

theorem fail_bind' {f : Failure} (hf : ∀ e, f = .program e → e.kind = .other) (k : α → Exec β) :
    Unclassified (fail f >>= k) := fun s e h => by
  rcases bind_run_eq_error.1 h with h | ⟨_, _, h, -⟩
  · exact hf e (fail_run_eq_error.1 h)
  · exact absurd h fail_run_ne_ok

theorem program' {e : ErrorCode} (he : e.kind = .other) : Unclassified (fail (.program e) : Exec α) :=
  fail' fun _ h => by
    cases h
    exact he

theorem program_bind' {e : ErrorCode} (he : e.kind = .other) (k : α → Exec β) :
    Unclassified (fail (.program e) >>= k) :=
  fail_bind' (fun _ h => by
    cases h
    exact he) k

theorem runtime' (r : RuntimeError) : Unclassified (fail (.runtime r) : Exec α) :=
  fail' fun _ h => by cases h

theorem token' (t : TokenError) : Unclassified (fail (.token t) : Exec α) :=
  fail' fun _ h => by cases h

theorem system' (t : SystemError) : Unclassified (fail (.system t) : Exec α) :=
  fail' fun _ h => by cases h

theorem abort' : Unclassified (fail .abort : Exec α) :=
  fail' fun _ h => by cases h

end Unclassified

/-! ### Operations that raise no classified code -/

section Operations

open Unclassified

theorem nth_unclassified (accounts : List Invoked) (i : Nat) : Unclassified (nth accounts i) := by
  unfold nth
  split
  · exact pure' _
  · exact runtime' _

theorem requireSigner_unclassified (a : Invoked) : Unclassified (requireSigner a) :=
  ite' (pure' _) (runtime' _)

theorem ownedBy_unclassified (program key : Address) : Unclassified (ownedBy program key) := by
  refine get'.bind fun s => ?_
  split
  · exact ite' (pure' _) (runtime' _)
  · exact runtime' _

theorem readRecord_unclassified {α : Type} (decode : Bytes → Except CodecError α) (key : Address) :
    Unclassified (readRecord decode key) := by
  refine get'.bind fun s => ?_
  split
  · exact runtime' _
  · split
    · exact pure' _
    · exact runtime' _

theorem writeRecord_unclassified (program key : Address) (bytes : Bytes) :
    Unclassified (writeRecord program key bytes) := by
  refine get'.bind fun s => ?_
  split
  · exact ite' (set' _) (runtime' _)
  · exact runtime' _

/-- A missing mint is `ExpectedMint`, which is not classified. -/
theorem mintAt_unclassified (key : Address) : Unclassified (mintAt key) := by
  refine get'.bind fun s => ?_
  split
  · exact pure' _
  · exact program' rfl

theorem addAmount_unclassified (a b : UInt64) : Unclassified (addAmount a b) :=
  ite' (pure' _) abort'

theorem subAmount_unclassified (a b : UInt64) : Unclassified (subAmount a b) :=
  ite' (pure' _) abort'

theorem transferLamports_unclassified (source target : Address) (n : UInt64) :
    Unclassified (transferLamports source target n) := by
  refine .bind (get'.bind fun s => ?_) fun _ => get'.bind fun s =>
    (addAmount_unclassified _ _).bind fun _ => set' _
  split
  · exact runtime' _
  · exact ite' (set' _) (system' _)

theorem tokenAccount_unclassified (key : Address) : Unclassified (tokenAccount key) := by
  refine get'.bind fun s => ?_
  split
  · exact pure' _
  · exact runtime' _

theorem authorize_unclassified (a : TokenAccount) (authority : Invoked) (amount : UInt64) :
    Unclassified (authorize a authority amount) := by
  unfold authorize
  refine (requireSigner_unclassified authority).bind fun _ => ite' (pure' _) ?_
  split
  · exact ite' (fail_bind' (fun _ h => by cases h) _) (ite' (pure' _) (token' _))
  · exact token' _

theorem withdraw_unclassified (source mint : Address) (authority : Invoked) (amount : UInt64) :
    Unclassified (withdraw source mint authority amount) := by
  unfold withdraw
  refine (tokenAccount_unclassified source).bind fun a => ?_
  exact ite' (fail_bind' (fun _ h => by cases h) _) (ite' (fail_bind' (fun _ h => by cases h) _)
    ((authorize_unclassified a authority amount).bind fun _ => modify' _))

theorem burn_unclassified (source mint : Address) (authority : Invoked) (amount : UInt64) :
    Unclassified (burn source mint authority amount) := by
  unfold burn
  refine (withdraw_unclassified source mint authority amount).bind fun _ => get'.bind fun s => ?_
  split
  · exact runtime' _
  · exact (subAmount_unclassified _ _).bind fun _ => modify' _

theorem transferTokens_unclassified (source mint destination : Address) (authority : Invoked)
    (amount : UInt64) : Unclassified (transferTokens source mint destination authority amount) := by
  unfold transferTokens
  refine (tokenAccount_unclassified destination).bind fun d => ite' (fail_bind' (fun _ h => by cases h) _)
    ((withdraw_unclassified source mint authority amount).bind fun _ => get'.bind fun s => ?_)
  split
  · exact pure' _
  · exact ite' (modify' _) (token' _)

theorem mintTo_unclassified (mint destination authority : Address) (amount : UInt64) :
    Unclassified (mintTo mint destination authority amount) := by
  unfold mintTo
  refine get'.bind fun s => ?_
  split
  · exact runtime' _
  · refine ite' (fail_bind' (fun _ h => by cases h) _) (ite' (fail_bind' (fun _ h => by cases h) _)
      ((modify' _).bind fun _ => (tokenAccount_unclassified _).bind fun a => ?_))
    exact ite' (fail_bind' (fun _ h => by cases h) _)
      ((addAmount_unclassified _ _).bind fun _ => modify' _)

/-- A guard of a `do` block refuses with its failure, or the rest runs; the copy of the rest that
the block puts after the failure never runs. -/
theorem guard_run_eq_error {α β : Type} {c : Prop} [Decidable c] {f f' : Failure} {k : α → Exec β}
    {y : Exec β} {s : State} :
    (if c then fail f >>= k else y).run s = .error f' ↔ c ∧ f = f' ∨ ¬ c ∧ y.run s = .error f' := by
  by_cases hc : c
  · simp only [hc, if_true, true_and, not_true, false_and, or_false]
    rw [bind_run_eq_error, fail_run_eq_error]
    exact ⟨fun h => h.elim id fun ⟨_, _, h, _⟩ => absurd h fail_run_ne_ok, .inl⟩
  · simp only [hc, if_false, false_and, not_false_eq_true, true_and, false_or]

/-- The key check refuses with its own code, exactly when the key did not sign or is another. -/
theorem requireKey_run_eq_error {a : Invoked} {expected : Address} {code : ErrorCode} {s : State}
    {f : Failure} : (requireKey a expected code).run s = .error f ↔
      ¬ (a.signer = true ∧ a.key = expected) ∧ f = .program code := by
  unfold requireKey
  by_cases h : (a.signer && a.key == expected) = true
  · have hok : a.signer = true ∧ a.key = expected := by simpa using h
    rw [if_pos h]
    refine iff_of_false (fun hr => ?_) fun hc => hc.1 hok
    rw [StateT.run_pure] at hr
    cases hr
  · rw [if_neg h, fail_run_eq_error]
    simp only [Bool.and_eq_true, beq_iff_eq] at h
    exact ⟨fun hf => ⟨h, hf.symm⟩, fun hf => hf.2.symm⟩

end Operations

/-! ### The refusals that are classified -/

/-- A check that the key at one position of a command's accounts signed and is the one the config
at another position names. -/
structure KeyCheck where
  /-- Where the config account stands. -/
  config : Nat
  /-- Where the key that must sign stands. -/
  signer : Nat
  /-- The key of the config it must be. -/
  expected : Config → Address
  /-- The code of the refusal. -/
  code : ErrorCode

namespace KeyCheck

/-- The owner's check. -/
def owner (config signer : Nat) : KeyCheck := ⟨config, signer, Config.owner, .invalidOwner⟩

/-- The settling authority's check. -/
def authority (config signer : Nat) : KeyCheck :=
  ⟨config, signer, Config.authority, .invalidAuthority⟩

/-- The check fails on `accounts` at `s`: the key at the signer's position did not sign, or is not
the one that the config the program keeps at the config's position names. -/
def Refused (k : KeyCheck) (program : Address) (accounts : List Invoked) (s : State) : Prop :=
  ∃ c a config, accounts[k.config]? = some c ∧ configAt program s c.key = some config ∧
    accounts[k.signer]? = some a ∧ ¬ (a.signer = true ∧ a.key = k.expected config)

end KeyCheck

namespace Command

/-- The key check of each command. -/
def keyCheck : Command → Option KeyCheck
  | .transferOwner | .changeAuthority | .changeFee _ => some (.owner 0 1)
  | .changeLimit .. => some (.owner 0 2)
  | .create .. => some (.owner 6 5)
  | .settle _ => some (.authority 7 4)
  | .config _ | .bridge .. => none

/-- The limits, maximum and minimum, that a command sets. -/
def limits? : Command → Option (UInt64 × UInt64)
  | .create _ max min | .changeLimit max min => some (max, min)
  | _ => none

end Command

/-- Why the bridge program refuses a command on `accounts` at `s` with a code classified as a limit
violation. -/
inductive LimitRefusal (program : Address) (accounts : List Invoked) (s : State) :
    Command → ErrorCode → Prop
  /-- New limits with the minimum above the maximum. -/
  | limitsInverted {cmd : Command} {max min : UInt64} :
      cmd.limits? = some (max, min) → max < min → LimitRefusal program accounts s cmd .invalidInput
  /-- A bridge-out of an amount outside its route's limits. -/
  | amountOutside {amount : UInt64} {recipient : String} {payload : Bytes} {r : Invoked}
      {route : Route} :
      accounts[0]? = some r → routeAt program s r.key = some route →
      route.acceptsAmount amount = false →
      LimitRefusal program accounts s (.bridge amount recipient payload) .invalidAmount
  /-- A bridge-out naming a token program other than its route's. -/
  | otherTokenProgram {amount : UInt64} {recipient : String} {payload : Bytes} {r t : Invoked}
      {route : Route} :
      accounts[0]? = some r → routeAt program s r.key = some route → accounts[5]? = some t →
      t.key ≠ route.tokenProgram →
      LimitRefusal program accounts s (.bridge amount recipient payload) .invalidInput
  /-- A bridge-out to another chain whose source is the route's escrow. -/
  | escrowAsSource {amount : UInt64} {recipient : String} {payload : Bytes}
      {r escrow user : Invoked} {route : Route} :
      accounts[0]? = some r → routeAt program s r.key = some route → route.destination ≠ 0 →
      accounts[1]? = some escrow → accounts[2]? = some user → user.key = escrow.key →
      LimitRefusal program accounts s (.bridge amount recipient payload) .invalidInput

/-- Why the bridge program refuses a command on `accounts` at `s` with a code classified as an
unauthorised signer. -/
inductive SignerRefusal (program : Address) (accounts : List Invoked) (s : State) :
    Command → ErrorCode → Prop
  /-- The command's key check fails. -/
  | keyRefused {cmd : Command} {k : KeyCheck} :
      cmd.keyCheck = some k → k.Refused program accounts s → SignerRefusal program accounts s cmd k.code
  /-- A route to the home chain opened on a mint whose authority is not the route's token
  authority. -/
  | mintAuthority {max min : UInt64} {authority mint : Invoked} {m : Mint} :
      accounts[1]? = some authority → accounts[2]? = some mint → s.mints.get? mint.key = some m →
      m.authority ≠ some authority.key →
      SignerRefusal program accounts s (.create 0 max min) .invalidOwner

section Kinds

variable {program : Address} {accounts : List Invoked} {s : State} {cmd : Command} {e : ErrorCode}

theorem LimitRefusal.kind (h : LimitRefusal program accounts s cmd e) : e.kind = .limitViolation := by
  cases h <;> rfl

theorem SignerRefusal.kind (h : SignerRefusal program accounts s cmd e) :
    e.kind = .unauthorizedSigner := by
  cases h with
  | keyRefused hk _ => cases cmd <;> cases hk <;> rfl
  | mintAuthority => rfl

end Kinds

/-! ### Each handler's classified refusals -/

section Handlers

variable {program : Address} {accounts : List Invoked} {s : State} {e : ErrorCode}

open Unclassified

theorem changeKey_refusal {ofOwner : Bool}
    (h : (changeKey program accounts ofOwner).run s = .error (.program e)) (he : e.kind ≠ .other) :
    e = .invalidOwner ∧ (KeyCheck.owner 0 1).Refused program accounts s := by
  unfold changeKey at h
  simp only [bind_run_eq_error, (nth_unclassified _ _).run_eq he, (ownedBy_unclassified _ _).run_eq he,
    (readRecord_unclassified _ _).run_eq he, (writeRecord_unclassified _ _ _).run_eq he,
    (pure' _).run_eq he, false_or, or_false, and_false, exists_false, nth_run_eq_ok,
    ownedBy_run_eq_ok, readRecord_run_eq_ok, requireKey_run_eq_error, Failure.program.injEq,
    and_assoc, exists_and_left, exists_and_right, exists_eq_left, exists_const] at h
  obtain ⟨c, h0, o, h1, -, ho, config, hr, -, hk, rfl⟩ := h
  exact ⟨rfl, c, o, config, h0, recordAt_of_read ho hr, h1, hk⟩

theorem changeFee_refusal {fee : UInt64}
    (h : (changeFee program accounts fee).run s = .error (.program e)) (he : e.kind ≠ .other) :
    e = .invalidOwner ∧ (KeyCheck.owner 0 1).Refused program accounts s := by
  unfold changeFee at h
  simp only [bind_run_eq_error, (nth_unclassified _ _).run_eq he, (ownedBy_unclassified _ _).run_eq he,
    (readRecord_unclassified _ _).run_eq he, (writeRecord_unclassified _ _ _).run_eq he,
    (pure' _).run_eq he, ite_run_eq_error, false_or, or_false, and_false, exists_false,
    nth_run_eq_ok, ownedBy_run_eq_ok, readRecord_run_eq_ok, requireKey_run_eq_error,
    Failure.program.injEq, and_assoc, exists_and_left, exists_and_right, exists_eq_left,
    exists_const] at h
  obtain ⟨c, h0, o, h1, ho, config, hr, -, hk, rfl⟩ := h
  exact ⟨rfl, c, o, config, h0, recordAt_of_read ho hr, h1, hk⟩

theorem changeLimit_refusal {max min : UInt64}
    (h : (changeLimit program accounts max min).run s = .error (.program e)) (he : e.kind ≠ .other) :
    e = .invalidInput ∧ max < min ∨
      e = .invalidOwner ∧ (KeyCheck.owner 0 2).Refused program accounts s := by
  unfold changeLimit at h
  simp only [↓guard_run_eq_error, bind_run_eq_error, (nth_unclassified _ _).run_eq he,
    (ownedBy_unclassified _ _).run_eq he, (readRecord_unclassified _ _).run_eq he,
    (writeRecord_unclassified _ _ _).run_eq he, (pure' _).run_eq he, false_or, or_false, and_false,
    exists_false, nth_run_eq_ok, ownedBy_run_eq_ok, readRecord_run_eq_ok, requireKey_run_eq_error,
    Failure.program.injEq, and_assoc, exists_and_left, exists_and_right, exists_eq_left,
    exists_const] at h
  rcases h with ⟨hlt, rfl⟩ | ⟨-, c, h0, _, -, o, h2, ho, -, config, hr, ⟨hk, rfl⟩ | ⟨-, -, -, -, -, -, -, rfl⟩⟩
  · exact .inl ⟨rfl, hlt⟩
  · exact .inr ⟨rfl, c, o, config, h0, recordAt_of_read ho hr, h2, hk⟩
  · exact absurd rfl he

theorem settle_refusal {amount : UInt64}
    (h : (settle program accounts amount).run s = .error (.program e)) (he : e.kind ≠ .other) :
    e = .invalidAuthority ∧ (KeyCheck.authority 7 4).Refused program accounts s := by
  unfold settle at h
  simp only [↓guard_run_eq_error, bind_run_eq_error, (nth_unclassified _ _).run_eq he,
    (ownedBy_unclassified _ _).run_eq he, (readRecord_unclassified _ _).run_eq he, false_or,
    nth_run_eq_ok, ownedBy_run_eq_ok, readRecord_run_eq_ok, requireKey_run_eq_error,
    Failure.program.injEq, and_assoc, exists_and_left, exists_eq_left, exists_const] at h
  obtain ⟨_, -, _, -, _, -, _, -, a4, h4, _, -, c, h7, -, config, hcr, hco, route, -, h⟩ := h
  rcases h with ⟨-, rfl⟩ | ⟨-, ⟨hk, rfl⟩ | ⟨_, s', -, h⟩⟩
  · exact absurd rfl he
  · exact ⟨rfl, c, a4, config, h7, recordAt_of_read hco hcr, h4, hk⟩
  -- past the key check, settling raises no classified code
  refine absurd h (Unclassified.run_ne ?_ he)
  split
  · exact program' rfl
  · exact ite' (program_bind' rfl _) ((mintAt_unclassified _).bind fun _ =>
      ite' ((mintTo_unclassified _ _ _ _).bind fun _ => pure' _)
        ((transferTokens_unclassified _ _ _ _ _).bind fun _ => pure' _))

theorem create_refusal {destination : UInt32} {max min : UInt64}
    (h : (create program accounts destination max min).run s = .error (.program e))
    (he : e.kind ≠ .other) :
    LimitRefusal program accounts s (.create destination max min) e ∨
      SignerRefusal program accounts s (.create destination max min) e := by
  unfold create at h
  simp only [↓guard_run_eq_error, bind_run_eq_error, (nth_unclassified _ _).run_eq he,
    (ownedBy_unclassified _ _).run_eq he, (readRecord_unclassified _ _).run_eq he, false_or,
    nth_run_eq_ok, ownedBy_run_eq_ok, readRecord_run_eq_ok, requireKey_run_eq_error,
    Failure.program.injEq, and_assoc, exists_and_left, exists_eq_left, exists_const] at h
  obtain ⟨r, h0, ta, h1, mint, h2, _, -, _, -, o, h5, c, h6, h⟩ := h
  rcases h with ⟨hlt, rfl⟩ | ⟨-, config, hcr, hco, ⟨hk, rfl⟩ | ⟨_, _, hok, existing, -, ⟨-, rfl⟩ | ⟨-, h⟩⟩⟩
  · exact .inl (.limitsInverted rfl hlt)
  · exact .inr (.keyRefused (k := .owner 6 5) rfl ⟨c, o, config, h6, recordAt_of_read hco hcr, h5, hk⟩)
  · exact absurd rfl he
  obtain ⟨-, -, rfl⟩ := requireKey_run_eq_ok.1 hok
  split at h
  · cases fail_run_eq_error.1 h
  rw [guard_run_eq_error] at h
  rcases h with ⟨-, ⟨⟩⟩ | ⟨-, h⟩
  · exact absurd rfl he
  by_cases hd : destination = 0
  · -- a route to the home chain: the mint's authority is the one classified check left
    subst hd
    simp only [bne_self_eq_false, Bool.false_eq_true, if_false, ↓guard_run_eq_error,
      bind_run_eq_error, (mintAt_unclassified _).run_eq he, (writeRecord_unclassified _ _ _).run_eq he,
      (pure' _).run_eq he, mintAt_run_eq_ok, Failure.program.injEq, false_or, or_false, and_false,
      exists_false, and_assoc, exists_and_left, exists_eq_left] at h
    obtain ⟨m, hm, hne, rfl⟩ := h
    exact .inr (.mintAuthority h1 h2 hm (by simpa using hne))
  · rw [if_pos (by simpa using hd)] at h
    refine absurd h (Unclassified.run_ne (get'.bind fun _ => ?_) he)
    split
    · exact program_bind' rfl _
    · exact ite' (program_bind' rfl _) ((writeRecord_unclassified _ _ _).bind fun _ => pure' _)

theorem bridgeOut_refusal {amount : UInt64} {recipient : String} {payload : Bytes}
    (h : (bridgeOut program accounts amount recipient payload).run s = .error (.program e))
    (he : e.kind ≠ .other) :
    LimitRefusal program accounts s (.bridge amount recipient payload) e := by
  unfold bridgeOut at h
  simp only [↓guard_run_eq_error, ite_run_eq_error, bind_run_eq_error,
    (nth_unclassified _ _).run_eq he, (ownedBy_unclassified _ _).run_eq he,
    (readRecord_unclassified _ _).run_eq he, (mintAt_unclassified _).run_eq he,
    (requireSigner_unclassified _).run_eq he, (transferLamports_unclassified _ _ _).run_eq he,
    (burn_unclassified _ _ _ _).run_eq he, (transferTokens_unclassified _ _ _ _ _).run_eq he,
    (addAmount_unclassified _ _).run_eq he, (writeRecord_unclassified _ _ _).run_eq he,
    (pure' _).run_eq he, false_or, or_false, and_false, exists_false, nth_run_eq_ok,
    ownedBy_run_eq_ok, readRecord_run_eq_ok, mintAt_run_eq_ok, Failure.program.injEq, and_assoc,
    exists_and_left, exists_eq_left, exists_const] at h
  obtain ⟨r, h0, esc, h1, user, h2, _, -, _, -, t, h5, _, -, _, -, -, hro, route, hrr, h⟩ := h
  have hroute : routeAt program s r.key = some route := routeAt_of_read hro hrr
  rcases h with ⟨-, rfl⟩ | ⟨-, ⟨htp, rfl⟩ | ⟨-, ⟨hamt, rfl⟩ | ⟨-, ⟨-, rfl⟩ | ⟨-, _, -, h⟩⟩⟩⟩
  · exact absurd rfl he
  · exact .otherTokenProgram h0 hroute h5 (by simpa using htp)
  · exact .amountOutside h0 hroute (by simpa using hamt)
  · exact absurd rfl he
  -- with or without a fee, what is left is the escrow as source
  obtain ⟨hd, heq, rfl⟩ : route.destination ≠ 0 ∧ user.key = esc.key ∧ e = .invalidInput := by
    rcases h with ⟨-, _, -, _, -, ⟨-, rfl⟩ | ⟨-, _, _, -, _, _, -, hd, heq, rfl⟩⟩ | ⟨-, hd, heq, rfl⟩
    · exact absurd rfl he
    all_goals exact ⟨by simpa using hd, by simpa using heq, rfl⟩
  exact .escrowAsSource h0 hroute hd h1 h2 heq

end Handlers

/-! ### Bridge commands -/

section Process

variable {program : Address} {accounts : List Invoked} {s : State} {e : ErrorCode}

open Unclassified

/-- Setting up a config refuses only a config already in use. -/
theorem setUp_unclassified (program : Address) (accounts : List Invoked) (fee : UInt64) :
    Unclassified (setUp program accounts fee) := by
  unfold setUp
  exact (nth_unclassified _ _).bind fun _ => (nth_unclassified _ _).bind fun _ =>
    (nth_unclassified _ _).bind fun _ => (nth_unclassified _ _).bind fun _ =>
    (readRecord_unclassified _ _).bind fun _ =>
    ite' (program_bind' rfl _) ((writeRecord_unclassified _ _ _).bind fun _ => pure' _)

/-- Every classified refusal of a bridge command is one of the refusals its command lists. -/
theorem process_refusal {data : Bytes}
    (h : (process program accounts data).run s = .error (.program e)) (he : e.kind ≠ .other) :
    ∃ cmd, Command.unpack data = .ok cmd ∧
      (LimitRefusal program accounts s cmd e ∨ SignerRefusal program accounts s cmd e) := by
  unfold process at h
  split at h
  · cases fail_run_eq_error.1 h
  all_goals
    rename_i hcmd
    refine ⟨_, hcmd, ?_⟩
  · exact absurd h ((setUp_unclassified _ _ _).run_ne he)
  · obtain ⟨rfl, hk⟩ := changeKey_refusal h he
    exact .inr (.keyRefused (k := .owner 0 1) rfl hk)
  · obtain ⟨rfl, hk⟩ := changeKey_refusal h he
    exact .inr (.keyRefused (k := .owner 0 1) rfl hk)
  · obtain ⟨rfl, hk⟩ := changeFee_refusal h he
    exact .inr (.keyRefused (k := .owner 0 1) rfl hk)
  · rcases changeLimit_refusal h he with ⟨rfl, hlt⟩ | ⟨rfl, hk⟩
    · exact .inl (.limitsInverted rfl hlt)
    · exact .inr (.keyRefused (k := .owner 0 2) rfl hk)
  · exact create_refusal h he
  · exact .inl (bridgeOut_refusal h he)
  · obtain ⟨rfl, hk⟩ := settle_refusal h he
    exact .inr (.keyRefused (k := .authority 7 4) rfl hk)

/-- A refusal of a bridge command is classified as a limit violation exactly when it is one of the
limit refusals of its command, and as an unauthorised signer exactly when it is one of its signer
refusals. -/
theorem process_refusal_kind {data : Bytes}
    (h : (process program accounts data).run s = .error (.program e)) :
    (e.kind = .limitViolation ↔
        ∃ cmd, Command.unpack data = .ok cmd ∧ LimitRefusal program accounts s cmd e) ∧
      (e.kind = .unauthorizedSigner ↔
        ∃ cmd, Command.unpack data = .ok cmd ∧ SignerRefusal program accounts s cmd e) := by
  refine ⟨⟨fun hk => ?_, fun ⟨_, _, hr⟩ => hr.kind⟩, ⟨fun hk => ?_, fun ⟨_, _, hr⟩ => hr.kind⟩⟩
  · obtain ⟨cmd, hcmd, hr | hr⟩ := process_refusal h (by rw [hk]; decide)
    · exact ⟨cmd, hcmd, hr⟩
    · exact absurd (hk.symm.trans hr.kind) (by decide)
  · obtain ⟨cmd, hcmd, hr | hr⟩ := process_refusal h (by rw [hk]; decide)
    · exact absurd (hk.symm.trans hr.kind) (by decide)
    · exact ⟨cmd, hcmd, hr⟩

end Process

end TokenBridge
