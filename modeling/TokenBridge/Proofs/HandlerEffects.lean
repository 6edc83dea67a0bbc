import TokenBridge.Proofs.TokenEffects
import TokenBridge.Proofs.Handlers
/-!
Everything a command of the bridge program or of the system program does, one lemma each.

`Handlers` reads off the handlers what they do to the routes. Here each handler gets its whole
effect (`setUp_effect`, `changeKey_effect`, ..., `settle_effect`): the checks it passed, as
hypotheses on the accounts it named and the records it read, and the state it left, as the one
`writeRecord` it ended with and, for a bridge-out or a settlement, the token operation it ran.
Later proofs take a command apart with these alone. For a bridge-out and a settlement the effect
is also enough for the command to go through (`bridgeOut_run_eq_ok_iff`, `settle_run_eq_ok_iff`).

The records a program keeps are read through one view, `recordAt`: a config where the data
decodes as a config (`configAt`), a route where it decodes as a route (`routeAt`). A write, a
move of lamports and a new account touch these views only where the lemmas below say.
-/

namespace TokenBridge

open BridgeProgram

/-! ### Records kept by the program -/

/-- A buffer of another length than a config's is no config. -/
theorem Config.decode_toOption_of_length {b : Bytes} (hb : b.length ≠ Config.size) :
    (Config.decode b).toOption = none := by
  cases hc : Config.decode b with
  | error e => rfl
  | ok c => exact absurd (by rw [Config.decode_eq_ok_iff.1 hc, Config.length_encode]) hb

/-- A buffer of another length than a route's is no route. -/
theorem Route.decode_toOption_of_length {b : Bytes} (hb : b.length ≠ Route.size) :
    (Route.decode b).toOption = none := by
  cases hr : Route.decode b with
  | error e => rfl
  | ok r => exact absurd (by rw [Route.decode_eq_ok_iff.1 hr, Route.length_encode]) hb

/-- The record that `program` keeps at `key`, read by `decode`: what the account's data decodes
to, when the program owns the account. -/
def recordAt {α : Type} (decode : Bytes → Except CodecError α) (program : Address) (s : State)
    (key : Address) : Option α :=
  match s.accounts.get? key with
  | some a => if a.owner = program then (decode a.data).toOption else none
  | none => none

/-- The config that `program` keeps at `key`. -/
def configAt (program : Address) (s : State) (key : Address) : Option Config :=
  recordAt Config.decode program s key

section Records

variable {α : Type} {decode : Bytes → Except CodecError α} {program key : Address} {s s' : State}

theorem routeAt_eq_recordAt : routeAt program s key = recordAt Route.decode program s key := rfl

theorem recordAt_eq_some {r : α} :
    recordAt decode program s key = some r ↔
      ∃ a, s.accounts.get? key = some a ∧ a.owner = program ∧ decode a.data = .ok r := by
  unfold recordAt
  cases s.accounts.get? key with
  | none => simp
  | some a =>
    by_cases ho : a.owner = program
    · cases hd : decode a.data <;> simp [ho, hd, Except.toOption]
    · simp [ho]

/-- A record read from an account the program owns is the record there. -/
theorem recordAt_of_read {r : α} (ho : ∃ a, s.accounts.get? key = some a ∧ a.owner = program)
    (hr : ∃ a, s.accounts.get? key = some a ∧ decode a.data = .ok r) :
    recordAt decode program s key = some r := by
  obtain ⟨a, ha, hao⟩ := ho
  obtain ⟨a', ha', hd⟩ := hr
  rw [ha] at ha'
  cases ha'
  exact recordAt_eq_some.2 ⟨a, ha, hao, hd⟩

theorem recordAt_of_accounts (h : s'.accounts = s.accounts) :
    recordAt decode program s' = recordAt decode program s := by
  funext k
  simp only [recordAt, h]

/-- Storing an account with the same owner and data keeps every record. -/
theorem recordAt_set_same {a a' : Account} (ha : s.accounts.get? key = some a)
    (ho : a'.owner = a.owner) (hd : a'.data = a.data) :
    recordAt decode program { s with accounts := s.accounts.set key a' } =
      recordAt decode program s := by
  funext k
  by_cases hk : k = key
  · subst hk
    simp [recordAt, ha, ho, hd]
  · simp [recordAt, hk]

/-- Storing bytes at `key` puts there the record they decode to, and leaves every other record. -/
theorem recordAt_writeRecord {bytes : Bytes} {u : Unit}
    (h : (writeRecord program key bytes).run s = .ok (u, s')) :
    recordAt decode program s' key = (decode bytes).toOption ∧
      ∀ k, k ≠ key → recordAt decode program s' k = recordAt decode program s k := by
  obtain ⟨a, ha, ho, rfl⟩ := writeRecord_run_eq_ok.1 h
  exact ⟨by simp [recordAt, ho], fun k hk => by simp [recordAt, hk]⟩

theorem debit_recordAt {source : Address} {n : UInt64} {u : Unit}
    (h : (debit source n).run s = .ok (u, s')) :
    recordAt decode program s' = recordAt decode program s := by
  obtain ⟨a, ha, -, rfl⟩ := debit_run_eq_ok.1 h
  exact recordAt_set_same ha rfl rfl

theorem credit_recordAt (hnil : (decode []).toOption = none) {target : Address} {n : UInt64}
    {u : Unit} (h : (credit target n).run s = .ok (u, s')) :
    recordAt decode program s' = recordAt decode program s := by
  obtain ⟨-, rfl⟩ := credit_run_eq_ok.1 h
  cases ha : s.accounts.get? target with
  | some a =>
    rw [Option.getD_some]
    exact recordAt_set_same ha rfl rfl
  | none =>
    -- a plain account appears, and its empty data holds no record
    funext k
    by_cases hk : k = target
    · subst hk
      simp [recordAt, ha, hnil]
    · simp [recordAt, hk]

/-- Moving lamports keeps every record that no empty account holds. -/
theorem transferLamports_recordAt (hnil : (decode []).toOption = none) {source target : Address}
    {n : UInt64} {u : Unit} (h : (transferLamports source target n).run s = .ok (u, s')) :
    recordAt decode program s' = recordAt decode program s := by
  obtain ⟨s₁, h₁, h₂⟩ := transferLamports_run_eq_ok.1 h
  rw [credit_recordAt hnil h₂, debit_recordAt h₁]

end Records

/-! ### What each command does -/

section Effects

variable {program : Address} {accounts : List Invoked} {s s' : State} {lines : List String}

/-- Setting up a config goes through only on a config the program keeps that is not initialized,
and stores the new config there. -/
theorem setUp_effect {fee : UInt64} (h : (setUp program accounts fee).run s = .ok (lines, s')) :
    lines = [] ∧ ∃ (ck owner authority collector : Address) (c : Config),
      (accounts[0]?).map Invoked.key = some ck ∧ (accounts[1]?).map Invoked.key = some owner ∧
      (accounts[2]?).map Invoked.key = some authority ∧
      (accounts[3]?).map Invoked.key = some collector ∧
      configAt program s ck = some c ∧ c.initialized = false ∧
      (writeRecord program ck (Config.encode ⟨true, owner, authority, fee, collector⟩)).run s =
        .ok ((), s') := by
  unfold setUp at h
  simp only [bind_run_eq_ok, nth_run_eq_ok, readRecord_run_eq_ok, ite_fail_bind_run_eq_ok,
    pure_run_eq_ok, and_assoc, exists_and_left, exists_eq_left] at h
  obtain ⟨ck, h0, ow, h1, au, h2, co, h3, c, hread, hinit, _, s₁, hw, rfl, rfl⟩ := h
  obtain ⟨a, ha, hao, -⟩ := writeRecord_run_eq_ok.1 hw
  exact ⟨rfl, ck.key, ow.key, au.key, co.key, c, by simp [h0], by simp [h1], by simp [h2],
    by simp [h3], recordAt_of_read ⟨a, ha, hao⟩ hread, by simpa using hinit, hw⟩

/-- Handing the config to a new owner, or naming a new authority, goes through only on the word
of the config's owner, and changes that one key. -/
theorem changeKey_effect {ofOwner : Bool}
    (h : (changeKey program accounts ofOwner).run s = .ok (lines, s')) :
    ∃ (ck target : Address) (owner : Invoked) (c : Config),
      (accounts[0]?).map Invoked.key = some ck ∧ accounts[1]? = some owner ∧
      (accounts[2]?).map Invoked.key = some target ∧
      configAt program s ck = some c ∧ owner.signer = true ∧ owner.key = c.owner ∧
      (writeRecord program ck
        (if ofOwner then { c with owner := target } else { c with authority := target }).encode).run s =
          .ok ((), s') ∧
      lines = [logLine (if ofOwner then "Owner change to " ++ target.toBase58
        else "Authority change to " ++ target.toBase58)] := by
  unfold changeKey at h
  simp only [bind_run_eq_ok, nth_run_eq_ok, readRecord_run_eq_ok, ownedBy_run_eq_ok,
    requireKey_run_eq_ok, pure_run_eq_ok, and_assoc, exists_and_left, exists_eq_left] at h
  obtain ⟨ck, h0, ow, h1, tg, h2, hown, _, c, hread, hsig, hkey, _, _, s₁, hw, rfl, rfl⟩ := h
  refine ⟨ck.key, tg.key, ow, c, by simp [h0], h1, by simp [h2], recordAt_of_read hown hread, hsig,
    hkey, ?_⟩
  cases ofOwner
  · exact ⟨hw, rfl⟩
  · exact ⟨hw, rfl⟩

/-- A new fee goes through only on the word of the config's owner; it names the third account as
collector when the fee is above zero, and keeps the collector otherwise. -/
theorem changeFee_effect {fee : UInt64}
    (h : (changeFee program accounts fee).run s = .ok (lines, s')) :
    lines = [] ∧ ∃ (ck collector : Address) (owner : Invoked) (c : Config),
      (accounts[0]?).map Invoked.key = some ck ∧ accounts[1]? = some owner ∧
      configAt program s ck = some c ∧ owner.signer = true ∧ owner.key = c.owner ∧
      (0 < fee → (accounts[2]?).map Invoked.key = some collector) ∧
      (writeRecord program ck
        (if 0 < fee then { c with fee, feeCollector := collector } else { c with fee }).encode).run s =
          .ok ((), s') := by
  unfold changeFee at h
  simp only [bind_run_eq_ok, nth_run_eq_ok, readRecord_run_eq_ok, ownedBy_run_eq_ok,
    requireKey_run_eq_ok, and_assoc, exists_and_left, exists_eq_left] at h
  obtain ⟨ck, h0, ow, h1, hown, _, c, hread, hsig, hkey, _, h⟩ := h
  split at h
  · rename_i hfee
    simp only [bind_run_eq_ok, nth_run_eq_ok, pure_run_eq_ok] at h
    obtain ⟨co, _, ⟨h2, rfl⟩, _, s₁, hw, rfl, rfl⟩ := h
    refine ⟨rfl, ck.key, co.key, ow, c, by simp [h0], h1, recordAt_of_read hown hread, hsig, hkey,
      fun _ => by simp [h2], ?_⟩
    rwa [if_pos hfee]
  · rename_i hfee
    simp only [bind_run_eq_ok, pure_run_eq_ok] at h
    obtain ⟨_, s₁, hw, rfl, rfl⟩ := h
    refine ⟨rfl, ck.key, c.feeCollector, ow, c, by simp [h0], h1, recordAt_of_read hown hread, hsig,
      hkey, fun hpos => absurd hpos hfee, ?_⟩
    rwa [if_neg hfee]

/-- New limits go through only when the minimum is at most the maximum, on a route the program
keeps that names the config the first account names, and on the word of that config's owner;
they change the limits of that route only. -/
theorem changeLimit_effect {max min : UInt64}
    (h : (changeLimit program accounts max min).run s = .ok (lines, s')) :
    lines = [] ∧ min ≤ max ∧ ∃ (ck rk : Address) (owner : Invoked) (c : Config) (r : Route),
      (accounts[0]?).map Invoked.key = some ck ∧ (accounts[1]?).map Invoked.key = some rk ∧
      accounts[2]? = some owner ∧ configAt program s ck = some c ∧ owner.signer = true ∧
      owner.key = c.owner ∧ routeAt program s rk = some r ∧ r.config = ck ∧
      (writeRecord program rk { r with max, min }.encode).run s = .ok ((), s') := by
  unfold changeLimit at h
  simp only [bind_run_eq_ok, nth_run_eq_ok, readRecord_run_eq_ok, ownedBy_run_eq_ok,
    requireKey_run_eq_ok, ite_fail_bind_run_eq_ok, pure_run_eq_ok, and_assoc, exists_and_left,
    exists_eq_left] at h
  obtain ⟨hle, ck, h0, rk, h1, ow, h2, hco, hro, _, _, c, hcd, hsig, hkey, _, r, hrd, hcfg, _, s₁, hw,
    rfl, rfl⟩ := h
  exact ⟨rfl, by simpa using hle, ck.key, rk.key, ow, c, r, by simp [h0], by simp [h1], h2,
    recordAt_of_read hco hcd, hsig, hkey, routeAt_of_read hro hrd, by simpa using hcfg, hw⟩

/-- A create goes through only when the minimum is at most the maximum, on the word of the owner of
the config the seventh account names, on a route the program keeps that is not initialized; it
stores there a new route, initialized, at index 0, with the limits given. -/
theorem create_effect {destination : UInt32} {max min : UInt64}
    (h : (create program accounts destination max min).run s = .ok (lines, s')) :
    lines = [] ∧ min ≤ max ∧
      ∃ (rk ta mint escrow tp ck : Address) (owner : Invoked) (c : Config) (existing : Route)
        (bump : UInt8),
      (accounts[0]?).map Invoked.key = some rk ∧ (accounts[1]?).map Invoked.key = some ta ∧
      (accounts[2]?).map Invoked.key = some mint ∧ (accounts[3]?).map Invoked.key = some escrow ∧
      (accounts[4]?).map Invoked.key = some tp ∧ accounts[5]? = some owner ∧
      (accounts[6]?).map Invoked.key = some ck ∧
      configAt program s ck = some c ∧ owner.signer = true ∧ owner.key = c.owner ∧
      routeAt program s rk = some existing ∧ existing.initialized = false ∧
      Address.findProgramAddress [rk.bytes] program = some (ta, bump) ∧
      (writeRecord program rk
        (Route.encode ⟨true, bump, tp, ck, escrow, mint, destination, 0, max, min⟩)).run s =
          .ok ((), s') := by
  unfold create at h
  simp only [bind_run_eq_ok, nth_run_eq_ok, readRecord_run_eq_ok, ownedBy_run_eq_ok,
    requireKey_run_eq_ok, ite_fail_bind_run_eq_ok, and_assoc, exists_and_left,
    exists_eq_left] at h
  obtain ⟨rk, h0, ta, h1, mint, h2, esc, h3, tp, h4, ow, h5, ck, h6, hle, c, hcd, hco, hsig, hkey,
    _, _, existing, hrd, hinit, h⟩ := h
  split at h
  · exact absurd h fail_run_ne_ok
  rename_i expected bump hfind
  obtain ⟨hta, h⟩ := ite_fail_bind_run_eq_ok.1 h
  -- every way through the checks on the token side only reads, then stores the new route
  have hstore : (do
      writeRecord program rk.key
        (Route.encode ⟨true, bump, tp.key, ck.key, esc.key, mint.key, destination, 0, max, min⟩)
      pure [] : Exec (List String)).run s = .ok (lines, s') := by
    split at h
    · rw [get_bind_run] at h
      split at h
      · exact absurd h fail_bind_run_ne_ok
      · exact (ite_fail_bind_run_eq_ok.1 h).2
    · obtain ⟨_, _, hm, h⟩ := bind_run_eq_ok.1 h
      rw [(mintAt_run_eq_ok.1 hm).2] at h
      exact (ite_fail_bind_run_eq_ok.1 h).2
  obtain ⟨_, s₁, hw, h⟩ := bind_run_eq_ok.1 hstore
  obtain ⟨rfl, rfl⟩ := pure_run_eq_ok.1 h
  obtain ⟨a, ha, hao, -⟩ := writeRecord_run_eq_ok.1 hw
  exact ⟨rfl, by simpa using hle, rk.key, ta.key, mint.key, esc.key, tp.key, ck.key, ow, c, existing,
    bump, by simp [h0], by simp [h1], by simp [h2], by simp [h3], by simp [h4], h5, by simp [h6],
    recordAt_of_read hco hcd, hsig, hkey, routeAt_of_read ⟨a, ha, hao⟩ hrd, by simpa using hinit,
    by rw [show ta.key = expected by simpa using hta]; exact hfind, hw⟩

/-- `s'` is `s` once the fee of `config` has moved: nothing moves when the fee is 0; otherwise the
fee goes from the eighth account, which signed, to the ninth, the config's collector. -/
def FeeMoved (accounts : List Invoked) (config : Config) (s s' : State) : Prop :=
  (config.fee = 0 ∧ s' = s) ∨
    (0 < config.fee ∧ ∃ payer, accounts[7]? = some payer ∧ payer.signer = true ∧
      (accounts[8]?).map Invoked.key = some config.feeCollector ∧
      (transferLamports payer.key config.feeCollector config.fee).run s = .ok ((), s'))

/-- The end of a bridge-out: the tokens leave the user's account, burnt on a route to the home
chain and moved into the escrow otherwise; then the route's index moves on by one. -/
theorem bridgeOut_finish_effect {routeKey escrow user mint : Address} {authority : Invoked}
    {route : Route} {recipient : String} {payload : Bytes} {amount fee : UInt64}
    (h : (do
      if route.destination == 0 then
        burn user mint authority amount
      else
        if user == escrow then fail (.program .invalidInput)
        transferTokens user mint escrow authority amount
      let index ← addAmount route.index 1
      writeRecord program routeKey { route with index }.encode
      let log : TransferLog :=
        ⟨route.mint, index, user, recipient, amount, fee, route.destination, payload⟩
      pure [logLine (LogLine.ofLog log)] : Exec (List String)).run s = .ok (lines, s')) :
    ∃ s₂, ((route.destination = 0 ∧ (burn user mint authority amount).run s = .ok ((), s₂)) ∨
        (route.destination ≠ 0 ∧ user ≠ escrow ∧
          (transferTokens user mint escrow authority amount).run s = .ok ((), s₂))) ∧
      route.index.toNat + 1 < UInt64.size ∧
      (writeRecord program routeKey { route with index := route.index + 1 }.encode).run s₂ =
        .ok ((), s') ∧
      lines = [logLine (LogLine.ofLog
        ⟨route.mint, route.index + 1, user, recipient, amount, fee, route.destination, payload⟩)] := by
  dsimp only at h
  by_cases hd : route.destination = 0
  · rw [if_pos (by simpa using hd), bind_run_eq_ok] at h
    obtain ⟨_, s₂, hburn, h⟩ := h
    simp only [bind_run_eq_ok, addAmount_run_eq_ok, pure_run_eq_ok] at h
    obtain ⟨_, _, ⟨hlt, rfl, rfl⟩, _, s₃, hw, rfl, rfl⟩ := h
    exact ⟨_, .inl ⟨hd, hburn⟩, by simpa using hlt, hw, rfl⟩
  · rw [if_neg (by simpa using hd), ite_fail_bind_run_eq_ok, bind_run_eq_ok] at h
    obtain ⟨hne, _, s₂, hmove, h⟩ := h
    simp only [bind_run_eq_ok, addAmount_run_eq_ok, pure_run_eq_ok] at h
    obtain ⟨_, _, ⟨hlt, rfl, rfl⟩, _, s₃, hw, rfl, rfl⟩ := h
    exact ⟨_, .inr ⟨hd, by simpa using hne, hmove⟩, by simpa using hlt, hw, rfl⟩

/-- A bridge-out goes through only through a route the program keeps, whose config is the
program's and named by the seventh account, whose token program is the sixth, whose limits take
the amount and whose mint exists and is the fifth account. It moves the fee, then takes the
tokens out of the user's account (the third) on the word of the fourth account, and stores the
route with its index moved on by one, which it logs. -/
theorem bridgeOut_effect {amount : UInt64} {recipient : String} {payload : Bytes}
    (h : (bridgeOut program accounts amount recipient payload).run s = .ok (lines, s')) :
    ∃ (rk escrow user mint : Address) (authority : Invoked) (route : Route) (config : Config)
      (s₁ s₂ : State),
      (accounts[0]?).map Invoked.key = some rk ∧ (accounts[1]?).map Invoked.key = some escrow ∧
      (accounts[2]?).map Invoked.key = some user ∧ accounts[3]? = some authority ∧
      (accounts[4]?).map Invoked.key = some mint ∧
      (accounts[5]?).map Invoked.key = some route.tokenProgram ∧
      (accounts[6]?).map Invoked.key = some route.config ∧
      routeAt program s rk = some route ∧ configAt program s route.config = some config ∧
      route.mint = mint ∧ route.acceptsAmount amount = true ∧ (s.mints.get? mint).isSome ∧
      FeeMoved accounts config s s₁ ∧
      ((route.destination = 0 ∧ (burn user mint authority amount).run s₁ = .ok ((), s₂)) ∨
        (route.destination ≠ 0 ∧ user ≠ escrow ∧
          (transferTokens user mint escrow authority amount).run s₁ = .ok ((), s₂))) ∧
      route.index.toNat + 1 < UInt64.size ∧
      (writeRecord program rk { route with index := route.index + 1 }.encode).run s₂ = .ok ((), s') ∧
      lines = [logLine (LogLine.ofLog
        ⟨route.mint, route.index + 1, user, recipient, amount, config.fee, route.destination,
          payload⟩)] := by
  unfold bridgeOut at h
  simp only [bind_run_eq_ok, nth_run_eq_ok, readRecord_run_eq_ok, ownedBy_run_eq_ok,
    mintAt_run_eq_ok, ite_fail_bind_run_eq_ok, and_assoc, exists_and_left, exists_and_right,
    exists_eq_left] at h
  obtain ⟨rk, h0, esc, h1, usr, h2, auth, h3, mint, h4, tp, h5, ck, h6, config, hcd, hco, hro, _, _,
    route, hrd, hcfg, htp, hamt, hmint, ⟨m, hm⟩, h⟩ := h
  have hcfg : route.config = ck.key := by simpa using hcfg
  have hmint : route.mint = mint.key := by simpa using hmint
  -- the fee moves first, when there is one; the rest runs from the state it leaves
  obtain ⟨s₁, hfee, h⟩ : ∃ s₁, FeeMoved accounts config s s₁ ∧ _ := by
    by_cases hpos : 0 < config.fee
    · rw [if_pos hpos] at h
      simp only [bind_run_eq_ok, nth_run_eq_ok, ite_fail_bind_run_eq_ok, requireSigner_run_eq_ok,
        and_assoc, exists_and_left, exists_eq_left] at h
      obtain ⟨payer, h7, col, h8, hcol, hsig, _, _, s₁, hmove, h⟩ := h
      have hcol : col.key = config.feeCollector := by simpa using hcol
      exact ⟨s₁, .inr ⟨hpos, payer, h7, hsig, by simp [h8, hcol], hcol ▸ hmove⟩, h⟩
    · rw [if_neg hpos] at h
      exact ⟨s, .inl ⟨by simpa using hpos, rfl⟩, h⟩
  obtain ⟨s₂, htok, hlt, hw, rfl⟩ := bridgeOut_finish_effect h
  refine ⟨rk.key, esc.key, usr.key, mint.key, auth, route, config, s₁, s₂, by simp [h0], by simp [h1],
    by simp [h2], h3, by simp [h4], by simpa [h5] using htp, by simp [h6, hcfg],
    routeAt_of_read hro hrd, hcfg ▸ recordAt_of_read hco hcd, hmint, by simpa using hamt,
    by simp [← hmint, hm], hfee, htok, hlt, hw, rfl⟩

/-- The end of a bridge-out goes through once its token side and the write of the route with the
next index do. -/
theorem bridgeOut_finish_run_eq_ok {routeKey escrow user mint : Address} {authority : Invoked}
    {route : Route} {recipient : String} {payload : Bytes} {amount fee : UInt64} {s₂ : State}
    (htok : (route.destination = 0 ∧ (burn user mint authority amount).run s = .ok ((), s₂)) ∨
      (route.destination ≠ 0 ∧ user ≠ escrow ∧
        (transferTokens user mint escrow authority amount).run s = .ok ((), s₂)))
    (hlt : route.index.toNat + 1 < UInt64.size)
    (hw : (writeRecord program routeKey { route with index := route.index + 1 }.encode).run s₂ =
      .ok ((), s')) :
    (do
      if route.destination == 0 then
        burn user mint authority amount
      else
        if user == escrow then fail (.program .invalidInput)
        transferTokens user mint escrow authority amount
      let index ← addAmount route.index 1
      writeRecord program routeKey { route with index }.encode
      let log : TransferLog :=
        ⟨route.mint, index, user, recipient, amount, fee, route.destination, payload⟩
      pure [logLine (LogLine.ofLog log)] : Exec (List String)).run s =
      .ok ([logLine (LogLine.ofLog
        ⟨route.mint, route.index + 1, user, recipient, amount, fee, route.destination, payload⟩)],
        s') := by
  have hidx : (addAmount route.index 1).run s₂ = .ok (route.index + 1, s₂) :=
    addAmount_run_eq_ok.2 ⟨by simpa using hlt, rfl, rfl⟩
  rcases htok with ⟨hd, hburn⟩ | ⟨hd, hne, hmove⟩
  · rw [if_pos (by simpa using hd), bind_run_eq_ok]
    refine ⟨(), s₂, hburn, ?_⟩
    simp only [bind_run_eq_ok]
    exact ⟨_, s₂, hidx, (), s', hw, pure_run_eq_ok.2 ⟨rfl, rfl⟩⟩
  · have hne' : (user == escrow) = false := by simpa using hne
    rw [if_neg (by simpa using hd), hne', ite_fail_bind_run_eq_ok, bind_run_eq_ok]
    refine ⟨by simp, (), s₂, hmove, ?_⟩
    simp only [bind_run_eq_ok]
    exact ⟨_, s₂, hidx, (), s', hw, pure_run_eq_ok.2 ⟨rfl, rfl⟩⟩

/-- A bridge-out goes through exactly when its checks pass, the fee moves, the token side goes
through (a burn on a route to the home chain, a transfer into the escrow otherwise) and the route is
written back with the next index. -/
theorem bridgeOut_run_eq_ok_iff {amount : UInt64} {recipient : String} {payload : Bytes}
    (a0 a1 a2 a3 a4 a5 a6 : Invoked) (rest : List Invoked) :
    (bridgeOut program (a0 :: a1 :: a2 :: a3 :: a4 :: a5 :: a6 :: rest) amount recipient payload).run s =
        .ok (lines, s') ↔
      ∃ route config s₁ s₂, routeAt program s a0.key = some route ∧
        configAt program s a6.key = some config ∧ route.config = a6.key ∧
        a5.key = route.tokenProgram ∧ route.mint = a4.key ∧ route.acceptsAmount amount = true ∧
        (s.mints.get? a4.key).isSome ∧
        FeeMoved (a0 :: a1 :: a2 :: a3 :: a4 :: a5 :: a6 :: rest) config s s₁ ∧
        (if route.destination = 0 then Burns s₁ a2.key a4.key a3 amount s₂
          else a2.key ≠ a1.key ∧ Transfers s₁ a2.key a4.key a1.key a3 amount s₂) ∧
        route.index.toNat + 1 < UInt64.size ∧
        (writeRecord program a0.key { route with index := route.index + 1 }.encode).run s₂ =
          .ok ((), s') ∧
        lines = [logLine (LogLine.ofLog
          ⟨route.mint, route.index + 1, a2.key, recipient, amount, config.fee, route.destination,
            payload⟩)] := by
  constructor
  · intro h
    obtain ⟨rk, escrow, user, mint, authority, route, config, s₁, s₂, h0, h1, h2, h3, h4, h5, h6, hr,
      hc, hmint, hamt, hsome, hfee, htok, hlt, hw, hlines⟩ := bridgeOut_effect h
    simp only [List.getElem?_cons_zero, List.getElem?_cons_succ, Option.map_some,
      Option.some.injEq] at h0 h1 h2 h3 h4 h5 h6
    subst h0 h1 h2 h3 h4
    refine ⟨route, config, s₁, s₂, hr, h6 ▸ hc, h6.symm, h5, hmint, hamt, hsome, hfee, ?_, hlt, hw,
      hlines⟩
    rcases htok with ⟨hd, hrun⟩ | ⟨hd, hne, hrun⟩
    · rw [if_pos hd]
      exact burn_run_eq_ok_iff.1 hrun
    · rw [if_neg hd]
      exact ⟨hne, transferTokens_run_eq_ok_iff.1 hrun⟩
  · rintro ⟨route, config, s₁, s₂, hr, hc, hcfg, htp, hmint, hamt, hsome, hfee, htok, hlt, hw, rfl⟩
    obtain ⟨acc, hacc, hown, hdec⟩ := recordAt_eq_some.1 hr
    obtain ⟨cacc, hcacc, hcown, hcdec⟩ := recordAt_eq_some.1 hc
    obtain ⟨m, hm⟩ := Option.isSome_iff_exists.1 hsome
    unfold bridgeOut
    simp only [nth, List.getElem?_cons_zero, List.getElem?_cons_succ, pure_bind, bind_run_eq_ok,
      readRecord_run_eq_ok, ownedBy_run_eq_ok, ite_fail_bind_run_eq_ok, mintAt_run_eq_ok]
    refine ⟨config, s, ⟨⟨cacc, hcacc, hcdec⟩, rfl⟩, (), s, ⟨⟨cacc, hcacc, hcown⟩, rfl⟩, (), s,
      ⟨⟨acc, hacc, hown⟩, rfl⟩, route, s, ⟨⟨acc, hacc, hdec⟩, rfl⟩, by simpa using hcfg,
      by simpa using htp, by simpa using hamt, by simpa using hmint, m, s, ⟨hmint ▸ hm, rfl⟩, ?_⟩
    -- the token side, as the end of the handler runs it
    have htok' : (route.destination = 0 ∧ (burn a2.key a4.key a3 amount).run s₁ = .ok ((), s₂)) ∨
        (route.destination ≠ 0 ∧ a2.key ≠ a1.key ∧
          (transferTokens a2.key a4.key a1.key a3 amount).run s₁ = .ok ((), s₂)) := by
      by_cases hd : route.destination = 0
      · rw [if_pos hd] at htok
        exact .inl ⟨hd, burn_run_eq_ok_iff.2 htok⟩
      · rw [if_neg hd] at htok
        exact .inr ⟨hd, htok.1, transferTokens_run_eq_ok_iff.2 htok.2⟩
    rcases hfee with ⟨hzero, rfl⟩ | ⟨hpos, payer, h7, hsig, h8, hmove⟩
    · rw [if_neg (by simp [hzero])]
      exact bridgeOut_finish_run_eq_ok htok' hlt hw
    · rw [if_pos hpos]
      simp only [List.getElem?_cons_succ] at h7 h8
      obtain ⟨col, h8, hcol⟩ := Option.map_eq_some_iff.1 h8
      simp only [h7, h8, pure_bind, hcol, bne_self_eq_false, Bool.false_eq_true, if_false]
      rw [bind_run_eq_ok]
      refine ⟨(), s, requireSigner_run_eq_ok.2 ⟨hsig, rfl⟩, ?_⟩
      rw [bind_run_eq_ok]
      exact ⟨(), s₁, hmove, bridgeOut_finish_run_eq_ok htok' hlt hw⟩

/-- A settlement goes through only through a route the program keeps, whose config is the
program's and named by the eighth account, on the word of that config's authority (the fifth
account), and when the second account is the route's token authority, the program address of the
route's key and bump seed; the route's mint must exist. It mints into the user's account (the
fourth) on a route to the home chain, and pays out of the third account otherwise, in both cases on
the token authority's word, with the sixth account as the mint. -/
theorem settle_effect {amount : UInt64}
    (h : (settle program accounts amount).run s = .ok (lines, s')) :
    ∃ (rk ta escrow user mint : Address) (authority : Invoked) (route : Route) (config : Config),
      (accounts[0]?).map Invoked.key = some rk ∧ (accounts[1]?).map Invoked.key = some ta ∧
      (accounts[2]?).map Invoked.key = some escrow ∧ (accounts[3]?).map Invoked.key = some user ∧
      accounts[4]? = some authority ∧ (accounts[5]?).map Invoked.key = some mint ∧
      (accounts[7]?).map Invoked.key = some route.config ∧
      routeAt program s rk = some route ∧ configAt program s route.config = some config ∧
      authority.signer = true ∧ authority.key = config.authority ∧
      Address.programAddress [rk.bytes, [route.bumpSeed]] program = .ok ta ∧
      (s.mints.get? route.mint).isSome ∧
      ((route.destination = 0 ∧ (mintTo mint user ta amount).run s = .ok ((), s')) ∨
        (route.destination ≠ 0 ∧
          (transferTokens escrow mint user ⟨ta, true⟩ amount).run s = .ok ((), s'))) ∧
      lines = [logLine ("Settle " ++ toString amount.toNat ++ " " ++ route.mint.toBase58 ++ " to "
        ++ user.toBase58)] := by
  unfold settle at h
  simp only [bind_run_eq_ok, nth_run_eq_ok, readRecord_run_eq_ok, ownedBy_run_eq_ok,
    requireKey_run_eq_ok, ite_fail_bind_run_eq_ok, and_assoc, exists_and_left,
    exists_eq_left] at h
  obtain ⟨rk, h0, ta, h1, esc, h2, usr, h3, auth, h4, mint, h5, ck, h7, hro, _, config, hcd, hco, _,
    route, hrd, hcfg, hsig, hkey, _, h⟩ := h
  have hcfg : route.config = ck.key := by simpa using hcfg
  split at h
  · exact absurd h fail_run_ne_ok
  rename_i expected hpda
  obtain ⟨hta, h⟩ := ite_fail_bind_run_eq_ok.1 h
  have hta : ta.key = expected := by simpa using hta
  obtain ⟨m, _, hm, h⟩ := bind_run_eq_ok.1 h
  obtain ⟨hm, hs⟩ := mintAt_run_eq_ok.1 hm
  rw [hs] at h
  -- minting or paying out of the escrow, then the one line
  have hpay : ((route.destination = 0 ∧ (mintTo mint.key usr.key ta.key amount).run s = .ok ((), s')) ∨
      (route.destination ≠ 0 ∧
        (transferTokens esc.key mint.key usr.key ⟨ta.key, true⟩ amount).run s = .ok ((), s'))) ∧
      lines = [logLine ("Settle " ++ toString amount.toNat ++ " " ++ route.mint.toBase58 ++ " to "
        ++ usr.key.toBase58)] := by
    by_cases hd : route.destination = 0
    · rw [if_pos (by simpa using hd)] at h
      obtain ⟨_, s₁, hmint, h⟩ := bind_run_eq_ok.1 h
      obtain ⟨rfl, rfl⟩ := pure_run_eq_ok.1 h
      exact ⟨.inl ⟨hd, hmint⟩, rfl⟩
    · rw [if_neg (by simpa using hd)] at h
      obtain ⟨_, s₁, hmove, h⟩ := bind_run_eq_ok.1 h
      obtain ⟨rfl, rfl⟩ := pure_run_eq_ok.1 h
      exact ⟨.inr ⟨hd, hmove⟩, rfl⟩
  exact ⟨rk.key, ta.key, esc.key, usr.key, mint.key, auth, route, config, by simp [h0], by simp [h1],
    by simp [h2], by simp [h3], h4, by simp [h5], by simp [h7, hcfg], routeAt_of_read hro hrd,
    hcfg ▸ recordAt_of_read hco hcd, hsig, hkey, hta ▸ hpda, by simp [hm], hpay.1, hpay.2⟩

/-- A settlement over eight accounts goes through exactly when its checks pass and its token side
does: the route and its config are the program's, the config's authority signed, the second
account is the program address of the route's key and bump seed, the route's mint exists, and the
mint to the user (home chain) or the transfer out of the third account (otherwise) goes through. -/
theorem settle_run_eq_ok_iff {amount : UInt64} (a0 a1 a2 a3 a4 a5 a6 a7 : Invoked) :
    (settle program [a0, a1, a2, a3, a4, a5, a6, a7] amount).run s = .ok (lines, s') ↔
      ∃ route config, routeAt program s a0.key = some route ∧
        configAt program s a7.key = some config ∧ route.config = a7.key ∧
        a4.signer = true ∧ a4.key = config.authority ∧
        Address.programAddress [a0.key.bytes, [route.bumpSeed]] program = .ok a1.key ∧
        (s.mints.get? route.mint).isSome ∧
        (if route.destination = 0 then MintsTo s a5.key a3.key a1.key amount s'
          else Transfers s a2.key a5.key a3.key ⟨a1.key, true⟩ amount s') ∧
        lines = [logLine ("Settle " ++ toString amount.toNat ++ " " ++ route.mint.toBase58 ++ " to "
          ++ a3.key.toBase58)] := by
  constructor
  · intro h
    obtain ⟨rk, ta, escrow, user, mint, authority, route, config, h0, h1, h2, h3, h4, h5, h7, hr, hc,
      hsig, hkey, hpda, hmint, hpay, hlines⟩ := settle_effect h
    simp only [List.getElem?_cons_zero, List.getElem?_cons_succ, Option.map_some,
      Option.some.injEq] at h0 h1 h2 h3 h4 h5 h7
    subst h0 h1 h2 h3 h4 h5
    refine ⟨route, config, hr, h7 ▸ hc, h7.symm, hsig, hkey, hpda, hmint, ?_, hlines⟩
    rcases hpay with ⟨hd, hrun⟩ | ⟨hd, hrun⟩
    · rw [if_pos hd]
      exact mintTo_run_eq_ok_iff.1 hrun
    · rw [if_neg hd]
      exact transferTokens_run_eq_ok_iff.1 hrun
  · rintro ⟨route, config, hr, hc, hcfg, hsig, hkey, hpda, hmint, hpay, rfl⟩
    obtain ⟨acc, hacc, hown, hdec⟩ := recordAt_eq_some.1 hr
    obtain ⟨cacc, hcacc, hcown, hcdec⟩ := recordAt_eq_some.1 hc
    obtain ⟨m, hm⟩ := Option.isSome_iff_exists.1 hmint
    unfold settle
    simp only [nth, List.getElem?_cons_zero, List.getElem?_cons_succ, pure_bind, bind_run_eq_ok,
      readRecord_run_eq_ok, ownedBy_run_eq_ok, requireKey_run_eq_ok, ite_fail_bind_run_eq_ok]
    refine ⟨(), s, ⟨⟨acc, hacc, hown⟩, rfl⟩, config, s, ⟨⟨cacc, hcacc, hcdec⟩, rfl⟩, (), s,
      ⟨⟨cacc, hcacc, hcown⟩, rfl⟩, route, s, ⟨⟨acc, hacc, hdec⟩, rfl⟩, by simpa using hcfg, (), s,
      ⟨hsig, hkey, rfl⟩, ?_⟩
    simp only [hpda, bne_self_eq_false, Bool.false_eq_true, if_false, bind_run_eq_ok,
      mintAt_run_eq_ok]
    refine ⟨m, s, ⟨hm, rfl⟩, ?_⟩
    -- the route's destination picks the token side
    by_cases hd : route.destination = 0
    · rw [if_pos hd] at hpay
      simp only [hd, beq_self_eq_true, if_true, bind_run_eq_ok]
      exact ⟨(), s', mintTo_run_eq_ok_iff.2 hpay, pure_run_eq_ok.2 ⟨rfl, rfl⟩⟩
    · rw [if_neg hd] at hpay
      have hne : (route.destination == 0) = false := by simpa using hd
      simp only [hne, Bool.false_eq_true, if_false, bind_run_eq_ok]
      exact ⟨(), s', transferTokens_run_eq_ok_iff.2 hpay, pure_run_eq_ok.2 ⟨rfl, rfl⟩⟩

theorem allocate_effect {source target owner : Address} {lamports space : UInt64} {u : Unit}
    (h : (allocate source target lamports space owner).run s = .ok (u, s')) :
    balance s target = 0 ∧ ∃ s₁, (debit source lamports).run s = .ok ((), s₁) ∧
      s' = { s₁ with
        accounts := s₁.accounts.set target ⟨lamports, owner, List.replicate space.toNat 0⟩ } := by
  unfold allocate at h
  simp only [get_bind_run, ite_fail_bind_run_eq_ok, bind_run_eq_ok, modify_run_eq_ok] at h
  obtain ⟨hfree, _, s₁, hd, -, rfl⟩ := h
  refine ⟨?_, s₁, hd, rfl⟩
  -- the target is refused while it holds lamports
  cases ha : s.accounts.get? target with
  | none => simp [balance, ha]
  | some a =>
    rw [ha] at hfree
    have hzero : a.lamports.toNat = 0 := by simpa [UInt64.lt_iff_toNat_lt] using hfree
    simp [balance, ha, hzero]

/-- A system call goes through in one of two ways: it makes anew the account its second account
names, funded from another; or it moves lamports. -/
theorem processSystem_effect {data : Bytes} {u : Unit}
    (h : (processSystem accounts data).run s = .ok (u, s')) :
    (∃ (source target owner : Address) (lamports space : UInt64),
      (SystemCommand.decode? data).any SystemCommand.creates = true ∧
      (accounts[1]?).map Invoked.key = some target ∧
      (allocate source target lamports space owner).run s = .ok ((), s')) ∨
    ∃ (source target : Address) (lamports : UInt64),
      (SystemCommand.decode? data).any SystemCommand.creates = false ∧
      (transferLamports source target lamports).run s = .ok ((), s') := by
  unfold processSystem at h
  split at h
  · exact absurd h fail_run_ne_ok
  · rename_i lamports space owner hcmd
    simp only [bind_run_eq_ok, nth_run_eq_ok, ite_fail_bind_run_eq_ok, and_assoc,
      exists_and_left, exists_eq_left] at h
    obtain ⟨source, -, target, ht, -, h⟩ := h
    exact .inl ⟨source.key, target.key, owner, lamports, space,
      by simp [hcmd, SystemCommand.creates], by simp [ht], h⟩
  · rename_i base seed lamports space owner hcmd
    simp only [bind_run_eq_ok, nth_run_eq_ok, ite_fail_bind_run_eq_ok, and_assoc,
      exists_and_left, exists_eq_left] at h
    obtain ⟨source, -, target, ht, -, h⟩ := h
    split at h
    · exact absurd h fail_run_ne_ok
    exact .inl ⟨source.key, target.key, owner, lamports, space,
      by simp [hcmd, SystemCommand.creates], by simp [ht], (ite_fail_bind_run_eq_ok.1 h).2⟩
  · rename_i lamports hcmd
    simp only [bind_run_eq_ok, nth_run_eq_ok, requireSigner_run_eq_ok, and_assoc,
      exists_and_left, exists_eq_left] at h
    obtain ⟨source, -, target, -, -, _, h⟩ := h
    exact .inr ⟨source.key, target.key, lamports, by simp [hcmd, SystemCommand.creates], h⟩
  · exact absurd h fail_run_ne_ok

end Effects

/-! ### Mints and token accounts under the other programs -/

section Tokens

variable {program : Address} {accounts : List Invoked} {s s' : State} {lines : List String}
  {u : Unit}

theorem writeRecord_tokens {key : Address} {bytes : Bytes}
    (h : (writeRecord program key bytes).run s = .ok (u, s')) :
    s'.mints = s.mints ∧ s'.tokenAccounts = s.tokenAccounts := by
  obtain ⟨a, -, -, rfl⟩ := writeRecord_run_eq_ok.1 h
  exact ⟨rfl, rfl⟩

theorem transferLamports_tokens {source target : Address} {n : UInt64}
    (h : (transferLamports source target n).run s = .ok (u, s')) :
    s'.mints = s.mints ∧ s'.tokenAccounts = s.tokenAccounts := by
  obtain ⟨s₁, h₁, h₂⟩ := transferLamports_run_eq_ok.1 h
  obtain ⟨a, -, -, rfl⟩ := debit_run_eq_ok.1 h₁
  obtain ⟨-, rfl⟩ := credit_run_eq_ok.1 h₂
  exact ⟨rfl, rfl⟩

theorem processSystem_tokens {data : Bytes} (h : (processSystem accounts data).run s = .ok (u, s')) :
    s'.mints = s.mints ∧ s'.tokenAccounts = s.tokenAccounts := by
  rcases processSystem_effect h with ⟨_, _, _, _, _, -, -, h⟩ | ⟨_, _, _, -, h⟩
  · obtain ⟨-, s₁, hd, rfl⟩ := allocate_effect h
    obtain ⟨a, -, -, rfl⟩ := debit_run_eq_ok.1 hd
    exact ⟨rfl, rfl⟩
  · exact transferLamports_tokens h

/-- A bridge command leaves the mints and token accounts as they were, unless it is a bridge-out or
a settlement. -/
theorem process_tokens {data : Bytes} (h : (process program accounts data).run s = .ok (lines, s')) :
    (s'.mints = s.mints ∧ s'.tokenAccounts = s.tokenAccounts) ∨
    (∃ amount recipient payload, Command.unpack data = .ok (.bridge amount recipient payload) ∧
      (bridgeOut program accounts amount recipient payload).run s = .ok (lines, s')) ∨
    (∃ amount, Command.unpack data = .ok (.settle amount) ∧
      (settle program accounts amount).run s = .ok (lines, s')) := by
  unfold process at h
  split at h
  · exact absurd h fail_run_ne_ok
  · obtain ⟨-, _, _, _, _, _, -, -, -, -, -, -, hw⟩ := setUp_effect h
    exact .inl (writeRecord_tokens hw)
  · obtain ⟨_, _, _, _, -, -, -, -, -, -, hw, -⟩ := changeKey_effect h
    exact .inl (writeRecord_tokens hw)
  · obtain ⟨_, _, _, _, -, -, -, -, -, -, hw, -⟩ := changeKey_effect h
    exact .inl (writeRecord_tokens hw)
  · obtain ⟨-, _, _, _, _, -, -, -, -, -, -, hw⟩ := changeFee_effect h
    exact .inl (writeRecord_tokens hw)
  · obtain ⟨-, -, _, _, _, _, _, -, -, -, -, -, -, -, -, hw⟩ := changeLimit_effect h
    exact .inl (writeRecord_tokens hw)
  · obtain ⟨-, -, _, _, _, _, _, _, _, _, _, _, -, -, -, -, -, -, -, -, -, -, -, -, -, hw⟩ :=
      create_effect h
    exact .inl (writeRecord_tokens hw)
  · rename_i amount recipient payload hcmd
    exact .inr (.inl ⟨amount, recipient, payload, hcmd, h⟩)
  · rename_i amount hcmd
    exact .inr (.inr ⟨amount, hcmd, h⟩)

end Tokens

end TokenBridge
