import TokenBridge.Proofs.Effects
import TokenBridge.Proofs.LogLines
/-!
What each command does to the routes, the lamports and the log.

One lemma per handler says what a run that goes through has done, read off the handler's `do`
block with the run lemmas of `Effects`: its checks become hypotheses, its writes the facts
concluded. The config commands store a config where a config was, and a config's bytes are never
a route, so they leave every route as it was (`routeAt_writeRecord_config`). A change of limits, a
create and a bridge-out each write the one route their accounts name; settling moves tokens only.
`process_cases` gathers these by the kind of command. On the system side, `processSystem_spec` says
that a system call makes an account anew only while it holds no lamports, and otherwise leaves
every route where it was.
-/

namespace TokenBridge

open BridgeProgram

section Handlers

variable {program : Address} {accounts : List Invoked} {s s' : State} {lines : List String}

/-! ### Commands on a config -/

/-- Storing a config where a config was leaves every route as it was. -/
theorem routeAt_writeRecord_config {key : Address} {a : Account} {c c' : Config} {u : Unit}
    (ha : s.accounts.get? key = some a) (hc : Config.decode a.data = .ok c)
    (h : (writeRecord program key c'.encode).run s = .ok (u, s')) :
    routeAt program s' = routeAt program s := by
  obtain ⟨hat, hframe⟩ := routeAt_writeRecord h
  funext k
  by_cases hk : k = key
  · subst hk
    rw [hat, Route.decode_toOption_of_config (Config.decode_encode c')]
    simp [routeAt, ha, Route.decode_toOption_of_config hc]
  · exact hframe k hk

/-- Setting up a config leaves every route and writes nothing. -/
theorem setUp_spec {fee : UInt64} (h : (setUp program accounts fee).run s = .ok (lines, s')) :
    lines = [] ∧ routeAt program s' = routeAt program s := by
  unfold setUp at h
  simp only [bind_run_eq_ok, nth_run_eq_ok, readRecord_run_eq_ok, ite_fail_bind_run_eq_ok,
    pure_run_eq_ok, and_assoc, exists_and_left, exists_eq_left] at h
  obtain ⟨ck, -, _, -, _, -, _, -, config, ⟨a, ha, hc⟩, -, _, s₁, hw, rfl, rfl⟩ := h
  exact ⟨rfl, routeAt_writeRecord_config ha hc hw⟩

/-- Handing the config to a new owner or naming a new authority leaves every route, and the line
it writes carries no transfer. -/
theorem changeKey_spec {ofOwner : Bool}
    (h : (changeKey program accounts ofOwner).run s = .ok (lines, s')) :
    routeAt program s' = routeAt program s ∧ ∀ line ∈ lines, LogLine.parse line = none := by
  unfold changeKey at h
  simp only [bind_run_eq_ok, nth_run_eq_ok, readRecord_run_eq_ok, ownedBy_run_eq_ok,
    requireKey_run_eq_ok, pure_run_eq_ok, and_assoc, exists_and_left, exists_eq_left] at h
  obtain ⟨ck, -, _, -, _, -, -, _, config, ⟨a, ha, hc⟩, -, -, _, _, s₁, hw, rfl, rfl⟩ := h
  refine ⟨routeAt_writeRecord_config ha hc hw, fun line hline => ?_⟩
  rw [List.mem_singleton] at hline
  subst hline
  -- the line starts with `Owner` or `Authority`, never with the `B` of a transfer line
  cases ofOwner <;> simp only [Bool.false_eq_true, ↓reduceIte]
  · exact LogLine.parse_logLine_append_eq_none (by decide) (by decide)
  · exact LogLine.parse_logLine_append_eq_none (by decide) (by decide)

/-- A new fee leaves every route. -/
theorem changeFee_spec {fee : UInt64}
    (h : (changeFee program accounts fee).run s = .ok (lines, s')) :
    lines = [] ∧ routeAt program s' = routeAt program s := by
  unfold changeFee at h
  simp only [bind_run_eq_ok, nth_run_eq_ok, readRecord_run_eq_ok, ownedBy_run_eq_ok,
    requireKey_run_eq_ok, and_assoc, exists_and_left, exists_eq_left] at h
  obtain ⟨ck, -, _, -, -, _, config, ⟨a, ha, hc⟩, -, -, _, h⟩ := h
  split at h
  · simp only [bind_run_eq_ok, nth_run_eq_ok, pure_run_eq_ok] at h
    obtain ⟨_, _, ⟨-, rfl⟩, _, s₁, hw, rfl, rfl⟩ := h
    exact ⟨rfl, routeAt_writeRecord_config ha hc hw⟩
  · simp only [bind_run_eq_ok, pure_run_eq_ok] at h
    obtain ⟨_, s₁, hw, rfl, rfl⟩ := h
    exact ⟨rfl, routeAt_writeRecord_config ha hc hw⟩

/-! ### Commands on a route -/

/-- New limits change the route the second account names, and only its limits. -/
theorem changeLimit_spec {max min : UInt64}
    (h : (changeLimit program accounts max min).run s = .ok (lines, s')) :
    lines = [] ∧ ∃ routeKey route, (accounts[1]?).map Invoked.key = some routeKey ∧
      routeAt program s routeKey = some route ∧
      routeAt program s' routeKey = some { route with max, min } ∧
      ∀ k, k ≠ routeKey → routeAt program s' k = routeAt program s k := by
  unfold changeLimit at h
  simp only [bind_run_eq_ok, nth_run_eq_ok, readRecord_run_eq_ok, ownedBy_run_eq_ok,
    requireKey_run_eq_ok, ite_fail_bind_run_eq_ok, pure_run_eq_ok, and_assoc, exists_and_left,
    exists_eq_left] at h
  obtain ⟨-, ck, -, rk, h1, _, -, -, hro, _, _, config, -, -, -, _, route, hrd, -, _, s₁, hw, rfl,
    rfl⟩ := h
  obtain ⟨hat, hframe⟩ := routeAt_writeRecord hw
  refine ⟨rfl, rk.key, route, by simp [h1], routeAt_of_read hro hrd, ?_, hframe⟩
  rw [hat, Route.decode_encode]
  rfl

/-- A create goes through only on a route that is not initialized, and stores there a new one,
initialized and at index 0. -/
theorem create_spec {destination : UInt32} {max min : UInt64}
    (h : (create program accounts destination max min).run s = .ok (lines, s')) :
    lines = [] ∧ ∃ routeKey existing route, (accounts[0]?).map Invoked.key = some routeKey ∧
      routeAt program s routeKey = some existing ∧ existing.initialized = false ∧
      routeAt program s' routeKey = some route ∧ route.initialized = true ∧ route.index = 0 ∧
      ∀ k, k ≠ routeKey → routeAt program s' k = routeAt program s k := by
  unfold create at h
  simp only [bind_run_eq_ok, nth_run_eq_ok, readRecord_run_eq_ok, ownedBy_run_eq_ok,
    requireKey_run_eq_ok, ite_fail_bind_run_eq_ok, and_assoc, exists_and_left,
    exists_eq_left] at h
  obtain ⟨rk, h0, _, -, mint, -, esc, -, tp, -, _, -, ck, -, -, config, -, -, -, -, _, _, existing,
    hrd, hinit, h⟩ := h
  -- every way through the checks on the token side reads only, and ends by storing the new route
  have hstore : ∃ bump : UInt8, (do
      writeRecord program rk.key
        (Route.encode ⟨true, bump, tp.key, ck.key, esc.key, mint.key, destination, 0, max, min⟩)
      pure [] : Exec (List String)).run s = .ok (lines, s') := by
    split at h
    · exact absurd h fail_run_ne_ok
    rename_i bump _
    simp only [ite_fail_bind_run_eq_ok] at h
    obtain ⟨-, h⟩ := h
    split at h
    · simp only [get_bind_run] at h
      split at h
      · exact absurd h fail_bind_run_ne_ok
      · exact ⟨bump, (ite_fail_bind_run_eq_ok.1 h).2⟩
    · simp only [bind_run_eq_ok, mintAt_run_eq_ok] at h
      obtain ⟨_, _, ⟨-, hs⟩, h⟩ := h
      rw [hs] at h
      exact ⟨bump, (ite_fail_bind_run_eq_ok.1 h).2⟩
  obtain ⟨bump, h⟩ := hstore
  obtain ⟨_, s₁, hw, rfl, rfl⟩ := by simpa only [bind_run_eq_ok, pure_run_eq_ok] using h
  obtain ⟨a, ha, hao, -⟩ := writeRecord_run_eq_ok.1 hw
  obtain ⟨hat, hframe⟩ := routeAt_writeRecord hw
  refine ⟨rfl, rk.key, existing, _, by simp [h0], routeAt_of_read ⟨a, ha, hao⟩ hrd,
    by simpa using hinit, by rw [hat, Route.decode_encode]; rfl, rfl, rfl, hframe⟩

/-- The last steps of a bridge-out: the index moves on by one, the route is stored with it, and the
transfer is logged. -/
theorem advance_spec {routeKey user : Address} {route : Route} {recipient : String}
    {payload : Bytes} {amount fee : UInt64}
    (h : (do
      let index ← addAmount route.index 1
      writeRecord program routeKey { route with index }.encode
      let log : TransferLog :=
        ⟨route.mint, index, user, recipient, amount, fee, route.destination, payload⟩
      pure [logLine (LogLine.ofLog log)] : Exec (List String)).run s = .ok (lines, s')) :
    route.index.toNat + 1 < UInt64.size ∧
      lines = [logLine (LogLine.ofLog
        ⟨route.mint, route.index + 1, user, recipient, amount, fee, route.destination, payload⟩)] ∧
      routeAt program s' routeKey = some { route with index := route.index + 1 } ∧
      (∀ k, k ≠ routeKey → routeAt program s' k = routeAt program s k) ∧
      balance s' = balance s := by
  simp only [bind_run_eq_ok, addAmount_run_eq_ok, pure_run_eq_ok] at h
  obtain ⟨index, s₁, ⟨hlt, rfl, rfl⟩, u, s₂, hw, rfl, rfl⟩ := h
  obtain ⟨hat, hframe⟩ := routeAt_writeRecord hw
  refine ⟨by simpa using hlt, rfl, ?_, hframe, balance_writeRecord hw⟩
  rw [hat, Route.decode_encode]
  rfl

/-- A bridge-out after its checks and fee: the tokens leave the user, then the index moves on. -/
theorem bridgeOut_finish_spec {routeKey escrow user mint : Address} {authority : Invoked}
    {route : Route} {recipient : String} {payload : Bytes} {amount fee : UInt64}
    (h : (do
      if route.destination == 0 then
        burn user mint authority amount
      else
        if user == escrow then fail (.program .invalidInput)
        transferTokens user mint escrow authority amount
      let index ← addAmount route.index 1
      writeRecord program routeKey { route with index }.encode
      let log : TransferLog :=
        ⟨route.mint, index, user, recipient, amount, fee, route.destination, payload⟩
      pure [logLine (LogLine.ofLog log)] : Exec (List String)).run s = .ok (lines, s')) :
    route.index.toNat + 1 < UInt64.size ∧
      lines = [logLine (LogLine.ofLog
        ⟨route.mint, route.index + 1, user, recipient, amount, fee, route.destination, payload⟩)] ∧
      routeAt program s' routeKey = some { route with index := route.index + 1 } ∧
      (∀ k, k ≠ routeKey → routeAt program s' k = routeAt program s k) ∧
      balance s' = balance s := by
  -- burning or moving tokens leaves the plain accounts, so the route and balances are as before
  obtain ⟨s₁, hkeep, hrest⟩ : ∃ s₁, s₁.accounts = s.accounts ∧
      (do
        let index ← addAmount route.index 1
        writeRecord program routeKey { route with index }.encode
        let log : TransferLog :=
          ⟨route.mint, index, user, recipient, amount, fee, route.destination, payload⟩
        pure [logLine (LogLine.ofLog log)] : Exec (List String)).run s₁ = .ok (lines, s') := by
    dsimp only at h
    by_cases hd : (route.destination == 0) = true
    · rw [if_pos hd, bind_run_eq_ok] at h
      obtain ⟨_, s₁, hb, hr⟩ := h
      exact ⟨s₁, burn_keeps _ _ _ _ _ _ _ hb, hr⟩
    · rw [if_neg hd, ite_fail_bind_run_eq_ok, bind_run_eq_ok] at h
      obtain ⟨-, _, s₁, ht, hr⟩ := h
      exact ⟨s₁, transferTokens_keeps _ _ _ _ _ _ _ _ ht, hr⟩
  obtain ⟨hlt, hlines, hat, hframe, hbal⟩ := advance_spec hrest
  refine ⟨hlt, hlines, hat, fun k hk => ?_, ?_⟩
  · rw [hframe k hk, routeAt_of_accounts hkeep]
  · rw [hbal, balance_of_accounts hkeep]

/-- The transfer `log` records a bridge-out through the route at `routeKey` that took the state
from `s` to `s'`: the route, owned by the program, names the config that the seventh account names;
it accepts the amount, and its index moved on by one to the log's, with nothing else of any route
changed; the log carries the route's mint and destination, the user's token account (the third
account) and the config's fee; and that fee went from a payer who signed to the config's
collector, the only lamports that moved. -/
def BridgedOut (program routeKey : Address) (accounts : List Invoked) (s s' : State)
    (log : TransferLog) : Prop :=
  ∃ (route : Route) (config : Config),
    routeAt program s routeKey = some route ∧
    (accounts[6]?).map Invoked.key = some route.config ∧
    (∃ a, s.accounts.get? route.config = some a ∧ a.owner = program ∧
      Config.decode a.data = .ok config) ∧
    route.acceptsAmount log.amount = true ∧
    route.index.toNat + 1 < UInt64.size ∧ log.index = route.index + 1 ∧
    routeAt program s' routeKey = some { route with index := log.index } ∧
    (∀ k, k ≠ routeKey → routeAt program s' k = routeAt program s k) ∧
    log.token = route.mint ∧ (accounts[2]?).map Invoked.key = some log.sender ∧
    log.fee = config.fee ∧ log.destination = route.destination ∧
    ∃ payer collector : Address,
      (0 < log.fee → (∃ p, accounts[7]? = some p ∧ p.signer = true ∧ p.key = payer) ∧
        (accounts[8]?).map Invoked.key = some collector ∧ collector = config.feeCollector) ∧
      ∀ k, balance s' k + (if k = payer then log.fee.toNat else 0) =
        balance s k + (if k = collector then log.fee.toNat else 0)

/-- A bridge-out that goes through writes one line, the transfer it made through the route its
first account names. -/
theorem bridgeOut_spec {amount : UInt64} {recipient : String} {payload : Bytes}
    (h : (bridgeOut program accounts amount recipient payload).run s = .ok (lines, s')) :
    ∃ (routeKey : Address) (log : TransferLog), (accounts[0]?).map Invoked.key = some routeKey ∧
      lines = [logLine (LogLine.ofLog log)] ∧ log.amount = amount ∧ log.recipient = recipient ∧
      log.payload = payload ∧ BridgedOut program routeKey accounts s s' log := by
  unfold bridgeOut at h
  simp only [bind_run_eq_ok, nth_run_eq_ok, readRecord_run_eq_ok, ownedBy_run_eq_ok,
    mintAt_run_eq_ok, ite_fail_bind_run_eq_ok, and_assoc, exists_and_left, exists_and_right,
    exists_eq_left] at h
  obtain ⟨rk, h0, esc, -, usr, h2, auth, -, mint, -, tp, -, ck, h6, config, ⟨ca, hca, hcd⟩,
    ⟨ca', hca', hco⟩, hro, -, -, route, hrd, hcfg, -, hamt, -, -, h⟩ := h
  have hcfg : route.config = ck.key := by simpa using hcfg
  have hconfig : ∃ a, s.accounts.get? route.config = some a ∧ a.owner = program ∧
      Config.decode a.data = .ok config := by
    rw [hca] at hca'
    cases hca'
    exact ⟨ca, hcfg ▸ hca, hco, hcd⟩
  have hamt : route.acceptsAmount amount = true := by simpa using hamt
  -- the fee moves first; then the rest of the instruction runs from there
  by_cases hfee : config.fee > 0
  · rw [if_pos hfee] at h
    simp only [bind_run_eq_ok, nth_run_eq_ok, ite_fail_bind_run_eq_ok, requireSigner_run_eq_ok,
      and_assoc, exists_and_left, exists_eq_left] at h
    obtain ⟨payer, h7, col, h8, hcol, hsig, _, _, s₁, hmove, h⟩ := h
    obtain ⟨hlt, rfl, hat, hframe, hbal⟩ := bridgeOut_finish_spec h
    refine ⟨rk.key, _, by simp [h0], rfl, rfl, rfl, rfl, route, config, routeAt_of_read hro hrd,
      by simp [h6, hcfg], hconfig, hamt, hlt, rfl, hat, fun k hk => ?_, rfl, by simp [h2], rfl,
      rfl, payer.key, col.key, fun _ => ⟨⟨payer, h7, hsig, rfl⟩, by simp [h8], by simpa using hcol⟩,
      fun k => ?_⟩
    · rw [hframe k hk, transferLamports_routeAt hmove]
    · rw [hbal]
      exact transferLamports_balance hmove k
  · rw [if_neg hfee] at h
    obtain ⟨hlt, rfl, hat, hframe, hbal⟩ := bridgeOut_finish_spec h
    have hzero : config.fee.toNat = 0 := by
      simp only [gt_iff_lt, UInt64.lt_iff_toNat_lt, UInt64.toNat_zero] at hfee
      omega
    refine ⟨rk.key, _, by simp [h0], rfl, rfl, rfl, rfl, route, config, routeAt_of_read hro hrd,
      by simp [h6, hcfg], hconfig, hamt, hlt, rfl, hat, hframe, rfl, by simp [h2], rfl, rfl,
      Address.zero, Address.zero, fun hpos => absurd hpos hfee, fun k => ?_⟩
    simp [hbal, hzero]

/-- Settling moves tokens only, and its line carries no transfer. -/
theorem settle_spec {amount : UInt64}
    (h : (settle program accounts amount).run s = .ok (lines, s')) :
    routeAt program s' = routeAt program s ∧ ∀ line ∈ lines, LogLine.parse line = none := by
  unfold settle at h
  simp only [bind_run_eq_ok, nth_run_eq_ok, readRecord_run_eq_ok, ownedBy_run_eq_ok,
    requireKey_run_eq_ok, ite_fail_bind_run_eq_ok, and_assoc, exists_and_left,
    exists_eq_left] at h
  obtain ⟨_, -, _, -, _, -, usr, -, _, -, _, -, _, -, -, _, _, -, -, _, route, -, -, -, -, _,
    h⟩ := h
  split at h
  · exact absurd h fail_run_ne_ok
  simp only [ite_fail_bind_run_eq_ok, bind_run_eq_ok, mintAt_run_eq_ok] at h
  obtain ⟨-, _, _, ⟨-, hs⟩, h⟩ := h
  rw [hs] at h
  -- minting or paying out of the escrow moves tokens only
  have hpay : ∃ s₁ : State, s₁.accounts = s.accounts ∧
      (pure [logLine ("Settle " ++ toString amount.toNat ++ " " ++ route.mint.toBase58 ++ " to "
        ++ usr.key.toBase58)] : Exec (List String)).run s₁ = .ok (lines, s') := by
    split at h
    · obtain ⟨_, s₁, hm, h⟩ := bind_run_eq_ok.1 h
      exact ⟨s₁, mintTo_keeps _ _ _ _ _ _ _ hm, h⟩
    · obtain ⟨_, s₁, hm, h⟩ := bind_run_eq_ok.1 h
      exact ⟨s₁, transferTokens_keeps _ _ _ _ _ _ _ _ hm, h⟩
  obtain ⟨s₁, hkeep, h⟩ := hpay
  obtain ⟨rfl, rfl⟩ := pure_run_eq_ok.1 h
  refine ⟨routeAt_of_accounts hkeep, fun line hline => ?_⟩
  rw [List.mem_singleton] at hline
  subst hline
  simp only [String.append_assoc]
  exact LogLine.parse_logLine_append_eq_none (by decide) (by decide)

/-- What a bridge command that goes through does, by its kind: a bridge-out makes a transfer
through the route its first account names; a create makes that route anew, at index 0, from one
that was not initialized; a change of limits changes only the limits of the route its second
account names; every other command leaves the routes as they were and writes no transfer line. -/
theorem process_cases {data : Bytes}
    (h : (process program accounts data).run s = .ok (lines, s')) :
    ∃ cmd, Command.unpack data = .ok cmd ∧
      match cmd with
      | .bridge amount recipient payload =>
        ∃ (routeKey : Address) (log : TransferLog), (accounts[0]?).map Invoked.key = some routeKey ∧
          lines = [logLine (LogLine.ofLog log)] ∧ log.amount = amount ∧ log.recipient = recipient ∧
          log.payload = payload ∧ BridgedOut program routeKey accounts s s' log
      | .create .. =>
        lines = [] ∧ ∃ routeKey existing route, (accounts[0]?).map Invoked.key = some routeKey ∧
          routeAt program s routeKey = some existing ∧ existing.initialized = false ∧
          routeAt program s' routeKey = some route ∧ route.initialized = true ∧ route.index = 0 ∧
          ∀ k, k ≠ routeKey → routeAt program s' k = routeAt program s k
      | .changeLimit max min =>
        lines = [] ∧ ∃ routeKey route, (accounts[1]?).map Invoked.key = some routeKey ∧
          routeAt program s routeKey = some route ∧
          routeAt program s' routeKey = some { route with max, min } ∧
          ∀ k, k ≠ routeKey → routeAt program s' k = routeAt program s k
      | _ => routeAt program s' = routeAt program s ∧ ∀ line ∈ lines, LogLine.parse line = none := by
  unfold process at h
  split at h
  · exact absurd h fail_run_ne_ok
  all_goals rename_i hcmd
  · obtain ⟨rfl, hr⟩ := setUp_spec h
    exact ⟨_, hcmd, hr, nofun⟩
  · exact ⟨_, hcmd, changeKey_spec h⟩
  · exact ⟨_, hcmd, changeKey_spec h⟩
  · obtain ⟨rfl, hr⟩ := changeFee_spec h
    exact ⟨_, hcmd, hr, nofun⟩
  · exact ⟨_, hcmd, changeLimit_spec h⟩
  · exact ⟨_, hcmd, create_spec h⟩
  · exact ⟨_, hcmd, bridgeOut_spec h⟩
  · exact ⟨_, hcmd, settle_spec h⟩

end Handlers

/-! ### The system program -/

section System

variable {program : Address} {accounts : List Invoked} {s s' : State}

/-- The system commands that make a new account. -/
def SystemCommand.creates : SystemCommand → Bool
  | .createAccount .. | .createAccountWithSeed .. => true
  | _ => false

/-- A system call with these accounts and data makes the account at `key`, the second it names. -/
def allocatesAt (accounts : List Invoked) (data : Bytes) (key : Address) : Bool :=
  (SystemCommand.decode? data).any SystemCommand.creates && (accounts[1]?).map Invoked.key == some key

theorem allocate_spec {source target owner : Address} {lamports space : UInt64} {u : Unit}
    (h : (allocate source target lamports space owner).run s = .ok (u, s')) :
    balance s target = 0 ∧ ∀ k, k ≠ target → routeAt program s' k = routeAt program s k := by
  unfold allocate at h
  simp only [get_bind_run, ite_fail_bind_run_eq_ok, bind_run_eq_ok, modify_run_eq_ok] at h
  obtain ⟨hfree, _, s₁, hd, -, rfl⟩ := h
  refine ⟨?_, fun k hk => ?_⟩
  · -- the target is refused while it holds lamports
    cases ha : s.accounts.get? target with
    | none => simp [balance, ha]
    | some a =>
      rw [ha] at hfree
      have hzero : a.lamports.toNat = 0 := by simpa [UInt64.lt_iff_toNat_lt] using hfree
      simp [balance, ha, hzero]
  · simp only [routeAt, Table.get?_set_of_ne _ _ hk]
    exact congrFun (debit_routeAt hd) k

theorem allocatesAt_spec {data : Bytes} {target : Address}
    (hc : (SystemCommand.decode? data).any SystemCommand.creates = true)
    (ht : (accounts[1]?).map Invoked.key = some target) (hb : balance s target = 0)
    (hframe : ∀ k, k ≠ target → routeAt program s' k = routeAt program s k) (key : Address) :
    (allocatesAt accounts data key = true → balance s key = 0) ∧
      (allocatesAt accounts data key = false → routeAt program s' key = routeAt program s key) := by
  by_cases hk : key = target
  · subst hk
    exact ⟨fun _ => hb, fun hf => absurd hf (by simp [allocatesAt, hc, ht])⟩
  · exact ⟨fun ha => absurd ha (by simp [allocatesAt, ht, Ne.symm hk]), fun _ => hframe key hk⟩

/-- What a system call does to the account at `key`: when it makes that account, the account held
no lamports before; otherwise the route there, if any, stays as it was. -/
theorem processSystem_spec (program : Address) {data : Bytes} {u : Unit}
    (h : (processSystem accounts data).run s = .ok (u, s')) (key : Address) :
    (allocatesAt accounts data key = true → balance s key = 0) ∧
      (allocatesAt accounts data key = false → routeAt program s' key = routeAt program s key) := by
  unfold processSystem at h
  split at h
  · exact absurd h fail_run_ne_ok
  · rename_i lamports space owner hcmd
    simp only [bind_run_eq_ok, nth_run_eq_ok, ite_fail_bind_run_eq_ok, and_assoc,
      exists_and_left, exists_eq_left] at h
    obtain ⟨_, -, target, ht, -, h⟩ := h
    obtain ⟨hb, hframe⟩ := allocate_spec h
    exact allocatesAt_spec (by simp [hcmd, SystemCommand.creates]) (by simp [ht]) hb hframe key
  · rename_i base seed lamports space owner hcmd
    simp only [bind_run_eq_ok, nth_run_eq_ok, ite_fail_bind_run_eq_ok, and_assoc,
      exists_and_left, exists_eq_left] at h
    obtain ⟨_, -, target, ht, -, h⟩ := h
    split at h
    · exact absurd h fail_run_ne_ok
    obtain ⟨hb, hframe⟩ := allocate_spec (ite_fail_bind_run_eq_ok.1 h).2
    exact allocatesAt_spec (by simp [hcmd, SystemCommand.creates]) (by simp [ht]) hb hframe key
  · -- a transfer moves lamports only, and makes no account
    rename_i lamports hcmd
    simp only [bind_run_eq_ok, nth_run_eq_ok, requireSigner_run_eq_ok, and_assoc,
      exists_and_left, exists_eq_left] at h
    obtain ⟨_, -, _, -, -, _, h⟩ := h
    refine ⟨fun ha => absurd ha (by simp [allocatesAt, hcmd, SystemCommand.creates]), fun _ => ?_⟩
    exact congrFun (transferLamports_routeAt h) key
  · exact absurd h fail_run_ne_ok

end System

end TokenBridge
