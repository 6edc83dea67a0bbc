import TokenBridge.Proofs.TokenAuthority
/-!
Who may change a config of the bridge program.

A config changes only by the governance commands (`Governs`), each on the word of the config's
owner: a transfer of ownership names a new owner, a change of authority a new authority, a change
of fee a new fee, and a new collector only with a fee above zero. Setting up goes through only on
a config not yet initialized. No other command of the bridge program, and no call of the token
program, touches a config (`process_configAt`, `Ran.config_governed`).

The system program is the exception, by design: it makes an account anew whenever the account
holds no lamports, and it takes lamports from any account that signs, whatever program owns it. A
config whose key can sign can so be emptied, made anew as zeros and set up again by anyone
(`initialized_config_remade`). Along calls that do not make the config's account anew, an
initialized config stays one (`config_governance`).
-/

namespace TokenBridge

open BridgeProgram

/-! ### Records and the system program -/

section Records

variable {α : Type} {decode : Bytes → Except CodecError α} {program : Address} {s s' : State}
  {key : Address} {u : Unit}

/-- An empty account holds no config. -/
theorem Config.decode_nil_toOption : (Config.decode []).toOption = none :=
  Config.decode_toOption_of_length (by simp [Config.size])

/-- A key holds a config or a route, never both: the two records differ in length. -/
theorem configAt_ne_routeAt {rk : Address} {c : Config} {r : Route}
    (hc : configAt program s key = some c) (hr : routeAt program s rk = some r) : key ≠ rk := by
  rintro rfl
  obtain ⟨a, ha, -, hdec⟩ := recordAt_eq_some.1 hc
  obtain ⟨b, hb, -, hdec'⟩ := recordAt_eq_some.1 ((routeAt_eq_recordAt).symm.trans hr)
  rw [ha] at hb
  cases hb
  have hnone := Route.decode_toOption_of_config hdec
  simp [hdec', Except.toOption] at hnone

theorem configAt_writeRecord {c : Config} (h : (writeRecord program key c.encode).run s = .ok (u, s')) :
    configAt program s' key = some c ∧ ∀ k, k ≠ key → configAt program s' k = configAt program s k := by
  obtain ⟨hat, hframe⟩ : configAt program s' key = (Config.decode c.encode).toOption ∧
      ∀ k, k ≠ key → configAt program s' k = configAt program s k := recordAt_writeRecord h
  refine ⟨?_, hframe⟩
  rw [hat, Config.decode_encode]
  rfl

theorem FeeMoved.recordAt (hnil : (decode []).toOption = none) {accounts : List Invoked}
    {config : Config} (h : FeeMoved accounts config s s') :
    recordAt decode program s' = recordAt decode program s := by
  rcases h with ⟨-, rfl⟩ | ⟨-, payer, -, -, -, hmove⟩
  · rfl
  · exact transferLamports_recordAt hnil hmove

/-- The system program leaves every record but at the account it makes anew. -/
theorem processSystem_recordAt (hnil : (decode []).toOption = none) {accounts : List Invoked}
    {data : Bytes} (h : (processSystem accounts data).run s = .ok (u, s'))
    (hk : allocatesAt accounts data key = false) :
    recordAt decode program s' key = recordAt decode program s key := by
  rcases processSystem_effect h with ⟨source, target, owner, lamports, space, hc, ht, hal⟩ |
    ⟨source, target, lamports, -, hmove⟩
  · obtain ⟨-, s₁, hd, rfl⟩ := allocate_effect hal
    have hne : key ≠ target := fun he => by simp [allocatesAt, hc, ht, he] at hk
    calc recordAt decode program
          { s₁ with accounts := s₁.accounts.set target ⟨lamports, owner, _⟩ } key
        = recordAt decode program s₁ key := by simp only [recordAt, Table.get?_set_of_ne _ _ hne]
      _ = recordAt decode program s key := congrFun (debit_recordAt hd) key
  · exact congrFun (transferLamports_recordAt hnil hmove) key

end Records

/-! ### Governance -/

/-- `accounts` govern the config at `key` by the command `cmd`, on the word of its owner: account 0
is the config, account 1 signed and is the config's owner, and `c'` is what the command makes of
`c`. A transfer of ownership names account 2 the owner, a change of authority names it the
authority, and a change of fee sets the fee, with account 2 as collector when the fee is above
zero and the collector as it was when the fee is zero. -/
def Governs (accounts : List Invoked) (cmd : Command) (key : Address) (c c' : Config) : Prop :=
  (accounts[0]?).map Invoked.key = some key ∧
    (∃ owner, accounts[1]? = some owner ∧ owner.signer = true ∧ owner.key = c.owner) ∧
    ((cmd = .transferOwner ∧ ∃ target, (accounts[2]?).map Invoked.key = some target ∧
        c' = { c with owner := target }) ∨
      (cmd = .changeAuthority ∧ ∃ target, (accounts[2]?).map Invoked.key = some target ∧
        c' = { c with authority := target }) ∨
      (∃ fee, cmd = .changeFee fee ∧
        ((fee = 0 ∧ c' = { c with fee }) ∨
          (0 < fee ∧ ∃ collector, (accounts[2]?).map Invoked.key = some collector ∧
            c' = { c with fee, feeCollector := collector }))))

theorem Governs.initialized {accounts : List Invoked} {cmd : Command} {key : Address}
    {c c' : Config} (h : Governs accounts cmd key c c') : c'.initialized = c.initialized := by
  obtain ⟨-, -, ⟨-, _, -, rfl⟩ | ⟨-, _, -, rfl⟩ | ⟨_, -, ⟨-, rfl⟩ | ⟨-, _, -, rfl⟩⟩⟩ := h <;> rfl

section Handlers

variable {program : Address} {accounts : List Invoked} {s s' : State} {lines : List String}
  {K : Address} {c : Config}

/-- Setting up writes a config that was not initialized, so it leaves every one that was. -/
theorem setUp_configAt {fee : UInt64} (h : (setUp program accounts fee).run s = .ok (lines, s'))
    (hK : configAt program s K = some c) (hinit : c.initialized = true) :
    configAt program s' K = some c := by
  obtain ⟨-, ck, owner, authority, collector, c₀, -, -, -, -, hc₀, hfree, hw⟩ := setUp_effect h
  have hne : K ≠ ck := by
    rintro rfl
    have hsame : c = c₀ := Option.some.inj (hK.symm.trans hc₀)
    rw [← hsame, hinit] at hfree
    cases hfree
  rw [← hK]
  exact (recordAt_writeRecord hw).2 K hne

theorem changeKey_configAt {ofOwner : Bool}
    (h : (changeKey program accounts ofOwner).run s = .ok (lines, s'))
    (hK : configAt program s K = some c) :
    configAt program s' K = some c ∨ ∃ c', Governs accounts
      (if ofOwner then .transferOwner else .changeAuthority) K c c' ∧ configAt program s' K = some c' := by
  obtain ⟨ck, target, owner, c₀, h0, h1, h2, hc₀, hsig, hkey, hw, -⟩ := changeKey_effect h
  obtain ⟨hat, hframe⟩ := configAt_writeRecord hw
  by_cases hk : K = ck
  · subst hk
    obtain rfl : c = c₀ := Option.some.inj (hK.symm.trans hc₀)
    refine .inr ⟨_, ⟨h0, ⟨owner, h1, hsig, hkey⟩, ?_⟩, hat⟩
    cases ofOwner
    · exact .inr (.inl ⟨rfl, target, h2, rfl⟩)
    · exact .inl ⟨rfl, target, h2, rfl⟩
  · exact .inl ((hframe K hk).trans hK)

theorem changeFee_configAt {fee : UInt64}
    (h : (changeFee program accounts fee).run s = .ok (lines, s'))
    (hK : configAt program s K = some c) :
    configAt program s' K = some c ∨
      ∃ c', Governs accounts (.changeFee fee) K c c' ∧ configAt program s' K = some c' := by
  obtain ⟨-, ck, collector, owner, c₀, h0, h1, hc₀, hsig, hkey, h2, hw⟩ := changeFee_effect h
  obtain ⟨hat, hframe⟩ := configAt_writeRecord hw
  by_cases hk : K = ck
  · subst hk
    obtain rfl : c = c₀ := Option.some.inj (hK.symm.trans hc₀)
    refine .inr ⟨_, ⟨h0, ⟨owner, h1, hsig, hkey⟩, .inr (.inr ⟨fee, rfl, ?_⟩)⟩, hat⟩
    -- the collector moves only with a fee above zero
    by_cases hpos : 0 < fee
    · rw [if_pos hpos]
      exact .inr ⟨hpos, collector, h2 hpos, rfl⟩
    · rw [if_neg hpos]
      have hzero : fee = 0 := by
        rw [UInt64.lt_iff_toNat_lt, UInt64.toNat_zero] at hpos
        exact UInt64.toNat_inj.1 (by simp only [UInt64.toNat_zero]; omega)
      exact .inl ⟨hzero, rfl⟩
  · exact .inl ((hframe K hk).trans hK)

/-- A command that writes a route writes no config. -/
theorem changeLimit_configAt {max min : UInt64}
    (h : (changeLimit program accounts max min).run s = .ok (lines, s'))
    (hK : configAt program s K = some c) : configAt program s' K = some c := by
  obtain ⟨-, -, ck, rk, owner, c₀, r, -, -, -, -, -, -, hr, -, hw⟩ := changeLimit_effect h
  rw [← hK]
  exact (recordAt_writeRecord hw).2 K (configAt_ne_routeAt hK hr)

theorem create_configAt {destination : UInt32} {max min : UInt64}
    (h : (create program accounts destination max min).run s = .ok (lines, s'))
    (hK : configAt program s K = some c) : configAt program s' K = some c := by
  obtain ⟨-, -, rk, ta, mint, escrow, tp, ck, owner, c₀, existing, bump, -, -, -, -, -, -, -, -, -,
    -, hr, -, -, hw⟩ := create_effect h
  rw [← hK]
  exact (recordAt_writeRecord hw).2 K (configAt_ne_routeAt hK hr)

/-- A bridge-out moves lamports and tokens and rewrites its route, and leaves every config. -/
theorem bridgeOut_configAt {amount : UInt64} {recipient : String} {payload : Bytes}
    (h : (bridgeOut program accounts amount recipient payload).run s = .ok (lines, s'))
    (hK : configAt program s K = some c) : configAt program s' K = some c := by
  obtain ⟨rk, escrow, user, mint, authority, route, config, s₁, s₂, -, -, -, -, -, -, -, hr, -, -,
    -, -, hfee, htok, -, hw, -⟩ := bridgeOut_effect h
  have hkeep : s₂.accounts = s₁.accounts := by
    rcases htok with ⟨-, hburn⟩ | ⟨-, -, hmove⟩
    · exact burn_keeps _ _ _ _ _ _ _ hburn
    · exact transferTokens_keeps _ _ _ _ _ _ _ _ hmove
  calc configAt program s' K
      = configAt program s₂ K := (recordAt_writeRecord hw).2 K (configAt_ne_routeAt hK hr)
    _ = configAt program s₁ K := congrFun (recordAt_of_accounts hkeep) K
    _ = configAt program s K := congrFun (hfee.recordAt Config.decode_nil_toOption) K
    _ = some c := hK

theorem settle_configAt {amount : UInt64}
    (h : (settle program accounts amount).run s = .ok (lines, s'))
    (hK : configAt program s K = some c) : configAt program s' K = some c := by
  obtain ⟨ta, -, ⟨mint, user, -, hm⟩ | ⟨escrow, mint, user, -, ht⟩⟩ := settle_spends h
  · rw [← hK]
    exact congrFun (recordAt_of_accounts (mintTo_keeps _ _ _ _ _ _ _ hm)) K
  · rw [← hK]
    exact congrFun (recordAt_of_accounts (transferTokens_keeps _ _ _ _ _ _ _ _ ht)) K

/-- What a command of the bridge program does to an initialized config: nothing, or what a
governance command signed by its owner makes of it. -/
theorem process_configAt {data : Bytes}
    (h : (process program accounts data).run s = .ok (lines, s'))
    (hK : configAt program s K = some c) (hinit : c.initialized = true) :
    configAt program s' K = some c ∨ ∃ cmd c', Command.unpack data = .ok cmd ∧
      Governs accounts cmd K c c' ∧ configAt program s' K = some c' := by
  -- a governance command's own lemma names the change; the command it ran is the one unpacked
  have lift : ∀ {cmd}, Command.unpack data = .ok cmd →
      (configAt program s' K = some c ∨
        ∃ c', Governs accounts cmd K c c' ∧ configAt program s' K = some c') →
      configAt program s' K = some c ∨ ∃ cmd c', Command.unpack data = .ok cmd ∧
        Governs accounts cmd K c c' ∧ configAt program s' K = some c' :=
    fun hcmd h => h.imp_right fun ⟨c', hgov, hat⟩ => ⟨_, c', hcmd, hgov, hat⟩
  unfold process at h
  split at h
  · exact absurd h fail_run_ne_ok
  all_goals rename_i hcmd
  · exact .inl (setUp_configAt h hK hinit)
  · exact lift hcmd (changeKey_configAt h hK)
  · exact lift hcmd (changeKey_configAt h hK)
  · exact lift hcmd (changeFee_configAt h hK)
  · exact .inl (changeLimit_configAt h hK)
  · exact .inl (create_configAt h hK)
  · exact .inl (bridgeOut_configAt h hK)
  · exact .inl (settle_configAt h hK)

end Handlers

/-! ### Calls and runs of calls -/

namespace Ledger

variable {l : Ledger} {c : Call} {s s' : State} {K : Address} {cfg : Config}

/-- A call of another program than the bridge program leaves each record but at an account the
system program makes anew. -/
theorem Ran.recordAt_of_ne {α : Type} {decode : Bytes → Except CodecError α}
    (hnil : (decode []).toOption = none) (h : l.Ran c s s') (hp : c.program ≠ l.program)
    (ha : l.allocates K c = false) : recordAt decode l.program s' K = recordAt decode l.program s K := by
  rcases h.cases with ⟨hp', -⟩ | ⟨-, hs, -, u, hsys⟩ | ⟨-, -, -, hkeep⟩
  · exact absurd hp' hp
  · have hal : allocatesAt c.accounts c.data K = false := by
      simpa [Ledger.allocates, hs, hs ▸ hp] using ha
    exact processSystem_recordAt hnil hsys hal
  · exact congrFun (recordAt_of_accounts hkeep) K

/-- What a call does to an initialized config: the system program makes its account anew, which
it may only while the account holds no lamports; or the config stays; or a governance command
signed by its owner changes it. -/
theorem Ran.config_governed (h : l.Ran c s s') (hK : configAt l.program s K = some cfg)
    (hinit : cfg.initialized = true) :
    (l.allocates K c = true ∧ balance s K = 0) ∨ configAt l.program s' K = some cfg ∨
      ∃ cmd cfg', l.RunsCommand c cmd ∧ Governs c.accounts cmd K cfg cfg' ∧
        configAt l.program s' K = some cfg' := by
  by_cases hp : c.program = l.program
  · rcases h.cases with ⟨-, hb⟩ | ⟨hp', -⟩ | ⟨hp', -⟩
    · rcases process_configAt hb hK hinit with hsame | ⟨cmd, cfg', hcmd, hgov, hat⟩
      · exact .inr (.inl hsame)
      · exact .inr (.inr ⟨cmd, cfg', ⟨hp, hcmd⟩, hgov, hat⟩)
    all_goals exact absurd hp hp'
  cases ha : l.allocates K c
  · exact .inr (.inl ((Ran.recordAt_of_ne Config.decode_nil_toOption h hp ha).trans hK))
  · exact .inl ⟨rfl, h.allocates ha⟩

/-- Setting up goes through only on a config that is not initialized. -/
theorem Ran.setUp_uninitialized {fee : UInt64} (h : l.Ran c s s')
    (hc : l.RunsCommand c (.config fee)) :
    ∃ K cfg, (c.accounts[0]?).map Invoked.key = some K ∧ configAt l.program s K = some cfg ∧
      cfg.initialized = false := by
  obtain ⟨hp, hcmd⟩ := hc
  obtain ⟨-, hb⟩ := h.process_of_commandTag (commandTag?_eq hp hcmd)
  simp only [process, hcmd] at hb
  obtain ⟨-, ck, -, -, -, cfg, h0, -, -, -, hat, hfree, -⟩ := setUp_effect hb
  exact ⟨ck, cfg, h0, hat, hfree⟩

/-- Along calls that do not make the account at `K` anew, an initialized config there stays an
initialized config. The induction is on the trace, one call at a time. -/
theorem Trace.config_kept {cs : List Call} (h : l.Trace s cs s')
    (hno : ∀ c ∈ cs, l.allocates K c = false) (hK : configAt l.program s K = some cfg)
    (hinit : cfg.initialized = true) :
    ∃ cfg', configAt l.program s' K = some cfg' ∧ cfg'.initialized = true := by
  induction h generalizing cfg with
  | nil s => exact ⟨cfg, hK, hinit⟩
  | @cons c cs s s₁ s' hc _ ih =>
    have hrest : ∀ d ∈ cs, l.allocates K d = false := fun d hd => hno d (List.mem_cons_of_mem c hd)
    rcases hc.config_governed hK hinit with ⟨hal, -⟩ | hsame | ⟨cmd, cfg', -, hgov, hat⟩
    · rw [hno c List.mem_cons_self] at hal
      cases hal
    · exact ih hrest hsame hinit
    · exact ih hrest hat (hgov.initialized.trans hinit)

/-- Config governance. Every call leaves an initialized config as it was or changes it by a
governance command signed by the config's owner, unless the system program makes the config's
account anew, which it may only while the account holds no lamports. Setting up goes through only
on a config not yet initialized. Over the calls of transactions committed in turn, an initialized
config whose account none of them makes anew stays an initialized config. -/
theorem config_governance :
    (∀ (l : Ledger) (c : Call) (s s' : State) (K : Address) (cfg : Config), l.Ran c s s' →
      configAt l.program s K = some cfg → cfg.initialized = true →
      (l.allocates K c = true ∧ balance s K = 0) ∨ configAt l.program s' K = some cfg ∨
        ∃ cmd cfg', l.RunsCommand c cmd ∧ Governs c.accounts cmd K cfg cfg' ∧
          configAt l.program s' K = some cfg') ∧
    (∀ (l : Ledger) (c : Call) (s s' : State) (fee : UInt64), l.Ran c s s' →
      l.RunsCommand c (.config fee) → ∃ K cfg, (c.accounts[0]?).map Invoked.key = some K ∧
        configAt l.program s K = some cfg ∧ cfg.initialized = false) ∧
    ∀ (l : Ledger) (ts : List Transaction) (K : Address),
      l.Trace l.state (l.submittedCalls ts) (l.submitAll ts).2.state ∧
      ((∀ c ∈ l.submittedCalls ts, l.allocates K c = false) →
        ∀ cfg, configAt l.program l.state K = some cfg →
        cfg.initialized = true →
        ∃ cfg', configAt l.program (l.submitAll ts).2.state K = some cfg' ∧
          cfg'.initialized = true) := by
  refine ⟨fun l c s s' K cfg h hK hinit => h.config_governed hK hinit,
    fun l c s s' fee h hc => h.setUp_uninitialized hc, fun l ts K => ?_⟩
  obtain ⟨htr, -⟩ := submitAll_trace l ts
  exact ⟨htr, fun hno cfg hK hinit => htr.config_kept hno hK hinit⟩

/-! ### A config made anew

A config whose account holds no lamports, as one emptied by a transfer its key signed, is made
anew by the system program as zeros, which read as a config that is not initialized. -/

/-- The program of the examples. -/
def drainedProgram : Address := Address.ofBytes [9]

/-- The account that pays for a new account. -/
def drainedPayer : Address := Address.ofBytes [1]

/-- The key of an emptied config. -/
def drainedConfig : Address := Address.ofBytes [2]

/-- The key of an emptied route. -/
def drainedRoute : Address := Address.ofBytes [4]

/-- A config and a route of the program, both initialized and holding no lamports, and a payer. -/
def drainedState : State where
  accounts := ((({} : Table Account).set drainedPayer ⟨10, Address.systemProgram, []⟩).set
      drainedConfig ⟨0, drainedProgram, Config.encode ⟨true, drainedPayer, drainedPayer, 0,
        drainedPayer⟩⟩).set
    drainedRoute ⟨0, drainedProgram, Route.encode ⟨true, 0, Address.zero, drainedConfig,
      Address.zero, Address.zero, 7, 0, 1000, 1⟩⟩

/-- A system call that makes the account at `key` anew, `space` zero bytes owned by the program,
signed by the payer and by the key. -/
def remake (key : Address) (space : UInt64) : Call where
  program := Address.systemProgram
  accounts := [⟨drainedPayer, true⟩, ⟨key, true⟩]
  data := (SystemCommand.createAccount 0 space drainedProgram).encode
  written := []

/-- An initialized config does not always stay one: the system program makes the emptied config
above anew, and it reads as a config that is not initialized. -/
theorem initialized_config_remade :
    ¬ ∀ (l : Ledger) (c : Call) (s s' : State) (K : Address) (cfg : Config), l.Ran c s s' →
      configAt l.program s K = some cfg → cfg.initialized = true →
      ∃ cfg', configAt l.program s' K = some cfg' ∧ cfg'.initialized = true := by
  intro hall
  let l : Ledger := { program := drainedProgram }
  let c := remake drainedConfig 105
  have hrun : ((l.execute c.program c.accounts c.data).run drainedState).toOption.map
      (fun p => (p.1, configAt l.program p.2 drainedConfig)) = some ([], some {}) := by
    decide +kernel
  have hbefore : configAt l.program drainedState drainedConfig =
      some ⟨true, drainedPayer, drainedPayer, 0, drainedPayer⟩ := by
    decide +kernel
  cases hx : (l.execute c.program c.accounts c.data).run drainedState with
  | error e =>
    rw [hx] at hrun
    cases hrun
  | ok p =>
    obtain ⟨written, s'⟩ := p
    rw [hx] at hrun
    obtain ⟨rfl, hafter⟩ := Prod.mk.inj (Option.some.inj hrun)
    obtain ⟨cfg', hat, hinit⟩ := hall l c drainedState s' drainedConfig _ hx hbefore rfl
    rw [hafter] at hat
    cases hat
    cases hinit

end Ledger

end TokenBridge
