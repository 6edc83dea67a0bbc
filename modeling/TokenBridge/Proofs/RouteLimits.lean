import TokenBridge.Proofs.Governance
/-!
What may change a route of the bridge program.

An initialized route keeps its setup (`Route.KeepsSetup`): whether it is initialized, its bump
seed, token program, config, escrow, mint and destination. A bridge-out moves its index on and a
change of limits sets its limits (`SetsLimits`), in order and on the word of the owner of the
config the route names; nothing else of the bridge program or of the token program touches it
(`process_routeAt`, `Ran.route_kept`). A create goes through only on a route not yet
initialized.

As for configs, the system program may make a route's account anew once it holds no lamports, and
the route then reads as zeros, not initialized (`initialized_route_remade`). Limits stay in order
all the same (`LimitsOrdered`): every route that becomes initialized does so by a create, which
checks them, and zeros are no initialized route.
-/

namespace TokenBridge

open BridgeProgram

/-- `r'` keeps the setup of the route `r`: whether it is initialized, its bump seed, token
program, config, escrow, mint and destination. Its index and limits may differ. -/
structure Route.KeepsSetup (r r' : Route) : Prop where
  initialized : r'.initialized = r.initialized
  bumpSeed : r'.bumpSeed = r.bumpSeed
  tokenProgram : r'.tokenProgram = r.tokenProgram
  config : r'.config = r.config
  escrow : r'.escrow = r.escrow
  mint : r'.mint = r.mint
  destination : r'.destination = r.destination

namespace Route.KeepsSetup

variable {r r' r'' : Route}

theorem refl (r : Route) : r.KeepsSetup r := ⟨rfl, rfl, rfl, rfl, rfl, rfl, rfl⟩

theorem trans (h₁ : r.KeepsSetup r') (h₂ : r'.KeepsSetup r'') : r.KeepsSetup r'' :=
  ⟨h₂.1.trans h₁.1, h₂.2.trans h₁.2, h₂.3.trans h₁.3, h₂.4.trans h₁.4, h₂.5.trans h₁.5,
    h₂.6.trans h₁.6, h₂.7.trans h₁.7⟩

end Route.KeepsSetup

/-- Zeros read as no initialized route: the first byte of a route says whether it is
initialized. -/
theorem Route.not_initialized_of_zeros {n : Nat} {r : Route}
    (h : Route.decode (List.replicate n 0) = .ok r) : r.initialized = false := by
  have hhead := congrArg List.head? (Route.decode_eq_ok_iff.1 h)
  cases n with
  | zero => simp [Route.encode, Wire.bool] at hhead
  | succ n =>
    cases hi : r.initialized
    · rfl
    · simp [Route.encode, Wire.bool, List.replicate_succ, hi] at hhead

/-- `accounts` set the limits of the route `r` at `key` to `max` and `min`, in order, on the word
of the owner of the route's config: account 0 is that config, account 1 the route, and account 2
signed and is the config's owner. -/
def SetsLimits (program : Address) (s : State) (accounts : List Invoked) (key : Address) (r : Route)
    (max min : UInt64) : Prop :=
  min ≤ max ∧ (accounts[0]?).map Invoked.key = some r.config ∧
    (accounts[1]?).map Invoked.key = some key ∧
    ∃ c owner, configAt program s r.config = some c ∧ accounts[2]? = some owner ∧
      owner.signer = true ∧ owner.key = c.owner

/-- Every initialized route that the program keeps has its limits in order. -/
def LimitsOrdered (program : Address) (s : State) : Prop :=
  ∀ K r, routeAt program s K = some r → r.initialized = true → r.min ≤ r.max

section Handlers

variable {program : Address} {accounts : List Invoked} {s s' : State} {lines : List String}
  {K : Address} {r : Route}

/-- Writing a route whose limits are in order, if it is initialized, keeps the limits of every
route in order. -/
theorem LimitsOrdered.writeRecord {rk : Address} {u : Unit} (hs : LimitsOrdered program s)
    (hle : r.initialized = true → r.min ≤ r.max)
    (hw : (writeRecord program rk r.encode).run s = .ok (u, s')) : LimitsOrdered program s' := by
  intro K r' hK' hinit'
  obtain ⟨hat, hframe⟩ := routeAt_writeRecord hw
  by_cases hk : K = rk
  · subst hk
    rw [hat, Route.decode_encode] at hK'
    obtain rfl := Option.some.inj hK'
    exact hle hinit'
  · exact hs K r' ((hframe K hk).symm.trans hK') hinit'

/-- What a command of the bridge program does to an initialized route: it keeps its setup, and its
limits move only by a change of limits on the word of the owner of its config. -/
theorem process_routeAt {data : Bytes}
    (h : (process program accounts data).run s = .ok (lines, s'))
    (hK : routeAt program s K = some r) (hinit : r.initialized = true) :
    ∃ r', routeAt program s' K = some r' ∧ r.KeepsSetup r' ∧
      ((r'.max = r.max ∧ r'.min = r.min) ∨ ∃ max min,
        Command.unpack data = .ok (.changeLimit max min) ∧
          SetsLimits program s accounts K r max min ∧ r'.max = max ∧ r'.min = min) := by
  have hsame : routeAt program s' K = some r → ∃ r', routeAt program s' K = some r' ∧
      r.KeepsSetup r' ∧ ((r'.max = r.max ∧ r'.min = r.min) ∨ ∃ max min,
        Command.unpack data = .ok (.changeLimit max min) ∧
          SetsLimits program s accounts K r max min ∧ r'.max = max ∧ r'.min = min) :=
    fun hat => ⟨r, hat, .refl r, .inl ⟨rfl, rfl⟩⟩
  obtain ⟨cmd, hcmd, hspec⟩ := process_cases h
  cases cmd with
  | bridge amount recipient payload =>
    -- a bridge-out moves its own route's index on and leaves every other route
    obtain ⟨rk, log, -, -, -, -, -, route, -, hat, -, -, -, -, -, hat', hframe, -⟩ := hspec
    by_cases hk : K = rk
    · subst hk
      obtain rfl : r = route := Option.some.inj (hK.symm.trans hat)
      exact ⟨_, hat', ⟨rfl, rfl, rfl, rfl, rfl, rfl, rfl⟩, .inl ⟨rfl, rfl⟩⟩
    · exact hsame ((hframe K hk).trans hK)
  | create destination max min =>
    -- a create writes only a route that was not initialized
    obtain ⟨-, rk, existing, route, -, hat, hfree, -, -, -, hframe⟩ := hspec
    have hk : K ≠ rk := by
      rintro rfl
      obtain rfl : r = existing := Option.some.inj (hK.symm.trans hat)
      rw [hinit] at hfree
      cases hfree
    exact hsame ((hframe K hk).trans hK)
  | changeLimit max min =>
    simp only [process, hcmd] at h
    obtain ⟨-, hle, ck, rk, owner, c, r₀, h0, h1, h2, hc, hsig, hkey, hr₀, hcfg, hw⟩ :=
      changeLimit_effect h
    obtain ⟨hat, hframe⟩ := routeAt_writeRecord hw
    by_cases hk : K = rk
    · subst hk
      obtain rfl : r = r₀ := Option.some.inj (hK.symm.trans hr₀)
      subst hcfg
      refine ⟨{ r with max, min }, by rw [hat, Route.decode_encode]; rfl,
        ⟨rfl, rfl, rfl, rfl, rfl, rfl, rfl⟩, .inr ⟨max, min, hcmd, ?_, rfl, rfl⟩⟩
      exact ⟨hle, h0, h1, c, owner, hc, h2, hsig, hkey⟩
    · exact hsame ((hframe K hk).trans hK)
  | _ => exact hsame (hspec.1 ▸ hK)

/-- Every command of the bridge program keeps the limits of initialized routes in order: a create
and a change of limits check the limits they write, and a bridge-out keeps them. -/
theorem process_limitsOrdered {data : Bytes}
    (h : (process program accounts data).run s = .ok (lines, s'))
    (hs : LimitsOrdered program s) : LimitsOrdered program s' := by
  intro K r' hK' hinit'
  obtain ⟨cmd, hcmd, hspec⟩ := process_cases h
  cases cmd with
  | bridge amount recipient payload =>
    obtain ⟨rk, log, -, -, -, -, -, route, -, hat, -, -, -, -, -, hat', hframe, -⟩ := hspec
    by_cases hk : K = rk
    · subst hk
      rw [hat'] at hK'
      cases hK'
      exact hs K route hat hinit'
    · exact hs K r' ((hframe K hk).symm.trans hK') hinit'
  | create destination max min =>
    -- a create and a change of limits write limits they have checked
    simp only [process, hcmd] at h
    obtain ⟨-, hle, rk, ta, mint, escrow, tp, ck, owner, c, existing, bump, -, -, -, -, -, -, -, -, -,
      -, -, -, -, hw⟩ := create_effect h
    exact hs.writeRecord (fun _ => hle) hw K r' hK' hinit'
  | changeLimit max min =>
    simp only [process, hcmd] at h
    obtain ⟨-, hle, ck, rk, -, -, r, -, -, -, -, -, -, -, -, hw⟩ := changeLimit_effect h
    exact hs.writeRecord (fun _ => hle) hw K r' hK' hinit'
  | _ => exact hs K r' (hspec.1 ▸ hK') hinit'

/-- Where the system program makes an account anew, the account holds zeros. -/
theorem processSystem_allocated {data : Bytes} {u : Unit}
    (h : (processSystem accounts data).run s = .ok (u, s'))
    (hk : allocatesAt accounts data K = true) :
    ∃ a n, s'.accounts.get? K = some a ∧ a.data = List.replicate n 0 := by
  rcases processSystem_effect h with ⟨source, target, owner, lamports, space, -, ht, hal⟩ |
    ⟨source, target, lamports, hc, -⟩
  · obtain ⟨-, s₁, -, rfl⟩ := allocate_effect hal
    have hK : target = K := by
      simp [allocatesAt, ht] at hk
      exact hk.2
    subst hK
    exact ⟨_, space.toNat, Table.get?_set_self _ _ _, rfl⟩
  · simp [allocatesAt, hc] at hk

end Handlers

/-! ### Calls and runs of calls -/

namespace Ledger

variable {l : Ledger} {c : Call} {s s' : State} {K : Address} {r : Route}

/-- What a call does to an initialized route: the system program makes its account anew, which it
may only while the account holds no lamports; or the route keeps its setup, and its limits move
only by a change of limits on the word of the owner of its config. -/
theorem Ran.route_kept (h : l.Ran c s s') (hK : routeAt l.program s K = some r)
    (hinit : r.initialized = true) :
    (l.allocates K c = true ∧ balance s K = 0) ∨
      ∃ r', routeAt l.program s' K = some r' ∧ r.KeepsSetup r' ∧
        ((r'.max = r.max ∧ r'.min = r.min) ∨ ∃ max min, l.RunsCommand c (.changeLimit max min) ∧
          SetsLimits l.program s c.accounts K r max min ∧ r'.max = max ∧ r'.min = min) := by
  by_cases hp : c.program = l.program
  · rcases h.cases with ⟨-, hb⟩ | ⟨hp', -⟩ | ⟨hp', -⟩
    · obtain ⟨r', hat, hkeep, hlim⟩ := process_routeAt hb hK hinit
      refine .inr ⟨r', hat, hkeep, ?_⟩
      rcases hlim with hlim | ⟨max, min, hcmd, hsets, hmax, hmin⟩
      · exact .inl hlim
      · exact .inr ⟨max, min, ⟨hp, hcmd⟩, hsets, hmax, hmin⟩
    all_goals exact absurd hp hp'
  cases ha : l.allocates K c
  · have hat : routeAt l.program s' K = some r :=
      (Ran.recordAt_of_ne decode_nil_toOption h hp ha).trans hK
    exact .inr ⟨r, hat, .refl r, .inl ⟨rfl, rfl⟩⟩
  · exact .inl ⟨rfl, h.allocates ha⟩

/-- A create goes through only on a route that is not initialized. -/
theorem Ran.create_uninitialized {destination : UInt32} {max min : UInt64} (h : l.Ran c s s')
    (hc : l.RunsCommand c (.create destination max min)) :
    ∃ K r, (c.accounts[0]?).map Invoked.key = some K ∧ routeAt l.program s K = some r ∧
      r.initialized = false := by
  obtain ⟨hp, hcmd⟩ := hc
  obtain ⟨-, hb⟩ := h.process_of_commandTag (commandTag?_eq hp hcmd)
  simp only [process, hcmd] at hb
  obtain ⟨-, -, rk, -, -, -, -, -, -, -, existing, -, h0, -, -, -, -, -, -, -, -, -, hat, hfree, -,
    -⟩ := create_effect hb
  exact ⟨rk, existing, h0, hat, hfree⟩

/-- Every call keeps the limits of initialized routes in order, the system program's too: an
account it makes anew holds zeros, which are no initialized route. -/
theorem Ran.limitsOrdered (h : l.Ran c s s') (hs : LimitsOrdered l.program s) :
    LimitsOrdered l.program s' := by
  rcases h.cases with ⟨-, hb⟩ | ⟨-, -, -, u, hsys⟩ | ⟨-, -, -, hkeep⟩
  · exact process_limitsOrdered hb hs
  · intro K r' hK' hinit'
    cases hal : allocatesAt c.accounts c.data K
    · exact hs K r' ((processSystem_recordAt decode_nil_toOption hsys hal).symm.trans hK') hinit'
    · obtain ⟨a, n, ha, hzero⟩ := processSystem_allocated hsys hal
      obtain ⟨b, hb, -, hdec⟩ := recordAt_eq_some.1 ((routeAt_eq_recordAt).symm.trans hK')
      rw [ha] at hb
      cases hb
      rw [hzero] at hdec
      rw [Route.not_initialized_of_zeros hdec] at hinit'
      cases hinit'
  · intro K r' hK' hinit'
    exact hs K r' ((congrFun (routeAt_of_accounts hkeep) K).symm.trans hK') hinit'

theorem Trace.limitsOrdered {cs : List Call} (h : l.Trace s cs s') (hs : LimitsOrdered l.program s) :
    LimitsOrdered l.program s' := by
  induction h with
  | nil s => exact hs
  | cons hc _ ih => exact ih (hc.limitsOrdered hs)

/-- Along calls that do not make the account at `K` anew, an initialized route there keeps its
setup. The induction is on the trace, one call at a time. -/
theorem Trace.route_kept {cs : List Call} (h : l.Trace s cs s')
    (hno : ∀ c ∈ cs, l.allocates K c = false) (hK : routeAt l.program s K = some r)
    (hinit : r.initialized = true) :
    ∃ r', routeAt l.program s' K = some r' ∧ r.KeepsSetup r' := by
  induction h generalizing r with
  | nil s => exact ⟨r, hK, .refl r⟩
  | @cons c cs s s₁ s' hc _ ih =>
    have hrest : ∀ d ∈ cs, l.allocates K d = false := fun d hd => hno d (List.mem_cons_of_mem c hd)
    rcases hc.route_kept hK hinit with ⟨hal, -⟩ | ⟨r₁, hat, hkeep, -⟩
    · rw [hno c List.mem_cons_self] at hal
      cases hal
    · obtain ⟨r', hat', hkeep'⟩ := ih hrest hat (hkeep.initialized.trans hinit)
      exact ⟨r', hat', hkeep.trans hkeep'⟩

/-- Routes keep their setup. Every call leaves an initialized route with its setup, and changes
its limits only by a change of limits signed by the owner of the route's config, unless the system
program makes the route's account anew, which it may only while the account holds no lamports. A
create goes through only on a route not yet initialized. Over the calls of transactions committed
in turn, initialized routes keep their limits in order, and one whose account none of them makes
anew keeps its setup. -/
theorem route_setup_kept :
    (∀ (l : Ledger) (c : Call) (s s' : State) (K : Address) (r : Route), l.Ran c s s' →
      routeAt l.program s K = some r → r.initialized = true →
      (l.allocates K c = true ∧ balance s K = 0) ∨
        ∃ r', routeAt l.program s' K = some r' ∧ r.KeepsSetup r' ∧
          ((r'.max = r.max ∧ r'.min = r.min) ∨ ∃ max min, l.RunsCommand c (.changeLimit max min) ∧
            SetsLimits l.program s c.accounts K r max min ∧ r'.max = max ∧ r'.min = min)) ∧
    (∀ (l : Ledger) (c : Call) (s s' : State) (destination : UInt32) (max min : UInt64),
      l.Ran c s s' → l.RunsCommand c (.create destination max min) →
      ∃ K r, (c.accounts[0]?).map Invoked.key = some K ∧ routeAt l.program s K = some r ∧
        r.initialized = false) ∧
    ∀ (l : Ledger) (ts : List Transaction),
      l.Trace l.state (l.submittedCalls ts) (l.submitAll ts).2.state ∧
      (LimitsOrdered l.program l.state → LimitsOrdered l.program (l.submitAll ts).2.state) ∧
      ∀ (K : Address) (r : Route), (∀ c ∈ l.submittedCalls ts, l.allocates K c = false) →
        routeAt l.program l.state K = some r → r.initialized = true →
        ∃ r', routeAt l.program (l.submitAll ts).2.state K = some r' ∧ r.KeepsSetup r' := by
  refine ⟨fun l c s s' K r h hK hinit => h.route_kept hK hinit,
    fun l c s s' destination max min h hc => h.create_uninitialized hc, fun l ts => ?_⟩
  obtain ⟨htr, -⟩ := submitAll_trace l ts
  exact ⟨htr, htr.limitsOrdered, fun K r hno hK hinit => htr.route_kept hno hK hinit⟩

/-! ### A route made anew -/

/-- An initialized route does not always stay one: the system program makes the emptied route of
`drainedState` anew, and it reads as a route that is not initialized. -/
theorem initialized_route_remade :
    ¬ ∀ (l : Ledger) (c : Call) (s s' : State) (K : Address) (r : Route), l.Ran c s s' →
      routeAt l.program s K = some r → r.initialized = true →
      ∃ r', routeAt l.program s' K = some r' ∧ r'.initialized = true := by
  intro hall
  let l : Ledger := { program := drainedProgram }
  let c := remake drainedRoute 158
  have hrun : ((l.execute c.program c.accounts c.data).run drainedState).toOption.map
      (fun p => (p.1, routeAt l.program p.2 drainedRoute)) = some ([], some {}) := by
    decide +kernel
  have hbefore : routeAt l.program drainedState drainedRoute = some ⟨true, 0, Address.zero,
      drainedConfig, Address.zero, Address.zero, 7, 0, 1000, 1⟩ := by
    decide +kernel
  cases hx : (l.execute c.program c.accounts c.data).run drainedState with
  | error e =>
    rw [hx] at hrun
    cases hrun
  | ok p =>
    obtain ⟨written, s'⟩ := p
    rw [hx] at hrun
    obtain ⟨rfl, hafter⟩ := Prod.mk.inj (Option.some.inj hrun)
    obtain ⟨r', hat, hinit⟩ := hall l c drainedState s' drainedRoute _ hx hbefore rfl
    rw [hafter] at hat
    cases hat
    cases hinit

end Ledger

end TokenBridge
