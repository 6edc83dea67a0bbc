import TokenBridge.Proofs.Refusals
import TokenBridge.Proofs.SignerCompleteness
/-!
How a client's rejections are classified, and what each class means.

When a client flow stops with a rejection, the ledger refused one instruction of the transaction
the flow submitted: the instructions before it ran from the ledger's state, that one failed with
a failure that carries the rejection's code, and the rejection names its position and its program
(`RejectedRun`). Every call of the client stops so (`Client.Call.rejectsBy`).

The rejection is then a limit violation exactly when the bridge program refused that instruction
with one of its limit refusals, and an unauthorised signer exactly when with one of its signer
refusals (`rejection_classification`). The limit refusals are more than limits: a bridge-out that
names a token program other than its route's is one, and `otherTokenProgram_limitViolation` runs one
on a route that takes the amount. A refusal of the token or the system program is never classified.
-/

namespace TokenBridge

open BridgeProgram Client

/-! ### Where a run of instructions fails -/

namespace Ledger

variable {l : Ledger} {m : Message}

/-- A submission refused with a program's code failed at one of its instructions, with a failure
that carries that code; the refusal names the position. -/
theorem sendAndConfirm_programError {t : Transaction} {idx : UInt8} {code : UInt32} {l' : Ledger}
    (h : l.sendAndConfirm t = (.refused (.programError idx code), l')) :
    ∃ i f, ({ l with submissions := l.submissions + 1 } : Ledger).runFrom t.message 0
        t.message.instructions l.state [] = .error (i, f) ∧ idx = i.toUInt8 ∧ f.code? = some code := by
  obtain ⟨-, ⟨_, hv⟩ | ⟨-, hv⟩ | ⟨i, f, hrun, hv⟩⟩ :=
    sendAndConfirm_of_not_committed h fun _ hc => by cases hc
  · cases hv
  · cases hv
  · exact ⟨i, f, hrun, failureVerdict_eq_programError.1 hv.symm⟩

end Ledger

/-! ### A rejected instruction -/

/-- The rejection `r` of a transaction with message `m`, submitted on `l`: the instructions `done`
before `ix` ran from `l`'s state to `s`, and `ix` failed there with `f`, which carries `r`'s code;
`r` names the position of `ix`, its program, and whether that is `l`'s program. -/
structure RejectedRun (l : Ledger) (r : Rejection) (m : Message) (done : List CompiledInstruction)
    (ix : CompiledInstruction) (s : State) (f : Failure) : Prop where
  split : ∃ rest, m.instructions = done ++ ix :: rest
  runs : ∃ lines, Ledger.Runs l m done l.state s lines
  fails : (l.execute (Ledger.programOf m ix) (Ledger.accountsOf m ix) ix.data).run s = .error f
  index : r.instructionIndex.toNat = done.length
  program : r.programId = Ledger.programOf m ix
  own : r.bridgeProgram = (Ledger.programOf m ix == l.program)
  code : f.code? = some r.code

/-- The rejection `r` of a transaction submitted on `l` comes from a run of it. -/
def Rejection.Traced (r : Rejection) (l : Ledger) : Prop :=
  ∃ m done ix s f, RejectedRun l r m done ix s f

namespace RejectedRun

variable {l : Ledger} {r : Rejection} {m : Message} {done : List CompiledInstruction}
  {ix : CompiledInstruction} {s : State} {f : Failure}

/-- A refusal by the bridge program is classified by its code. -/
theorem kind_of_program (hr : RejectedRun l r m done ix s f) {e : ErrorCode} (hf : f = .program e)
    (hp : Ledger.programOf m ix = l.program) : r.kind = e.kind := by
  have hcode : e.code = r.code := by
    have h := hr.code
    rw [hf] at h
    exact Option.some.inj h
  rw [Rejection.kind_eq, hr.own, hp, beq_self_eq_true, if_pos rfl, ← hcode, ErrorCode.ofCode?_code]
  rfl

/-- A classified rejection is a refusal by the bridge program, of the instruction's own program,
with the code it is classified by. -/
theorem classified (hr : RejectedRun l r m done ix s f) (hk : r.kind ≠ .other) :
    Ledger.programOf m ix = l.program ∧ ∃ e, f = .program e ∧ r.kind = e.kind := by
  rw [Rejection.kind_eq] at hk
  cases hb : r.bridgeProgram with
  | false => simp [hb] at hk
  | true =>
    rw [hb, if_pos rfl] at hk
    have hp : Ledger.programOf m ix = l.program := by
      have h := hr.own
      rw [hb] at h
      exact beq_iff_eq.1 h.symm
    cases he : ErrorCode.ofCode? r.code with
    | none => simp [he] at hk
    | some e =>
      rw [he] at hk
      -- a token or a system failure carries no classified code
      by_cases hprog : ∃ e', f = .program e'
      · obtain ⟨e', rfl⟩ := hprog
        exact ⟨hp, e', rfl, hr.kind_of_program rfl hp⟩
      · exact absurd (Failure.kind_ofCode_other hr.code (fun e' h => hprog ⟨e', h⟩) he) hk

/-- A token or a system failure is never classified. -/
theorem kind_of_not_program (hr : RejectedRun l r m done ix s f) (hf : ∀ e, f ≠ .program e) :
    r.kind = .other := by
  by_contra hk
  obtain ⟨-, e, rfl, -⟩ := hr.classified hk
  exact hf e rfl

/-- What a classified rejection means: a limit violation is exactly a limit refusal of the bridge
program, an unauthorised signer exactly a signer refusal; a token or a system failure is neither. -/
theorem kinds (hr : RejectedRun l r m done ix s f) :
    (r.kind = .limitViolation ↔ Ledger.programOf m ix = l.program ∧
        ∃ e cmd, f = .program e ∧ Command.unpack ix.data = .ok cmd ∧
          LimitRefusal l.program (Ledger.accountsOf m ix) s cmd e) ∧
      (r.kind = .unauthorizedSigner ↔ Ledger.programOf m ix = l.program ∧
        ∃ e cmd, f = .program e ∧ Command.unpack ix.data = .ok cmd ∧
          SignerRefusal l.program (Ledger.accountsOf m ix) s cmd e) ∧
      ((∃ t, f = .token t) ∨ (∃ t, f = .system t) → r.kind = .other) := by
  -- the bridge program runs the instruction when it is the instruction's program
  have hrun : ∀ e, Ledger.programOf m ix = l.program → f = .program e →
      (process l.program (Ledger.accountsOf m ix) ix.data).run s = .error (.program e) := by
    intro e hp hf
    rw [← execute_own, ← hp, ← hf]
    exact hr.fails
  refine ⟨⟨fun hk => ?_, ?_⟩, ⟨fun hk => ?_, ?_⟩, ?_⟩
  · obtain ⟨hp, e, hf, he⟩ := hr.classified (by rw [hk]; decide)
    obtain ⟨cmd, hcmd, hl⟩ := (process_refusal_kind (hrun e hp hf)).1.1 (he ▸ hk)
    exact ⟨hp, e, cmd, hf, hcmd, hl⟩
  · rintro ⟨hp, e, cmd, hf, -, hl⟩
    rw [hr.kind_of_program hf hp, hl.kind]
  · obtain ⟨hp, e, hf, he⟩ := hr.classified (by rw [hk]; decide)
    obtain ⟨cmd, hcmd, hl⟩ := (process_refusal_kind (hrun e hp hf)).2.1 (he ▸ hk)
    exact ⟨hp, e, cmd, hf, hcmd, hl⟩
  · rintro ⟨hp, e, cmd, hf, -, hl⟩
    rw [hr.kind_of_program hf hp, hl.kind]
  · rintro (⟨t, rfl⟩ | ⟨t, rfl⟩)
    · exact hr.kind_of_not_program fun _ h => by cases h
    · exact hr.kind_of_not_program fun _ h => by cases h

end RejectedRun

/-! ### Flows whose rejections come from runs -/

namespace Flow

variable {α β : Type}

/-- Every rejection the flow stops with, from any ledger, comes from a run on that ledger. -/
def RejectsBy (x : Flow α) : Prop :=
  ∀ l op r l', x.run.run l = (.error (.failed (.rejected op r)), l') → r.Traced l

theorem RejectsBy.pure (a : α) : RejectsBy (pure a : Flow α) := by
  intro l op r l' h
  cases h

theorem RejectsBy.get : RejectsBy (get : Flow Ledger) := by
  intro l op r l' h
  cases h

theorem RejectsBy.throw {s : Stop} (hs : ∀ op r, s ≠ .failed (.rejected op r)) :
    RejectsBy (throw s : Flow α) := by
  intro l op r l' h
  cases h
  exact absurd rfl (hs op r)

/-- A step that only reads, followed by any flow whose rejections come from runs. -/
theorem RejectsBy.bind {x : Flow α} {f : α → Flow β} (hr : ReadsOnly x) (hx : RejectsBy x)
    (hf : ∀ a, RejectsBy (f a)) : RejectsBy (x >>= f) := by
  intro l op r l' h
  rw [Flow.run_bind] at h
  rcases hrun : x.run.run l with ⟨v, l₁⟩
  have hl : l₁ = l := by simpa [hrun] using hr l
  subst hl
  rw [hrun] at h
  cases v with
  | ok a => exact hf a l₁ op r l' h
  | error e =>
    obtain ⟨⟨⟩, rfl⟩ := Prod.mk.inj h
    exact hx _ op r _ hrun

/-- A flow followed by one that never stops is rejected only as the first. -/
theorem RejectsBy.bind_neverStops {x : Flow α} {f : α → Flow β} (hx : RejectsBy x)
    (hf : ∀ a, NeverStops (f a)) : RejectsBy (x >>= f) := by
  intro l op r l' h
  rw [Flow.run_bind] at h
  rcases hrun : x.run.run l with ⟨v, l₁⟩
  rw [hrun] at h
  cases v with
  | ok a =>
    obtain ⟨b, l₂, hb⟩ := hf a l₁
    dsimp only at h
    rw [hb] at h
    cases h
  | error e =>
    obtain ⟨⟨⟩, rfl⟩ := Prod.mk.inj h
    exact hx _ op r _ hrun

end Flow

namespace Client

open TokenBridge.Flow

theorem fetch_rejectsBy {α : Type} (op : String) (decode : Bytes → Except CodecError α)
    (key : Address) : RejectsBy (fetch op decode key) := by
  unfold fetch
  refine .bind .get .get fun l => ?_
  split
  · exact .throw fun _ _ h => by cases h
  · split
    · exact .pure _
    · exact .throw fun _ _ h => by cases h

/-- A transaction of at most 256 instructions is rejected only as a run of it on the ledger
refuses it: the one-byte position the ledger reports is the failing instruction's. -/
theorem submit_rejectsBy (a : Assembled) (hlen : a.message.instructions.length ≤ 256) :
    RejectsBy (submit a) := by
  intro l op r l' h
  rw [submit_run] at h
  cases hs : a.sign l.latestBlockhash.1 with
  | error e =>
    rw [hs] at h
    cases h
  | ok t =>
    rw [hs] at h
    dsimp only at h
    rcases hsc : l.latestBlockhash.2.sendAndConfirm t with ⟨v, l₁⟩
    rw [hsc] at h
    cases v with
    | committed sig => cases h
    | aborted => cases h
    | refused err =>
      cases err with
      | programError idx code =>
        obtain ⟨⟨⟩, -⟩ := Prod.mk.inj h
        obtain ⟨i, f, hrun, rfl, hcode⟩ := Ledger.sendAndConfirm_programError hsc
        obtain ⟨done, ix, rest, s, lines, hsplit, rfl, hruns, hfail⟩ := Ledger.runFrom_eq_error hrun
        -- a position past the keys stops the simulator, a failure with no code
        replace hfail := hfail.resolve_left fun ⟨_, hf⟩ => by
          subst hf
          simp [Failure.code?] at hcode
        -- the position fits in a byte, since the message is the assembled one
        have hlt : done.length < 256 := by
          have hlen' := congrArg List.length hsplit
          rw [sign_eq_ok hs] at hlen'
          simp only [List.length_append, List.length_cons] at hlen'
          omega
        have hidx : (0 + done.length).toUInt8.toNat = done.length := by
          simp only [Nat.zero_add, Nat.toUInt8, UInt8.toNat_ofNat']
          omega
        have hat : (t.message.programAt? done.length).getD Address.zero = Ledger.programOf t.message ix := by
          simp [Message.programAt?, hsplit, Ledger.programOf, List.getD_eq_getElem?_getD]
        refine ⟨t.message, done, ix, s, f, ⟨⟨rest, hsplit⟩, ⟨lines, hruns.congr l rfl rfl⟩, ?_, hidx, ?_, ?_, hcode⟩⟩
        · have hx : ({ l.latestBlockhash.2 with submissions := l.latestBlockhash.2.submissions + 1 } :
              Ledger).execute = l.execute := Ledger.execute_congr rfl rfl
          rwa [hx] at hfail
        · rw [hidx, hat]
        · rw [hidx, hat]
      | _ => cases h

/-- Putting a transaction together from at most 256 instructions hands the rest a message of at
most 256 instructions. -/
theorem assembleOrStop_bind {α : Type} {op : String} {payer : Address} {ixs : List Instruction}
    {signers : List Signer} {f : Assembled → Flow α} (hlen : ixs.length ≤ 256)
    (hf : ∀ a, a.message.instructions.length ≤ 256 → RejectsBy (f a)) :
    RejectsBy (assembleOrStop op payer ixs signers >>= f) := by
  unfold assembleOrStop
  split
  · rename_i a ha
    rw [pure_bind]
    refine hf a ?_
    rw [assemble_eq_ok ha, Message.instructions_compile, List.length_map]
    exact hlen
  · simp only [failWith, ExceptT.bind_throw]
    exact .throw fun _ _ h => by cases h

/-- A flow that reads the ledger, builds one instruction from it, and submits it. -/
theorem single_rejectsBy {op : String} {kp : Keypair} (build : Ledger → Instruction) :
    RejectsBy (get >>= fun l => assembleOrStop op kp.key [build l] [.keypair kp] >>= submit) :=
  .bind .get .get fun _ => assembleOrStop_bind (by simp) submit_rejectsBy

theorem initializeConfig_rejectsBy (payer : Keypair) (seed : String)
    (owner authority feeCollector : Address) (fee : UInt64) :
    RejectsBy (initializeConfig payer seed owner authority feeCollector fee) := by
  unfold initializeConfig
  refine .bind .get .get fun l => ?_
  dsimp only
  split
  · exact .throw fun _ _ h => by cases h
  · exact assembleOrStop_bind (by simp) fun a ha =>
      .bind_neverStops (submit_rejectsBy a ha) fun _ => .pure _

theorem createRoute_rejectsBy (payer route owner : Keypair) (p : RouteParams) :
    RejectsBy (createRoute payer route owner p) := by
  unfold createRoute
  refine .bind .get .get fun _ => ?_
  dsimp only
  -- a failed search for the token authority stops the flow with no rejection
  split
  · exact .throw fun _ _ h => by cases h
  · exact assembleOrStop_bind (by simp) submit_rejectsBy

theorem settle_rejectsBy (authority : Keypair) (r : SettleRequest) :
    RejectsBy (settle authority r) := by
  unfold settle
  refine .bind .get .get fun _ => ?_
  dsimp only
  split
  · exact .throw fun _ _ h => by cases h
  · exact assembleOrStop_bind (by simp) submit_rejectsBy

theorem bridge_rejectsBy (approve : Bool) (payer authority : Keypair) (r : BridgeRequest) :
    RejectsBy (bridge approve payer authority r) := by
  unfold bridge
  refine .bind .get .get fun l => .bind (fetch_readsOnly _ _ _) (fetch_rejectsBy _ _ _)
    fun config => ?_
  -- the flow submits one or two instructions, and reads the receipt
  have tail : ∀ ixs : List Instruction, ixs.length ≤ 2 →
      RejectsBy (assembleOrStop (if approve then "approve_and_bridge" else "bridge") payer.key ixs
        [.keypair payer, .keypair authority] >>= fun a => submit a >>= receipt) :=
    fun ixs hlen => assembleOrStop_bind (by omega) fun a ha =>
      .bind_neverStops (submit_rejectsBy a ha) receipt_neverStops
  dsimp only
  cases approve
  · simp only [Bool.false_eq_true, if_false, pure_bind]
    exact tail _ (by simp)
  · simp only [if_true]
    cases Builder.approve r.tokenProgram r.user authority.key payer.key r.amount with
    | error reason =>
      simp only [failWith, ExceptT.bind_throw]
      exact .throw fun _ _ h => by cases h
    | ok ix =>
      simp only [pure_bind]
      exact tail _ (by simp)

/-- Every rejection a call stops with comes from a run of the transaction it submitted. -/
theorem Call.rejectsBy : ∀ {α : Type} (c : Call α), RejectsBy c.run
  | _, .initializeConfig payer seed owner authority feeCollector fee =>
    initializeConfig_rejectsBy payer seed owner authority feeCollector fee
  | _, .transferOwner _ _ _ => single_rejectsBy _
  | _, .changeAuthority _ _ _ => single_rejectsBy _
  | _, .changeFee _ _ _ _ => single_rejectsBy _
  | _, .createRoute payer route owner p => createRoute_rejectsBy payer route owner p
  | _, .changeLimit _ _ _ _ _ => single_rejectsBy _
  | _, .bridge approve payer transferAuthority r => bridge_rejectsBy approve payer transferAuthority r
  | _, .settle authority r => settle_rejectsBy authority r
  | _, .fetchConfig key => fetch_rejectsBy _ _ key
  | _, .fetchRoute key => fetch_rejectsBy _ _ key

end Client

/-! ### Classified rejections -/

/-- Every rejection a client call stops with comes from the failing instruction of the transaction it
submitted, and is a limit violation or an unauthorised signer exactly when the bridge program
refused that instruction with one of its limit or signer refusals. -/
theorem rejection_classification {α : Type} (c : Client.Call α) (l l' : Ledger) (op : String)
    (r : Rejection) (h : c.run.run.run l = (.error (.failed (.rejected op r)), l')) :
    ∃ m done ix s f, RejectedRun l r m done ix s f ∧
      (r.kind = .limitViolation ↔ Ledger.programOf m ix = l.program ∧
        ∃ e cmd, f = .program e ∧ Command.unpack ix.data = .ok cmd ∧
          LimitRefusal l.program (Ledger.accountsOf m ix) s cmd e) ∧
      (r.kind = .unauthorizedSigner ↔ Ledger.programOf m ix = l.program ∧
        ∃ e cmd, f = .program e ∧ Command.unpack ix.data = .ok cmd ∧
          SignerRefusal l.program (Ledger.accountsOf m ix) s cmd e) ∧
      ((∃ t, f = .token t) ∨ (∃ t, f = .system t) → r.kind = .other) := by
  obtain ⟨m, done, ix, s, f, hr⟩ := Client.Call.rejectsBy c l op r l' h
  exact ⟨m, done, ix, s, f, hr, hr.kinds⟩

/-! ### A token program other than the route's -/

section OtherTokenProgram

variable {program : Address} {s : State}

/-- A bridge-out through a route and a config the program keeps, the route's own, that names a
token program other than the route's is refused with `InvalidInput`, whatever the amount. -/
theorem bridgeOut_otherTokenProgram {a0 a1 a2 a3 a4 a5 a6 : Invoked} {rest : List Invoked}
    {route : Route} {config : Config} {amount : UInt64} {recipient : String} {payload : Bytes}
    (hR : routeAt program s a0.key = some route) (hC : configAt program s a6.key = some config)
    (hcfg : route.config = a6.key) (htp : a5.key ≠ route.tokenProgram) :
    (bridgeOut program (a0 :: a1 :: a2 :: a3 :: a4 :: a5 :: a6 :: rest) amount recipient payload).run s =
      .error (.program .invalidInput) := by
  obtain ⟨ra, hra, hro, hrd⟩ := routeAt_eq_some.1 hR
  obtain ⟨ca, hca, hco, hcd⟩ := recordAt_eq_some.1 hC
  unfold bridgeOut
  simp only [nth, List.getElem?_cons_zero, List.getElem?_cons_succ, pure_bind]
  rw [bind_run_of_ok (readRecord_run_eq_ok.2 ⟨⟨ca, hca, hcd⟩, rfl⟩),
    bind_run_of_ok (a := ()) (ownedBy_run_eq_ok.2 ⟨⟨ca, hca, hco⟩, rfl⟩),
    bind_run_of_ok (a := ()) (ownedBy_run_eq_ok.2 ⟨⟨ra, hra, hro⟩, rfl⟩),
    bind_run_of_ok (readRecord_run_eq_ok.2 ⟨⟨ra, hra, hrd⟩, rfl⟩),
    if_neg (by simpa using hcfg), if_pos (by simpa using htp)]
  exact bind_run_eq_error.2 (.inl (fail_run_eq_error.2 rfl))

/-- The request of `mismatchRequest` through the first token program, where the route is of the
second. -/
def otherProgramRequest : BridgeRequest :=
  { mismatchRequest with tokenProgram := Address.tokenProgram }

theorem otherProgram_rejected :
    ∃ l', (Client.Call.bridge false mismatchSigner mismatchSigner otherProgramRequest).run.run.run
        mismatchLedger =
      (.error (.failed (.rejected "bridge" ⟨0, ErrorCode.invalidInput.code, mismatchProgram, true⟩)), l') := by
  let ix := otherProgramRequest.instruction mismatchLedger.program mismatchSigner.key
    mismatchSigner.key mismatchConfig
  -- no fee is due, so the one instruction is signed by its transfer authority, the payer
  have hcover : ∀ k, Message.signsFor mismatchSigner.key [ix] k = true →
      ∃ sg ∈ [Signer.keypair mismatchSigner, .keypair mismatchSigner], sg.key = k :=
    cover_of_signers [ix] fun ix' hix ref href hs => by
      rw [List.mem_singleton.1 hix] at href
      exact signer_of_clientBridge href hs
  have htr : ∀ sg ∈ [Signer.keypair mismatchSigner, .keypair mismatchSigner],
      sg.Trusted mismatchLedger := by
    simp [mismatch_trusted]
  have hfail : (mismatchLedger.execute ix.program
      (ix.accounts.map fun r => ⟨r.key, Message.signsFor mismatchSigner.key [ix] r.key⟩) ix.data).run
        mismatchLedger.state = .error (.program .invalidInput) := by
    rw [show ix.program = mismatchLedger.program from rfl,
      show ix.data = (Command.bridge 5 "x" []).pack from rfl, execute_bridge mismatch_fits]
    exact bridgeOut_otherTokenProgram mismatch_routeAt mismatch_configAt rfl (by decide)
  obtain ⟨l', hrej, -⟩ : ∃ l', (assembleOrStop "bridge" mismatchSigner.key [ix]
      [.keypair mismatchSigner, .keypair mismatchSigner] >>= submit).run.run mismatchLedger =
        (.error (.failed (.rejected "bridge" ⟨0, ErrorCode.invalidInput.code, mismatchProgram, true⟩)),
          l') ∧ l'.state = mismatchLedger.state :=
    first_rejected hcover htr rfl hfail
  refine ⟨l', ?_⟩
  unfold Client.Call.run
  rw [bridge_run_of_plain (l := mismatchLedger) (r := otherProgramRequest) mismatch_configAt,
    Flow.run_bind, hrej]

/-- A bridge-out naming a token program other than its route's is rejected as a limit violation,
though no limits were asked for, the route's limits are in order and the amount lies within them. -/
theorem otherTokenProgram_limitViolation :
    ∃ l' r, (Client.Call.bridge false mismatchSigner mismatchSigner otherProgramRequest).run.run.run
        mismatchLedger = (.error (.failed (.rejected "bridge" r)), l') ∧
      r.kind = .limitViolation ∧
      routeAt mismatchLedger.program mismatchLedger.state otherProgramRequest.route =
        some mismatchRoute ∧
      mismatchRoute.min ≤ mismatchRoute.max ∧ mismatchRoute.min ≤ otherProgramRequest.amount ∧
      otherProgramRequest.amount ≤ mismatchRoute.max := by
  obtain ⟨l', h⟩ := otherProgram_rejected
  exact ⟨l', _, h, by decide, mismatch_routeAt, by decide, by decide, by decide⟩

/-- That rejection comes from the bridge program refusing the bridge-out with one of its limit
refusals. -/
theorem otherTokenProgram_refused_as_limit :
    ∃ l' r, (Client.Call.bridge false mismatchSigner mismatchSigner otherProgramRequest).run.run.run
        mismatchLedger = (.error (.failed (.rejected "bridge" r)), l') ∧
      ∃ m done ix s f, RejectedRun mismatchLedger r m done ix s f ∧
        Ledger.programOf m ix = mismatchProgram ∧ ∃ e cmd, f = .program e ∧
          Command.unpack ix.data = .ok cmd ∧
          LimitRefusal mismatchProgram (Ledger.accountsOf m ix) s cmd e := by
  obtain ⟨l', h⟩ := otherProgram_rejected
  obtain ⟨m, done, ix, s, f, hr, hlimit, -⟩ := rejection_classification _ _ _ _ _ h
  exact ⟨l', _, h, m, done, ix, s, f, hr, hlimit.1 (by decide)⟩

end OtherTokenProgram

end TokenBridge
