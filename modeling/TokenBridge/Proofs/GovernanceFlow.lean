import TokenBridge.Proofs.Submission
import TokenBridge.Proofs.Aborts
/-!
Governance from the client, end to end.

The owner's four flows (handing the config over, naming a new authority, setting the fee, setting
a route's limits) each submit one instruction of the bridge program that the owner pays for and
alone signs. With the owner's key pair trusted, such a flow commits exactly when that instruction
runs on the ledger's state (`single_commits_iff`), and a refusal by the bridge program comes back
as a rejection of instruction 0 by the client's own program, with the state kept
(`single_rejected`).

What the handlers ask is read off in one predicate, `RewritesRecord`: the account at a key is the
program's, its data decodes to a record that passes a check, and only that account's data changes,
to the record rewritten. A config command asks it of the config, with its owner as the check
(`changeKey_run_eq_ok_iff`, `changeFee_run_eq_ok_iff`); new limits ask it of the route, after the
bounds and the config's owner (`changeLimit_run_eq_ok_iff`). The order of the checks decides which
rejection a caller sees: a minimum above the maximum is refused first, before any account is read.

The builders give each flow the accounts its handler reads in the order it reads them, with the
owner the only signer; `owner_governance_end_to_end` puts the four flows' commits and rejections
together.
-/

namespace TokenBridge

open BridgeProgram Client

/-- The account at `key` is `program`'s and its data decodes to a record that `ok` accepts; `s'` is
`s` with that account's data alone rewritten, to the record changed by `f`. -/
def RewritesRecord {α : Type} (decode : Bytes → Except CodecError α) (encode : α → Bytes)
    (program key : Address) (ok : α → Prop) (f : α → α) (s s' : State) : Prop :=
  ∃ a r, s.accounts.get? key = some a ∧ a.owner = program ∧ decode a.data = .ok r ∧ ok r ∧
    s' = { s with accounts := s.accounts.set key { a with data := encode (f r) } }

/-! ### One instruction, signed by its payer -/

section Single

variable {l : Ledger} {op : String} {kp : Keypair} {ix : Instruction}

/-- Of a transaction paid by `payer` whose one instruction has no signing account but the payer,
exactly the payer signs. -/
theorem signsFor_single {payer : Address} (hsig : ∀ r ∈ ix.accounts, r.signer = true → r.key = payer)
    (k : Address) : Message.signsFor payer [ix] k = (k == payer) := by
  rw [Bool.eq_iff_iff, Message.signsFor_eq_true, beq_iff_eq]
  constructor
  · rintro (h | ⟨ix', hix', r, hr, rfl, hs⟩)
    · exact h
    · rw [List.mem_singleton] at hix'
      subst hix'
      exact hsig r hr hs
  · exact .inl

theorem cover_single (hsig : ∀ r ∈ ix.accounts, r.signer = true → r.key = kp.key) :
    ∀ k, Message.signsFor kp.key [ix] k = true → ∃ s ∈ [Signer.keypair kp], s.key = k := by
  intro k hk
  rw [signsFor_single hsig, beq_iff_eq] at hk
  exact ⟨.keypair kp, List.mem_singleton_self _, hk.symm⟩

/-- A flow that submits one instruction, signed by its payer alone, commits with the state `s'`
exactly when the instruction runs to `s'` from the ledger's state, with only the payer signing. -/
theorem single_commits_iff (hsig : ∀ r ∈ ix.accounts, r.signer = true → r.key = kp.key)
    (htr : (Signer.keypair kp).Trusted l) (s' : State) :
    (∃ sig l', (assembleOrStop op kp.key [ix] [.keypair kp] >>= submit).run.run l = (.ok sig, l') ∧
        l'.state = s') ↔
      ∃ written, (l.execute ix.program (ix.accounts.map fun r => ⟨r.key, r.key == kp.key⟩)
        ix.data).run l.state = .ok (written, s') := by
  rw [assembleOrStop_submit_commits_iff (List.cons_ne_nil _ _) (cover_single hsig)
    (by simpa using htr)]
  simp only [Ledger.runs_compile_iff, Ledger.exists_runsAs_cons_iff, Ledger.exists_runsAs_nil_iff,
    exists_eq_right', signsFor_single hsig]

/-- A transaction whose signatures check, whose blockhash was handed out and whose first signature
is new, and whose first instruction fails, is refused as that failure says, and only counted. -/
theorem Ledger.sendAndConfirm_of_first_fails {t : Transaction} {c : CompiledInstruction}
    {rest : List CompiledInstruction} {f : Failure} (hver : t.verifyWith l.checkSignature = true)
    (hsig : t.signatures ≠ []) (hbh : t.message.recentBlockhash ∈ l.blockhashes)
    (hnew : ∀ e ∈ l.logs, e.1 ≠ t.signatures.headD []) (hins : t.message.instructions = c :: rest)
    (hin : Ledger.InRange t.message c)
    (hfail : (l.execute (Ledger.programOf t.message c) (Ledger.accountsOf t.message c) c.data).run
      l.state = .error f) :
    l.sendAndConfirm t = (Ledger.failureVerdict 0 f, { l with submissions := l.submissions + 1 }) := by
  rw [Ledger.sendAndConfirm_of_checked hver hsig hbh hnew]
  have hrun : ({ l with submissions := l.submissions + 1 } : Ledger).runFrom t.message 0
      t.message.instructions l.state [] = .error (0, f) := by
    have hx : ({ l with submissions := l.submissions + 1 } : Ledger).execute = l.execute :=
      Ledger.execute_congr rfl rfl
    rw [hins]
    exact Ledger.runFrom_cons_of_error hin (by rw [hx]; exact hfail)
  dsimp only
  rw [hrun]

/-- A flow that submits one instruction of the client's program, paid by `payer` and signed by
trusted signers that cover every key it needs, stops with the rejection of instruction 0 by the
client's own program when that program refuses the instruction with `e`; the ledger's state is
kept. -/
theorem first_rejected {payer : Address} {signers : List Signer}
    (hcover : ∀ k, Message.signsFor payer [ix] k = true → ∃ s ∈ signers, s.key = k)
    (htr : ∀ s ∈ signers, s.Trusted l) (hprog : ix.program = l.program) {e : ErrorCode}
    (hfail : (l.execute ix.program (ix.accounts.map fun r => ⟨r.key, Message.signsFor payer [ix] r.key⟩)
      ix.data).run l.state = .error (.program e)) :
    ∃ l', (assembleOrStop op payer [ix] signers >>= submit).run.run l =
        (.error (.failed (.rejected op ⟨0, e.code, l.program, true⟩)), l') ∧ l'.state = l.state := by
  obtain ⟨a, ha, hmsg, hne, hfind⟩ := assemble_trusted op (List.cons_ne_nil ix []) hcover htr
  obtain ⟨t, ht, htm, hver, hsig, hnew⟩ := a.sign_of_trusted hne hfind l.latestBlockhash.1
  have hbh : t.message.recentBlockhash ∈ l.latestBlockhash.2.blockhashes := by
    rw [htm]
    simp [Ledger.latestBlockhash]
  -- the one compiled instruction reads back as `ix`
  have hback := (compiled_message_reads_back payer [ix] l.latestBlockhash.1).1
  rw [← hmsg, ← htm] at hback
  obtain ⟨c, hins⟩ : ∃ c, t.message.instructions = [c] := by
    rw [htm, hmsg, Message.instructions_compile]
    exact ⟨_, rfl⟩
  rw [hins] at hback
  simp only [List.map_cons, List.map_nil, List.cons.injEq, Prod.mk.injEq, and_true] at hback
  obtain ⟨hp, hacc, hd⟩ := hback
  have hin : Ledger.InRange t.message c := by
    have hc : c ∈ t.message.instructions := by
      rw [hins]
      exact List.mem_singleton_self c
    rw [htm, hmsg] at hc ⊢
    exact Message.inRange_compile hc
  have hsend := Ledger.sendAndConfirm_of_first_fails (l := l.latestBlockhash.2) hver hsig hbh (hnew rfl)
    hins hin (by
      rw [hp, hacc, hd, @Ledger.execute_congr l.latestBlockhash.2 l rfl rfl]
      exact hfail)
  have hop : a.operation = op := by rw [assemble_eq_ok ha]
  -- the rejection is put down to the program of instruction 0, the client's own
  have hrej := (compiled_message_reads_back payer [ix] l.latestBlockhash.1).2.2 op l.program 0 e.code
  rw [← hmsg, ← htm] at hrej
  refine ⟨{ l.latestBlockhash.2 with submissions := l.latestBlockhash.2.submissions + 1 }, ?_, rfl⟩
  rw [Flow.run_bind]
  unfold assembleOrStop
  rw [ha, Flow.run_pure]
  dsimp only
  rw [submit_run, ht]
  dsimp only
  rw [hsend]
  simp only [Ledger.failureVerdict, hop]
  rw [show ((0 : Nat).toUInt8) = 0 from rfl, hrej]
  simp [hprog]

/-- A flow that submits one instruction of the client's program, signed by its payer alone, that
the program refuses with `e`, stops with the rejection of instruction 0 by the client's own
program, and the ledger's state is kept. -/
theorem single_rejected (hsig : ∀ r ∈ ix.accounts, r.signer = true → r.key = kp.key)
    (htr : (Signer.keypair kp).Trusted l) (hprog : ix.program = l.program) {e : ErrorCode}
    (hfail : (l.execute ix.program (ix.accounts.map fun r => ⟨r.key, r.key == kp.key⟩) ix.data).run
      l.state = .error (.program e)) :
    ∃ l', (assembleOrStop op kp.key [ix] [.keypair kp] >>= submit).run.run l =
        (.error (.failed (.rejected op ⟨0, e.code, l.program, true⟩)), l') ∧ l'.state = l.state :=
  first_rejected (cover_single hsig) (by simpa using htr) hprog (by
    simp only [signsFor_single hsig]
    exact hfail)

end Single

/-! ### The handlers -/

section Handlers

variable {program : Address} {s s' : State} {lines : List String}

/-- After a step that goes through, a bind runs on from where the step left. -/
theorem bind_run_of_ok {α β : Type} {x : Exec α} {f : α → Exec β} {a : α} {t : State}
    (h : x.run s = .ok (a, t)) : (x >>= f).run s = (f a).run t := by
  rw [StateT.run_bind, h]
  rfl

/-- Handing the config over, or naming a new authority, goes through exactly when the second
account signed and the first is a config of the program whose owner is the second; it rewrites that
config's owner, or its authority, to the third account, and logs the change. -/
theorem changeKey_run_eq_ok_iff (ofOwner : Bool) (a0 a1 a2 : Invoked) (rest : List Invoked) :
    (changeKey program (a0 :: a1 :: a2 :: rest) ofOwner).run s = .ok (lines, s') ↔
      a1.signer = true ∧
        RewritesRecord Config.decode Config.encode program a0.key (·.owner = a1.key)
          (fun c => if ofOwner then { c with owner := a2.key } else { c with authority := a2.key })
          s s' ∧
        lines = [logLine (if ofOwner then "Owner change to " ++ a2.key.toBase58
          else "Authority change to " ++ a2.key.toBase58)] := by
  constructor
  · intro h
    obtain ⟨ck, target, owner, c, h0, h1, h2, hc, hsig, hkey, hw, hlines⟩ := changeKey_effect h
    simp only [List.getElem?_cons_zero, List.getElem?_cons_succ, Option.map_some,
      Option.some.injEq] at h0 h1 h2
    subst h0 h1 h2
    obtain ⟨a, ha, hao, hdec⟩ := recordAt_eq_some.1 hc
    obtain ⟨a', ha', -, rfl⟩ := writeRecord_run_eq_ok.1 hw
    rw [ha] at ha'
    cases ha'
    exact ⟨hsig, ⟨a, c, ha, hao, hdec, hkey.symm, rfl⟩, hlines⟩
  · rintro ⟨hsig, ⟨a, c, ha, hao, hdec, hown, rfl⟩, rfl⟩
    unfold changeKey
    simp only [nth, List.getElem?_cons_zero, List.getElem?_cons_succ, pure_bind]
    rw [bind_run_of_ok (a := ()) (ownedBy_run_eq_ok.2 ⟨⟨a, ha, hao⟩, rfl⟩),
      bind_run_of_ok (readRecord_run_eq_ok.2 ⟨⟨a, ha, hdec⟩, rfl⟩),
      bind_run_of_ok (a := ()) (requireKey_run_eq_ok.2 ⟨hsig, hown.symm, rfl⟩)]
    cases ofOwner <;>
    · simp only [Bool.false_eq_true, if_true, if_false]
      rw [bind_run_of_ok (a := ()) (writeRecord_run_eq_ok.2 ⟨a, ha, hao, rfl⟩)]
      rfl

/-- A config whose owner is not the second account refuses a change of owner or authority. -/
theorem changeKey_run_of_not_owner {ofOwner : Bool} {a0 a1 a2 : Invoked} {rest : List Invoked}
    {a : Account} {c : Config} (ha : s.accounts.get? a0.key = some a) (hao : a.owner = program)
    (hdec : Config.decode a.data = .ok c) (hne : a1.key ≠ c.owner) :
    (changeKey program (a0 :: a1 :: a2 :: rest) ofOwner).run s = .error (.program .invalidOwner) := by
  unfold changeKey
  simp only [nth, List.getElem?_cons_zero, List.getElem?_cons_succ, pure_bind]
  rw [bind_run_of_ok (a := ()) (ownedBy_run_eq_ok.2 ⟨⟨a, ha, hao⟩, rfl⟩),
    bind_run_of_ok (readRecord_run_eq_ok.2 ⟨⟨a, ha, hdec⟩, rfl⟩)]
  have hb : (a1.key == c.owner) = false := beq_false_of_ne hne
  simp only [requireKey, hb, Bool.and_false, Bool.false_eq_true, if_false]
  rfl

/-- A new fee goes through exactly when the second account signed and the first is a config of the
program whose owner is the second; it rewrites the fee, and the collector too, to the third account,
when the fee is above zero. -/
theorem changeFee_run_eq_ok_iff {fee : UInt64} (a0 a1 : Invoked) (rest : List Invoked)
    {collector : Address} (hcol : 0 < fee → (rest[0]?).map Invoked.key = some collector) :
    (BridgeProgram.changeFee program (a0 :: a1 :: rest) fee).run s = .ok (lines, s') ↔
      a1.signer = true ∧
        RewritesRecord Config.decode Config.encode program a0.key (·.owner = a1.key)
          (fun c => if 0 < fee then { c with fee, feeCollector := collector } else { c with fee })
          s s' ∧
        lines = [] := by
  constructor
  · intro h
    obtain ⟨hlines, ck, collector', owner, c, h0, h1, hc, hsig, hkey, hcol', hw⟩ := changeFee_effect h
    simp only [List.getElem?_cons_zero, List.getElem?_cons_succ, Option.map_some,
      Option.some.injEq] at h0 h1 hcol'
    subst h0 h1
    obtain ⟨a, ha, hao, hdec⟩ := recordAt_eq_some.1 hc
    obtain ⟨a', ha', -, rfl⟩ := writeRecord_run_eq_ok.1 hw
    rw [ha] at ha'
    cases ha'
    refine ⟨hsig, ⟨a, c, ha, hao, hdec, hkey.symm, ?_⟩, hlines⟩
    -- the collector named is the third account, whenever one is named
    by_cases hpos : 0 < fee
    · have hsame : collector' = collector := Option.some.inj ((hcol' hpos).symm.trans (hcol hpos))
      simp only [hpos, if_true, hsame]
    · simp only [hpos, if_false]
  · rintro ⟨hsig, ⟨a, c, ha, hao, hdec, hown, rfl⟩, rfl⟩
    unfold BridgeProgram.changeFee
    simp only [nth, List.getElem?_cons_zero, List.getElem?_cons_succ, pure_bind]
    rw [bind_run_of_ok (a := ()) (ownedBy_run_eq_ok.2 ⟨⟨a, ha, hao⟩, rfl⟩),
      bind_run_of_ok (readRecord_run_eq_ok.2 ⟨⟨a, ha, hdec⟩, rfl⟩),
      bind_run_of_ok (a := ()) (requireKey_run_eq_ok.2 ⟨hsig, hown.symm, rfl⟩)]
    by_cases hpos : 0 < fee
    · obtain ⟨a2, h2, rfl⟩ := Option.map_eq_some_iff.1 (hcol hpos)
      simp only [gt_iff_lt, hpos, if_true, h2, pure_bind]
      rw [bind_run_of_ok (a := ()) (writeRecord_run_eq_ok.2 ⟨a, ha, hao, rfl⟩)]
      rfl
    · simp only [gt_iff_lt, hpos, if_false]
      rw [bind_run_of_ok (a := ()) (writeRecord_run_eq_ok.2 ⟨a, ha, hao, rfl⟩)]
      rfl

/-- A config whose owner is not the second account refuses a new fee. -/
theorem changeFee_run_of_not_owner {fee : UInt64} {a0 a1 : Invoked} {rest : List Invoked}
    {a : Account} {c : Config} (ha : s.accounts.get? a0.key = some a) (hao : a.owner = program)
    (hdec : Config.decode a.data = .ok c) (hne : a1.key ≠ c.owner) :
    (BridgeProgram.changeFee program (a0 :: a1 :: rest) fee).run s = .error (.program .invalidOwner) := by
  unfold BridgeProgram.changeFee
  simp only [nth, List.getElem?_cons_zero, List.getElem?_cons_succ, pure_bind]
  rw [bind_run_of_ok (a := ()) (ownedBy_run_eq_ok.2 ⟨⟨a, ha, hao⟩, rfl⟩),
    bind_run_of_ok (readRecord_run_eq_ok.2 ⟨⟨a, ha, hdec⟩, rfl⟩)]
  have hb : (a1.key == c.owner) = false := beq_false_of_ne hne
  simp only [requireKey, hb, Bool.and_false, Bool.false_eq_true, if_false]
  rfl

/-- New limits go through exactly when the minimum is at most the maximum, the third account signed
and owns the config that the first account names, and the second is a route of the program under
that config; they rewrite the route's limits alone. -/
theorem changeLimit_run_eq_ok_iff {max min : UInt64} (a0 a1 a2 : Invoked) (rest : List Invoked) :
    (BridgeProgram.changeLimit program (a0 :: a1 :: a2 :: rest) max min).run s = .ok (lines, s') ↔
      min ≤ max ∧ a2.signer = true ∧ (∃ c, configAt program s a0.key = some c ∧ c.owner = a2.key) ∧
        RewritesRecord Route.decode Route.encode program a1.key (·.config = a0.key)
          (fun r => { r with max, min }) s s' ∧
        lines = [] := by
  constructor
  · intro h
    obtain ⟨hlines, hle, ck, rk, owner, c, r, h0, h1, h2, hc, hsig, hkey, hr, hcfg, hw⟩ :=
      changeLimit_effect h
    simp only [List.getElem?_cons_zero, List.getElem?_cons_succ, Option.map_some,
      Option.some.injEq] at h0 h1 h2
    subst h0 h1 h2
    obtain ⟨a, ha, hao, hdec⟩ := recordAt_eq_some.1 (routeAt_eq_recordAt.symm.trans hr)
    obtain ⟨a', ha', -, rfl⟩ := writeRecord_run_eq_ok.1 hw
    rw [ha] at ha'
    cases ha'
    exact ⟨hle, hsig, ⟨c, hc, hkey.symm⟩, ⟨a, r, ha, hao, hdec, hcfg, rfl⟩, hlines⟩
  · rintro ⟨hle, hsig, ⟨c, hc, hown⟩, ⟨a, r, ha, hao, hdec, hcfg, rfl⟩, rfl⟩
    obtain ⟨ac, hac, hco, hcd⟩ := recordAt_eq_some.1 hc
    unfold BridgeProgram.changeLimit
    have hnlt : ¬ max < min := UInt64.not_lt.2 hle
    have hb : (r.config != a0.key) = false := by simp [hcfg]
    simp only [gt_iff_lt, hnlt, if_false, nth, List.getElem?_cons_zero, List.getElem?_cons_succ,
      pure_bind]
    rw [bind_run_of_ok (a := ()) (ownedBy_run_eq_ok.2 ⟨⟨ac, hac, hco⟩, rfl⟩),
      bind_run_of_ok (a := ()) (ownedBy_run_eq_ok.2 ⟨⟨a, ha, hao⟩, rfl⟩),
      bind_run_of_ok (readRecord_run_eq_ok.2 ⟨⟨ac, hac, hcd⟩, rfl⟩),
      bind_run_of_ok (a := ()) (requireKey_run_eq_ok.2 ⟨hsig, hown.symm, rfl⟩),
      bind_run_of_ok (readRecord_run_eq_ok.2 ⟨⟨a, ha, hdec⟩, rfl⟩)]
    simp only [hb, Bool.false_eq_true, if_false]
    rw [bind_run_of_ok (a := ()) (writeRecord_run_eq_ok.2 ⟨a, ha, hao, rfl⟩)]
    rfl

/-- A minimum above the maximum is refused before anything else is looked at. -/
theorem changeLimit_run_of_lt {max min : UInt64} (accounts : List Invoked) (h : max < min) :
    (BridgeProgram.changeLimit program accounts max min).run s = .error (.program .invalidInput) := by
  unfold BridgeProgram.changeLimit
  rw [if_pos h]
  rfl

/-- New limits, in order, over a config and a route of the program, are refused when the config's
owner is not the third account. -/
theorem changeLimit_run_of_not_owner {max min : UInt64} {a0 a1 a2 : Invoked} {rest : List Invoked}
    {ac ar : Account} {c : Config} (hle : min ≤ max) (hac : s.accounts.get? a0.key = some ac)
    (hco : ac.owner = program) (hcd : Config.decode ac.data = .ok c)
    (har : s.accounts.get? a1.key = some ar) (hro : ar.owner = program) (hne : a2.key ≠ c.owner) :
    (BridgeProgram.changeLimit program (a0 :: a1 :: a2 :: rest) max min).run s =
      .error (.program .invalidOwner) := by
  unfold BridgeProgram.changeLimit
  have hnlt : ¬ max < min := UInt64.not_lt.2 hle
  have hb : (a2.key == c.owner) = false := beq_false_of_ne hne
  simp only [gt_iff_lt, hnlt, if_false, nth, List.getElem?_cons_zero, List.getElem?_cons_succ,
    pure_bind]
  rw [bind_run_of_ok (a := ()) (ownedBy_run_eq_ok.2 ⟨⟨ac, hac, hco⟩, rfl⟩),
    bind_run_of_ok (a := ()) (ownedBy_run_eq_ok.2 ⟨⟨ar, har, hro⟩, rfl⟩),
    bind_run_of_ok (readRecord_run_eq_ok.2 ⟨⟨ac, hac, hcd⟩, rfl⟩)]
  simp only [requireKey, hb, Bool.and_false, Bool.false_eq_true, if_false]
  rfl

/-- New limits, in order and by the config's owner, are refused when the route names another
config. -/
theorem changeLimit_run_of_other_config {max min : UInt64} {a0 a1 a2 : Invoked}
    {rest : List Invoked} {ac ar : Account} {c : Config} {r : Route} (hle : min ≤ max)
    (hac : s.accounts.get? a0.key = some ac) (hco : ac.owner = program)
    (hcd : Config.decode ac.data = .ok c) (hsig : a2.signer = true) (hown : c.owner = a2.key)
    (har : s.accounts.get? a1.key = some ar) (hro : ar.owner = program)
    (hrd : Route.decode ar.data = .ok r) (hne : r.config ≠ a0.key) :
    (BridgeProgram.changeLimit program (a0 :: a1 :: a2 :: rest) max min).run s =
      .error (.program .invalidConfig) := by
  unfold BridgeProgram.changeLimit
  have hnlt : ¬ max < min := UInt64.not_lt.2 hle
  have hb : (r.config != a0.key) = true := by simpa using hne
  simp only [gt_iff_lt, hnlt, if_false, nth, List.getElem?_cons_zero, List.getElem?_cons_succ,
    pure_bind]
  rw [bind_run_of_ok (a := ()) (ownedBy_run_eq_ok.2 ⟨⟨ac, hac, hco⟩, rfl⟩),
    bind_run_of_ok (a := ()) (ownedBy_run_eq_ok.2 ⟨⟨ar, har, hro⟩, rfl⟩),
    bind_run_of_ok (readRecord_run_eq_ok.2 ⟨⟨ac, hac, hcd⟩, rfl⟩),
    bind_run_of_ok (a := ()) (requireKey_run_eq_ok.2 ⟨hsig, hown.symm, rfl⟩),
    bind_run_of_ok (readRecord_run_eq_ok.2 ⟨⟨ar, har, hrd⟩, rfl⟩)]
  simp only [hb, if_true]
  rfl

end Handlers

/-! ### The owner's flows -/

/-- The flow `x`, run on `l`, goes through and leaves the ledger's state at `s'`. -/
def Flow.Commits {α : Type} (x : Flow α) (l : Ledger) (s' : State) : Prop :=
  ∃ v l', x.run.run l = (.ok v, l') ∧ l'.state = s'

/-- The flow `x`, run on `l`, stops as the client's own program rejects, with `code`, the first
instruction of the transaction it put together for `op`; the ledger's state is kept. -/
def Flow.Rejects {α : Type} (x : Flow α) (l : Ledger) (op : String) (code : UInt32) : Prop :=
  ∃ l', x.run.run l = (.error (.failed (.rejected op ⟨0, code, l.program, true⟩)), l') ∧
    l'.state = l.state

section Flows

variable {l : Ledger} {kp : Keypair}

/-- The ledger hands an instruction for its own program to the bridge program. -/
theorem execute_own (accounts : List Invoked) (data : Bytes) :
    l.execute l.program accounts data = process l.program accounts data := by
  rw [Ledger.execute, if_pos (beq_self_eq_true _)]

/-- A flow that builds one instruction for the ledger's program with `f`, and submits it paid and
signed by `kp` alone, commits with the state `s'` exactly when the bridge program runs the
instruction to `s'`. -/
theorem programFlow_commits_iff (op : String) (f : Address → Instruction)
    (hprog : (f l.program).program = l.program)
    (hsig : ∀ r ∈ (f l.program).accounts, r.signer = true → r.key = kp.key)
    (htr : (Signer.keypair kp).Trusted l) (s' : State) :
    Flow.Commits (do
        let ix := f (← get).program
        submit (← assembleOrStop op kp.key [ix] [.keypair kp]) : Flow Bytes) l s' ↔
      ∃ written, (process l.program ((f l.program).accounts.map fun r => ⟨r.key, r.key == kp.key⟩)
        (f l.program).data).run l.state = .ok (written, s') := by
  rw [Flow.Commits, Flow.run_bind, Flow.run_get, single_commits_iff hsig htr, hprog]
  simp only [execute_own]

/-- Such a flow, when the bridge program refuses the instruction with `e`, is rejected with `e`'s
code, and the ledger's state is kept. -/
theorem programFlow_rejects (op : String) (f : Address → Instruction)
    (hprog : (f l.program).program = l.program)
    (hsig : ∀ r ∈ (f l.program).accounts, r.signer = true → r.key = kp.key)
    (htr : (Signer.keypair kp).Trusted l) {e : ErrorCode}
    (hfail : (process l.program ((f l.program).accounts.map fun r => ⟨r.key, r.key == kp.key⟩)
      (f l.program).data).run l.state = .error (.program e)) :
    Flow.Rejects (do
        let ix := f (← get).program
        submit (← assembleOrStop op kp.key [ix] [.keypair kp]) : Flow Bytes) l op e.code := by
  rw [Flow.Rejects, Flow.run_bind, Flow.run_get]
  exact single_rejected hsig htr hprog (by rwa [hprog, execute_own])

theorem process_transferOwner (program : Address) (accounts : List Invoked) :
    process program accounts Command.transferOwner.pack = changeKey program accounts true := by
  unfold process
  rw [(Command.unpack_eq_ok_iff (v := .transferOwner)).2 ⟨trivial, rfl⟩]

theorem process_changeAuthority (program : Address) (accounts : List Invoked) :
    process program accounts Command.changeAuthority.pack = changeKey program accounts false := by
  unfold process
  rw [(Command.unpack_eq_ok_iff (v := .changeAuthority)).2 ⟨trivial, rfl⟩]

theorem process_changeFee (program : Address) (fee : UInt64) (accounts : List Invoked) :
    process program accounts (Command.changeFee fee).pack =
      BridgeProgram.changeFee program accounts fee := by
  unfold process
  rw [(Command.unpack_eq_ok_iff (v := .changeFee fee)).2 ⟨trivial, rfl⟩]

theorem process_changeLimit (program : Address) (max min : UInt64) (accounts : List Invoked) :
    process program accounts (Command.changeLimit max min).pack =
      BridgeProgram.changeLimit program accounts max min := by
  unfold process
  rw [(Command.unpack_eq_ok_iff (v := .changeLimit max min)).2 ⟨trivial, rfl⟩]

/-- Handing config `C` over to `n` commits exactly when `C` is a config of the program that the
signer owns; only its owner changes, to `n`. -/
theorem transferOwner_commits_iff (C n : Address) (htr : (Signer.keypair kp).Trusted l)
    (s' : State) :
    (Client.transferOwner C kp n).Commits l s' ↔
      RewritesRecord Config.decode Config.encode l.program C (·.owner = kp.key)
        (fun c => { c with owner := n }) l.state s' := by
  refine (programFlow_commits_iff "transfer_owner" (fun p => Builder.transferOwner p C kp.key n)
    rfl ?_ htr s').trans ?_
  · simp [Builder.transferOwner, Builder.bridgeInstruction, AccountRef.mutable, AccountRef.readonly]
  · simp only [Builder.transferOwner, Builder.bridgeInstruction, AccountRef.mutable,
      AccountRef.readonly, List.map_cons, List.map_nil, beq_self_eq_true, process_transferOwner,
      changeKey_run_eq_ok_iff, if_true, true_and, exists_eq_right]

/-- Naming `n` the authority of config `C` commits exactly when `C` is a config of the program that
the signer owns; only its authority changes, to `n`. -/
theorem changeAuthority_commits_iff (C n : Address) (htr : (Signer.keypair kp).Trusted l)
    (s' : State) :
    (Client.changeAuthority C kp n).Commits l s' ↔
      RewritesRecord Config.decode Config.encode l.program C (·.owner = kp.key)
        (fun c => { c with authority := n }) l.state s' := by
  refine (programFlow_commits_iff "change_authority" (fun p => Builder.changeAuthority p C kp.key n)
    rfl ?_ htr s').trans ?_
  · simp [Builder.changeAuthority, Builder.bridgeInstruction, AccountRef.mutable,
      AccountRef.readonly]
  · simp only [Builder.changeAuthority, Builder.bridgeInstruction, AccountRef.mutable,
      AccountRef.readonly, List.map_cons, List.map_nil, beq_self_eq_true, process_changeAuthority,
      changeKey_run_eq_ok_iff, Bool.false_eq_true, if_false, true_and, exists_eq_right]

/-- Setting the fee of config `C` commits exactly when `C` is a config of the program that the
signer owns; only its fee changes, and its collector, to `collector`, when the fee is above
zero. -/
theorem changeFee_commits_iff (C : Address) (fee : UInt64) (collector : Address)
    (htr : (Signer.keypair kp).Trusted l) (s' : State) :
    (Client.changeFee C kp fee collector).Commits l s' ↔
      RewritesRecord Config.decode Config.encode l.program C (·.owner = kp.key)
        (fun c => if 0 < fee then { c with fee, feeCollector := collector } else { c with fee })
        l.state s' := by
  refine (programFlow_commits_iff "change_fee" (fun p => Builder.changeFee p C kp.key collector fee)
    rfl ?_ htr s').trans ?_
  · by_cases hpos : 0 < fee <;>
      simp [Builder.changeFee, Builder.bridgeInstruction, AccountRef.mutable, AccountRef.readonly,
        hpos]
  · -- the collector is named, third, exactly when the fee is above zero
    by_cases hpos : 0 < fee
    · have hcol : 0 < fee →
          ([(⟨collector, collector == kp.key⟩ : Invoked)][0]?).map Invoked.key = some collector :=
        fun _ => rfl
      simp only [Builder.changeFee, Builder.bridgeInstruction, AccountRef.mutable,
        AccountRef.readonly, gt_iff_lt, hpos, if_true, List.cons_append, List.nil_append,
        List.map_cons, List.map_nil, beq_self_eq_true, process_changeFee,
        changeFee_run_eq_ok_iff _ _ _ hcol, true_and, exists_eq_right]
    · have hcol : 0 < fee → (([] : List Invoked)[0]?).map Invoked.key = some collector :=
        fun h => absurd h hpos
      simp only [Builder.changeFee, Builder.bridgeInstruction, AccountRef.mutable,
        AccountRef.readonly, gt_iff_lt, hpos, if_false, List.append_nil, List.map_cons,
        List.map_nil, beq_self_eq_true, process_changeFee, changeFee_run_eq_ok_iff _ _ _ hcol,
        true_and, exists_eq_right]

/-- Setting the limits of route `R` under config `C` commits exactly when the minimum is at most
the maximum, `C` is a config of the program that the signer owns, and `R` is a route of the
program under `C`; only the route's limits change. -/
theorem changeLimit_commits_iff (C R : Address) (max min : UInt64)
    (htr : (Signer.keypair kp).Trusted l) (s' : State) :
    (Client.changeLimit C R kp max min).Commits l s' ↔
      min ≤ max ∧ (∃ c, configAt l.program l.state C = some c ∧ c.owner = kp.key) ∧
        RewritesRecord Route.decode Route.encode l.program R (·.config = C)
          (fun r => { r with max, min }) l.state s' := by
  refine (programFlow_commits_iff "change_limit"
    (fun p => Builder.changeLimit p C R kp.key max min) rfl ?_ htr s').trans ?_
  · simp [Builder.changeLimit, Builder.bridgeInstruction, AccountRef.mutable, AccountRef.readonly]
  · simp only [Builder.changeLimit, Builder.bridgeInstruction, AccountRef.mutable,
      AccountRef.readonly, List.map_cons, List.map_nil, beq_self_eq_true, process_changeLimit,
      changeLimit_run_eq_ok_iff, true_and, exists_and_left, exists_eq, and_true]

/-! The rejections a caller sees. -/

/-- Handing over a config of the program that the signer does not own is rejected as
`invalidOwner`. -/
theorem transferOwner_rejects_of_not_owner {C n : Address} {c : Config}
    (htr : (Signer.keypair kp).Trusted l) (hC : configAt l.program l.state C = some c)
    (hne : kp.key ≠ c.owner) :
    (Client.transferOwner C kp n).Rejects l "transfer_owner" ErrorCode.invalidOwner.code := by
  obtain ⟨a, ha, hao, hdec⟩ := recordAt_eq_some.1 hC
  refine programFlow_rejects "transfer_owner" (fun p => Builder.transferOwner p C kp.key n) rfl ?_
    htr ?_
  · simp [Builder.transferOwner, Builder.bridgeInstruction, AccountRef.mutable, AccountRef.readonly]
  · simp only [Builder.transferOwner, Builder.bridgeInstruction, AccountRef.mutable,
      AccountRef.readonly, List.map_cons, List.map_nil, beq_self_eq_true, process_transferOwner]
    exact changeKey_run_of_not_owner ha hao hdec hne

/-- Naming the authority of a config of the program that the signer does not own is rejected as
`invalidOwner`. -/
theorem changeAuthority_rejects_of_not_owner {C n : Address} {c : Config}
    (htr : (Signer.keypair kp).Trusted l) (hC : configAt l.program l.state C = some c)
    (hne : kp.key ≠ c.owner) :
    (Client.changeAuthority C kp n).Rejects l "change_authority" ErrorCode.invalidOwner.code := by
  obtain ⟨a, ha, hao, hdec⟩ := recordAt_eq_some.1 hC
  refine programFlow_rejects "change_authority" (fun p => Builder.changeAuthority p C kp.key n) rfl
    ?_ htr ?_
  · simp [Builder.changeAuthority, Builder.bridgeInstruction, AccountRef.mutable,
      AccountRef.readonly]
  · simp only [Builder.changeAuthority, Builder.bridgeInstruction, AccountRef.mutable,
      AccountRef.readonly, List.map_cons, List.map_nil, beq_self_eq_true, process_changeAuthority]
    exact changeKey_run_of_not_owner ha hao hdec hne

/-- Setting the fee of a config of the program that the signer does not own is rejected as
`invalidOwner`, whether or not a collector is named. -/
theorem changeFee_rejects_of_not_owner {C collector : Address} {fee : UInt64} {c : Config}
    (htr : (Signer.keypair kp).Trusted l) (hC : configAt l.program l.state C = some c)
    (hne : kp.key ≠ c.owner) :
    (Client.changeFee C kp fee collector).Rejects l "change_fee" ErrorCode.invalidOwner.code := by
  obtain ⟨a, ha, hao, hdec⟩ := recordAt_eq_some.1 hC
  refine programFlow_rejects "change_fee" (fun p => Builder.changeFee p C kp.key collector fee) rfl
    ?_ htr ?_
  · by_cases hpos : 0 < fee <;>
      simp [Builder.changeFee, Builder.bridgeInstruction, AccountRef.mutable, AccountRef.readonly,
        hpos]
  · simp only [Builder.changeFee, Builder.bridgeInstruction, AccountRef.mutable,
      AccountRef.readonly, List.cons_append, List.nil_append, List.map_cons, beq_self_eq_true,
      process_changeFee]
    exact changeFee_run_of_not_owner ha hao hdec hne

/-- New limits with the minimum above the maximum are rejected as `invalidInput`, whatever the
accounts hold. -/
theorem changeLimit_rejects_of_lt {C R : Address} {max min : UInt64}
    (htr : (Signer.keypair kp).Trusted l) (h : max < min) :
    (Client.changeLimit C R kp max min).Rejects l "change_limit" ErrorCode.invalidInput.code := by
  refine programFlow_rejects "change_limit" (fun p => Builder.changeLimit p C R kp.key max min) rfl
    ?_ htr ?_
  · simp [Builder.changeLimit, Builder.bridgeInstruction, AccountRef.mutable, AccountRef.readonly]
  · simp only [Builder.changeLimit, Builder.bridgeInstruction, process_changeLimit]
    exact changeLimit_run_of_lt _ h

/-- New limits, in order, on a route of the program under a config of the program that the signer
does not own, are rejected as `invalidOwner`. -/
theorem changeLimit_rejects_of_not_owner {C R : Address} {max min : UInt64} {c : Config}
    {a : Account} (htr : (Signer.keypair kp).Trusted l) (hle : min ≤ max)
    (hC : configAt l.program l.state C = some c) (hR : l.state.accounts.get? R = some a)
    (hRo : a.owner = l.program) (hne : kp.key ≠ c.owner) :
    (Client.changeLimit C R kp max min).Rejects l "change_limit" ErrorCode.invalidOwner.code := by
  obtain ⟨ac, hac, hco, hcd⟩ := recordAt_eq_some.1 hC
  refine programFlow_rejects "change_limit" (fun p => Builder.changeLimit p C R kp.key max min) rfl
    ?_ htr ?_
  · simp [Builder.changeLimit, Builder.bridgeInstruction, AccountRef.mutable, AccountRef.readonly]
  · simp only [Builder.changeLimit, Builder.bridgeInstruction, AccountRef.mutable,
      AccountRef.readonly, List.map_cons, List.map_nil, beq_self_eq_true, process_changeLimit]
    exact changeLimit_run_of_not_owner hle hac hco hcd hR hRo hne

/-- New limits, in order and by the owner of config `C`, on a route of the program under another
config, are rejected as `invalidConfig`. -/
theorem changeLimit_rejects_of_other_config {C R : Address} {max min : UInt64} {c : Config}
    {r : Route} (htr : (Signer.keypair kp).Trusted l) (hle : min ≤ max)
    (hC : configAt l.program l.state C = some c) (hown : c.owner = kp.key)
    (hR : routeAt l.program l.state R = some r) (hne : r.config ≠ C) :
    (Client.changeLimit C R kp max min).Rejects l "change_limit" ErrorCode.invalidConfig.code := by
  obtain ⟨ac, hac, hco, hcd⟩ := recordAt_eq_some.1 hC
  obtain ⟨ar, har, hro, hrd⟩ := routeAt_eq_some.1 hR
  refine programFlow_rejects "change_limit" (fun p => Builder.changeLimit p C R kp.key max min) rfl
    ?_ htr ?_
  · simp [Builder.changeLimit, Builder.bridgeInstruction, AccountRef.mutable, AccountRef.readonly]
  · simp only [Builder.changeLimit, Builder.bridgeInstruction, AccountRef.mutable,
      AccountRef.readonly, List.map_cons, List.map_nil, beq_self_eq_true, process_changeLimit]
    exact changeLimit_run_of_other_config hle hac hco hcd rfl hown har hro hrd hne

end Flows

/-! ### The owner's governance, end to end -/

/-- With the signer's key pair trusted, each of the owner's four flows commits exactly when the
checks of its handler pass on the ledger's state, and then rewrites one record alone: the config's
owner, its authority, or its fee (with the collector when the fee is above zero), or the route's
limits. A signer who does not own the config is rejected with code 8 on instruction 0 of the
bridge program; limits out of order are rejected with code 7 before any account is read, and a
route under another config with code 9. -/
theorem owner_governance_end_to_end (l : Ledger) (kp : Keypair)
    (htr : (Signer.keypair kp).Trusted l) (C R n collector : Address) (fee max min : UInt64) :
    (∀ s', (Client.transferOwner C kp n).Commits l s' ↔
      RewritesRecord Config.decode Config.encode l.program C (·.owner = kp.key)
        (fun c => { c with owner := n }) l.state s') ∧
    (∀ s', (Client.changeAuthority C kp n).Commits l s' ↔
      RewritesRecord Config.decode Config.encode l.program C (·.owner = kp.key)
        (fun c => { c with authority := n }) l.state s') ∧
    (∀ s', (Client.changeFee C kp fee collector).Commits l s' ↔
      RewritesRecord Config.decode Config.encode l.program C (·.owner = kp.key)
        (fun c => if 0 < fee then { c with fee, feeCollector := collector } else { c with fee })
        l.state s') ∧
    (∀ c, configAt l.program l.state C = some c → kp.key ≠ c.owner →
      (Client.transferOwner C kp n).Rejects l "transfer_owner" 8 ∧
      (Client.changeAuthority C kp n).Rejects l "change_authority" 8 ∧
      (Client.changeFee C kp fee collector).Rejects l "change_fee" 8) ∧
    (max < min → (Client.changeLimit C R kp max min).Rejects l "change_limit" 7) ∧
    (∀ s', (Client.changeLimit C R kp max min).Commits l s' ↔
      min ≤ max ∧ (∃ c, configAt l.program l.state C = some c ∧ c.owner = kp.key) ∧
        RewritesRecord Route.decode Route.encode l.program R (·.config = C)
          (fun r => { r with max, min }) l.state s') ∧
    (min ≤ max → ∀ c a, configAt l.program l.state C = some c →
      l.state.accounts.get? R = some a → a.owner = l.program → kp.key ≠ c.owner →
      (Client.changeLimit C R kp max min).Rejects l "change_limit" 8) ∧
    (min ≤ max → ∀ c r, configAt l.program l.state C = some c → c.owner = kp.key →
      routeAt l.program l.state R = some r → r.config ≠ C →
      (Client.changeLimit C R kp max min).Rejects l "change_limit" 9) := by
  refine ⟨transferOwner_commits_iff C n htr, changeAuthority_commits_iff C n htr,
    changeFee_commits_iff C fee collector htr, ?_, changeLimit_rejects_of_lt htr,
    changeLimit_commits_iff C R max min htr, ?_, ?_⟩
  · intro c hC hne
    exact ⟨transferOwner_rejects_of_not_owner htr hC hne,
      changeAuthority_rejects_of_not_owner htr hC hne, changeFee_rejects_of_not_owner htr hC hne⟩
  · intro hle c a hC hR hRo hne
    exact changeLimit_rejects_of_not_owner htr hle hC hR hRo hne
  · intro hle c r hC hown hR hne
    exact changeLimit_rejects_of_other_config htr hle hC hown hR hne

/-! ### A config handed over

A ledger whose program holds one config, at key 2, owned by the key pair at key 5; the ledger
accepts every signature of that key pair. -/

def handoverProgram : Address := Address.ofBytes [9]

def handoverOwner : Keypair := ⟨Address.ofBytes [5], fun _ => [1]⟩

def handoverConfig : Config :=
  { initialized := true, owner := handoverOwner.key, authority := handoverOwner.key,
    feeCollector := handoverOwner.key }

def handoverAccount : Account := ⟨1000, handoverProgram, handoverConfig.encode⟩

def handoverLedger : Ledger :=
  { program := handoverProgram,
    state := { accounts := ({} : Table Account).set (Address.ofBytes [2]) handoverAccount },
    checkSignature := fun _ _ _ => true }

theorem handover_trusted : (Signer.keypair handoverOwner).Trusted handoverLedger :=
  ⟨fun _ => ⟨rfl, by simp [handoverOwner]⟩, fun _ _ _ he => nomatch he⟩

/-- Handing the config over to key 7 commits, with the config's owner rewritten to key 7. -/
theorem handover_commits :
    (Client.transferOwner (Address.ofBytes [2]) handoverOwner (Address.ofBytes [7])).Commits
      handoverLedger
      { handoverLedger.state with
        accounts := handoverLedger.state.accounts.set (Address.ofBytes [2])
          { handoverAccount with
            data := Config.encode { handoverConfig with owner := Address.ofBytes [7] } } } := by
  have hC : handoverLedger.state.accounts.get? (Address.ofBytes [2]) = some handoverAccount := by
    simp only [handoverLedger, Table.get?_set_self]
  exact ((owner_governance_end_to_end handoverLedger handoverOwner handover_trusted
    (Address.ofBytes [2]) (Address.ofBytes [2]) (Address.ofBytes [7]) (Address.ofBytes [7])
    0 0 0).1 _).2 ⟨handoverAccount, handoverConfig, hC, rfl, Config.decode_encode _, rfl, rfl⟩

end TokenBridge
