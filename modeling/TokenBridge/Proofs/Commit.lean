import TokenBridge.Ledger.Basic
/-!
A submission is committed whole or not at all.

`Runs l m ixs s s' lines` says what running a message's instructions means, one instruction at a
time: each runs through `execute` from the state the previous one left, and writes its lines
between an `invoke` and a `success` line. `runFrom` is that relation computed
(`runFrom_eq_ok_iff`, by induction on the instructions), and a run that fails stops at one
instruction, after the ones before it ran (`runFrom_eq_error`): one naming a position past the
message's keys, or one whose program fails. A submission is then either refused or
aborted, and the ledger only counts it, or it is committed under a signature that had no log
yet, with the state of a full run and that run's lines as its log.
-/

namespace TokenBridge

namespace Ledger

/-- The program that runs instruction `ix` of message `m`. -/
def programOf (m : Message) (ix : CompiledInstruction) : Address :=
  m.keys.getD ix.programIndex Address.zero

/-- The accounts instruction `ix` of message `m` names, each with whether it signs. -/
def accountsOf (m : Message) (ix : CompiledInstruction) : List Invoked :=
  ix.accounts.map fun k => ⟨m.keys.getD k Address.zero, m.isSigner k⟩

/-- Every position instruction `ix` names, its program's and its accounts', is a key of `m`. -/
def InRange (m : Message) (ix : CompiledInstruction) : Prop :=
  ix.programIndex < m.keys.length ∧ ∀ k ∈ ix.accounts, k < m.keys.length

/-- Looking the accounts up goes through exactly when every position is a key, and then gives the
keys at those positions. -/
theorem mapM_lookup (m : Message) (ks : List Nat) :
    ks.mapM (fun k => (m.keys[k]?).map fun key => (⟨key, m.isSigner k⟩ : Invoked)) =
      if ∀ k ∈ ks, k < m.keys.length then
        some (ks.map fun k => ⟨m.keys.getD k Address.zero, m.isSigner k⟩)
      else none := by
  induction ks with
  | nil => simp
  | cons k ks ih =>
    rw [List.mapM_cons, ih]
    by_cases hk : k < m.keys.length
    · by_cases hks : ∀ j ∈ ks, j < m.keys.length
      · have hall : ∀ j ∈ k :: ks, j < m.keys.length := fun j hj => by
          rcases List.mem_cons.1 hj with rfl | hj
          · exact hk
          · exact hks j hj
        rw [if_pos hks, if_pos hall]
        simp [List.getElem?_eq_getElem hk, List.getD_eq_getElem?_getD]
      · rw [if_neg hks, if_neg fun h => hks fun j hj => h j (List.mem_cons_of_mem k hj)]
        simp
    · -- the first position is past the keys, so the lookup stops there
      simp [hk]

/-- An instruction whose positions are keys resolves to the program and accounts it names. -/
theorem resolve?_of_inRange {m : Message} {ix : CompiledInstruction} (h : InRange m ix) :
    resolve? m ix = some (programOf m ix, accountsOf m ix) := by
  simp only [resolve?, mapM_lookup, if_pos h.2, List.getElem?_eq_getElem h.1]
  simp [programOf, accountsOf, List.getD_eq_getElem?_getD, List.getElem?_eq_getElem h.1]

/-- An instruction with a position past the keys does not resolve: the simulator panics. -/
theorem resolve?_of_not_inRange {m : Message} {ix : CompiledInstruction} (h : ¬ InRange m ix) :
    resolve? m ix = none := by
  by_cases hp : ix.programIndex < m.keys.length
  · have hks : ¬ ∀ k ∈ ix.accounts, k < m.keys.length := fun hks => h ⟨hp, hks⟩
    simp [resolve?, mapM_lookup, hks, List.getElem?_eq_getElem hp]
  · simp [resolve?, List.getElem?_eq_none (Nat.le_of_not_lt hp)]

/-- The lines an instruction of `program` that wrote `written` adds to its transaction's log. -/
def framed (program : Address) (written : List String) : List String :=
  ["Program " ++ program.toBase58 ++ " invoke [1]"] ++ written
    ++ ["Program " ++ program.toBase58 ++ " success"]

/-- The instructions `ixs` of message `m` run in order from `s` through `execute`, end in `s'`, and
write `lines`. -/
inductive Runs (l : Ledger) (m : Message) :
    List CompiledInstruction → State → State → List String → Prop
  | nil (s : State) : Runs l m [] s s []
  | cons {ix : CompiledInstruction} {rest : List CompiledInstruction} {s s' s'' : State}
      {written lines : List String} : InRange m ix →
      (l.execute (programOf m ix) (accountsOf m ix) ix.data).run s = .ok (written, s') →
      Runs l m rest s' s'' lines →
      Runs l m (ix :: rest) s s'' (framed (programOf m ix) written ++ lines)

variable {l : Ledger} {m : Message}

theorem runs_nil_iff {s s' : State} {lines : List String} :
    Runs l m [] s s' lines ↔ s' = s ∧ lines = [] := by
  constructor
  · rintro ⟨⟩
    exact ⟨rfl, rfl⟩
  · rintro ⟨rfl, rfl⟩
    exact .nil _

theorem runs_cons_iff {ix : CompiledInstruction} {rest : List CompiledInstruction}
    {s s'' : State} {lines : List String} :
    Runs l m (ix :: rest) s s'' lines ↔ InRange m ix ∧
      ∃ written s', (l.execute (programOf m ix) (accountsOf m ix) ix.data).run s = .ok (written, s') ∧
        ∃ more, Runs l m rest s' s'' more ∧ lines = framed (programOf m ix) written ++ more := by
  constructor
  · rintro (_ | ⟨hin, hx, hr⟩)
    exact ⟨hin, _, _, hx, _, hr, rfl⟩
  · rintro ⟨hin, written, s', hx, more, hr, rfl⟩
    exact .cons hin hx hr

/-- A run has one outcome: `execute` is a function of the state. -/
theorem Runs.determ {ixs : List CompiledInstruction} {s s₁ s₂ : State} {lines₁ lines₂ : List String}
    (h₁ : Runs l m ixs s s₁ lines₁) (h₂ : Runs l m ixs s s₂ lines₂) : s₁ = s₂ ∧ lines₁ = lines₂ := by
  induction h₁ generalizing s₂ lines₂ with
  | nil => exact (runs_nil_iff.1 h₂).imp Eq.symm Eq.symm
  | cons _ hx _ ih =>
    obtain ⟨-, written, s', hx', more, hr, rfl⟩ := runs_cons_iff.1 h₂
    rw [hx] at hx'
    -- both runs continue from the same state with the same lines written
    obtain ⟨rfl, rfl⟩ := Prod.mk.inj (Except.ok.inj hx')
    obtain ⟨rfl, rfl⟩ := ih hr
    exact ⟨rfl, rfl⟩

section Steps

variable {ix : CompiledInstruction} {rest : List CompiledInstruction} {i : Nat} {s s' : State}
  {pre written : List String}

/-- An instruction with a position past the message's keys stops the run there. -/
theorem runFrom_cons_of_not_inRange (h : ¬ InRange m ix) :
    l.runFrom m i (ix :: rest) s pre = .error (i, .abort) := by
  simp only [runFrom, resolve?_of_not_inRange h]

/-- An instruction that runs hands the run on to the next position, with its lines framed. -/
theorem runFrom_cons_of_ok (h : InRange m ix)
    (hx : (l.execute (programOf m ix) (accountsOf m ix) ix.data).run s = .ok (written, s')) :
    l.runFrom m i (ix :: rest) s pre = l.runFrom m (i + 1) rest s' (pre ++ framed (programOf m ix) written) := by
  simp only [runFrom, resolve?_of_inRange h, hx]
  simp [framed, List.append_assoc]

/-- An instruction that fails stops the run at its position, with its failure. -/
theorem runFrom_cons_of_error {f : Failure} (h : InRange m ix)
    (hx : (l.execute (programOf m ix) (accountsOf m ix) ix.data).run s = .error f) :
    l.runFrom m i (ix :: rest) s pre = .error (i, f) := by
  simp only [runFrom, resolve?_of_inRange h, hx]

end Steps

/-- `runFrom` computes `Runs`: from position `i` with `pre` already written, it succeeds exactly
when the rest of the instructions run, and adds their lines to `pre`. -/
theorem runFrom_eq_ok_iff (ixs : List CompiledInstruction) (i : Nat) (s s' : State)
    (pre lines : List String) :
    l.runFrom m i ixs s pre = .ok (s', lines) ↔ ∃ more, Runs l m ixs s s' more ∧ lines = pre ++ more := by
  induction ixs generalizing i s pre with
  | nil =>
    simp only [runFrom, Except.ok.injEq, Prod.mk.injEq, runs_nil_iff]
    constructor
    · rintro ⟨rfl, rfl⟩
      exact ⟨[], ⟨rfl, rfl⟩, (List.append_nil _).symm⟩
    · rintro ⟨_, ⟨rfl, rfl⟩, rfl⟩
      exact ⟨rfl, (List.append_nil _).symm⟩
  | cons ix rest ih =>
    simp only [runs_cons_iff]
    -- an instruction past the keys stops the run, and no run goes through it
    by_cases hin : InRange m ix
    · cases hx : (l.execute (programOf m ix) (accountsOf m ix) ix.data).run s with
      | error f =>
        -- the first instruction fails: neither side holds
        simp [runFrom_cons_of_error hin hx]
      | ok r =>
        obtain ⟨written, s₁⟩ := r
        rw [runFrom_cons_of_ok hin hx, ih]
        constructor
        · rintro ⟨more, hr, rfl⟩
          exact ⟨framed (programOf m ix) written ++ more, ⟨hin, written, s₁, rfl, more, hr, rfl⟩,
            List.append_assoc ..⟩
        · rintro ⟨_, ⟨-, w, s₂, he, more, hr, rfl⟩, rfl⟩
          obtain ⟨rfl, rfl⟩ := Prod.mk.inj (Except.ok.inj he)
          exact ⟨more, hr, by rw [List.append_assoc]⟩
    · simp [runFrom_cons_of_not_inRange hin, hin]

/-- A run that fails, fails at one instruction, after the ones before it ran, and names its position:
the instruction names a position past the keys, which stops the simulator, or its program fails. -/
theorem runFrom_eq_error {ixs : List CompiledInstruction} {i j : Nat} {s : State}
    {pre : List String} {f : Failure} (h : l.runFrom m i ixs s pre = .error (j, f)) :
    ∃ done ix rest s' lines, ixs = done ++ ix :: rest ∧ j = i + done.length ∧
      Runs l m done s s' lines ∧
      ((¬ InRange m ix ∧ f = .abort) ∨
        (l.execute (programOf m ix) (accountsOf m ix) ix.data).run s' = .error f) := by
  induction ixs generalizing i s pre with
  | nil => cases h
  | cons ix rest ih =>
    by_cases hin : InRange m ix
    case neg =>
      rw [runFrom_cons_of_not_inRange hin] at h
      obtain ⟨rfl, rfl⟩ := Prod.mk.inj (Except.error.inj h)
      exact ⟨[], ix, rest, s, [], rfl, rfl, .nil s, .inl ⟨hin, rfl⟩⟩
    case pos =>
      cases hx : (l.execute (programOf m ix) (accountsOf m ix) ix.data).run s with
      | error f' =>
        rw [runFrom_cons_of_error hin hx] at h
        obtain ⟨rfl, rfl⟩ := Prod.mk.inj (Except.error.inj h)
        exact ⟨[], ix, rest, s, [], rfl, rfl, .nil s, .inr hx⟩
      | ok r =>
        obtain ⟨written, s₁⟩ := r
        rw [runFrom_cons_of_ok hin hx] at h
        obtain ⟨done, ix', rest', s', lines, rfl, rfl, hruns, hfail⟩ := ih h
        refine ⟨ix :: done, ix', rest', s', _, rfl, ?_, .cons hin hx hruns, hfail⟩
        simp only [List.length_cons]
        omega

theorem execute_congr {l₁ l₂ : Ledger} (hp : l₁.program = l₂.program)
    (ht : l₁.tokenProgram = l₂.tokenProgram) : l₁.execute = l₂.execute := by
  funext program accounts data
  simp only [execute, hp, ht]

/-- Runs depend on the ledger only through the programs it runs. -/
theorem Runs.congr {l₁ : Ledger} {ixs : List CompiledInstruction} {s s' : State}
    {lines : List String} (h : Runs l₁ m ixs s s' lines) (l₂ : Ledger)
    (hp : l₁.program = l₂.program) (ht : l₁.tokenProgram = l₂.tokenProgram) :
    Runs l₂ m ixs s s' lines := by
  induction h with
  | nil s => exact .nil s
  | cons hin hx _ ih => exact .cons hin (execute_congr hp ht ▸ hx) ih

/-! ### Submissions -/

theorem failureVerdict_ne_committed (i : Nat) (f : Failure) (sig : Bytes) :
    failureVerdict i f ≠ .committed sig := by
  cases f <;> intro h <;> cases h

/-- Only a failure that stops the simulator aborts the submission. -/
theorem failureVerdict_eq_aborted {i : Nat} {f : Failure} : failureVerdict i f = .aborted ↔ f = .abort := by
  cases f <;> simp [failureVerdict]

/-- A program's refusal carries its code to the client, with the position of the instruction. -/
theorem failureVerdict_eq_programError {i : Nat} {f : Failure} {idx : UInt8} {code : UInt32} :
    failureVerdict i f = .refused (.programError idx code) ↔ idx = i.toUInt8 ∧ f.code? = some code := by
  cases f <;> simp [failureVerdict, Failure.code?, eq_comm]

theorem lookup_eq_none_of_any {logs : List (Bytes × List String)} {sig : Bytes}
    (h : ¬ logs.any (·.1 == sig) = true) : logs.lookup sig = none := by
  rw [List.lookup_eq_none_iff]
  intro p hp
  have hne : p.1 ≠ sig := fun he => h (List.any_eq_true.2 ⟨p, hp, beq_iff_eq.2 he⟩)
  exact bne_iff_ne.2 (Ne.symm hne)

/-- What a submission comes to: a verdict other than a commit with the ledger only counting it,
or a commit under the first signature, new to the logs, of the state and lines its instructions
run to. -/
theorem sendAndConfirm_cases (l : Ledger) (t : Transaction) :
    (∃ v, l.sendAndConfirm t = (v, { l with submissions := l.submissions + 1 }) ∧
        ∀ sig, v ≠ .committed sig) ∨
      ∃ s lines, l.sendAndConfirm t = (.committed (t.signatures.headD []),
          { l with submissions := l.submissions + 1, state := s,
                   logs := l.logs ++ [(t.signatures.headD [], lines)] }) ∧
        l.logs.lookup (t.signatures.headD []) = none ∧
        ({ l with submissions := l.submissions + 1 } : Ledger).runFrom t.message 0
          t.message.instructions l.state [] = .ok (s, lines) := by
  unfold sendAndConfirm
  dsimp only
  split
  · exact .inl ⟨_, rfl, fun _ => nofun⟩
  -- a transaction with no signatures stops the simulator before its run
  rcases hs : t.signatures with _ | ⟨sig, more⟩
  · exact .inl ⟨_, rfl, fun _ => nofun⟩
  dsimp only
  split
  · exact .inl ⟨_, rfl, fun _ => nofun⟩
  split
  · exact .inl ⟨_, rfl, fun _ => nofun⟩
  rename_i hnew
  split
  · rename_i i f _
    exact .inl ⟨_, rfl, failureVerdict_ne_committed i f⟩
  · rename_i s lines hrun
    exact .inr ⟨s, lines, rfl, lookup_eq_none_of_any hnew, hrun⟩

/-- A submission that is not committed is either refused, with a reason, by one of the checks
before its run, or stopped for want of a signature to read, or answered with what the failure of
its run at some instruction tells the client; the ledger only counts it. -/
theorem sendAndConfirm_of_not_committed {t : Transaction} {v : Verdict} {l' : Ledger}
    (h : l.sendAndConfirm t = (v, l')) (hv : ∀ sig, v ≠ .committed sig) :
    l' = { l with submissions := l.submissions + 1 } ∧
      ((∃ reason, v = .refused (.rejected reason)) ∨ (t.signatures = [] ∧ v = .aborted) ∨
        ∃ i f, ({ l with submissions := l.submissions + 1 } : Ledger).runFrom t.message 0
          t.message.instructions l.state [] = .error (i, f) ∧ v = failureVerdict i f) := by
  unfold sendAndConfirm at h
  dsimp only at h
  -- the signatures, the blockhash and the first signature's novelty are checked before the run
  split at h
  · obtain ⟨rfl, rfl⟩ := Prod.mk.inj h
    exact ⟨rfl, .inl ⟨_, rfl⟩⟩
  rcases hs : t.signatures with _ | ⟨sig, more⟩
  · rw [hs] at h
    obtain ⟨rfl, rfl⟩ := Prod.mk.inj h
    exact ⟨rfl, .inr (.inl ⟨rfl, rfl⟩)⟩
  rw [hs] at h
  dsimp only at h
  split at h
  · obtain ⟨rfl, rfl⟩ := Prod.mk.inj h
    exact ⟨rfl, .inl ⟨_, rfl⟩⟩
  split at h
  · obtain ⟨rfl, rfl⟩ := Prod.mk.inj h
    exact ⟨rfl, .inl ⟨_, rfl⟩⟩
  split at h
  · rename_i i f hrun
    obtain ⟨rfl, rfl⟩ := Prod.mk.inj h
    exact ⟨rfl, .inr (.inr ⟨i, f, hrun, rfl⟩)⟩
  · exact absurd (Prod.mk.inj h).1.symm (hv _)

/-- A submission is committed whole or not at all. When it is not committed, the ledger has only
counted it. When it is, under its first signature, that signature had no log yet, the state is the
one its instructions run to in order from the ledger's, and the run's lines are its log. -/
theorem sendAndConfirm_all_or_nothing (l : Ledger) (t : Transaction) :
    (∀ v l', l.sendAndConfirm t = (v, l') → (∀ sig, v ≠ .committed sig) →
      l' = { l with submissions := l.submissions + 1 }) ∧
    (∀ sig l', l.sendAndConfirm t = (.committed sig, l') →
      sig = t.signatures.headD [] ∧ l.logs.lookup sig = none ∧
      ∃ s lines, Runs l t.message t.message.instructions l.state s lines ∧
        l' = { l with submissions := l.submissions + 1, state := s,
                      logs := l.logs ++ [(sig, lines)] } ∧
        l'.logs.lookup sig = some lines) := by
  rcases sendAndConfirm_cases l t with ⟨v, hv, hnot⟩ | ⟨s, lines, hc, hnew, hrun⟩
  · refine ⟨fun v' l' h _ => ?_, fun sig l' h => ?_⟩
    · rw [hv] at h
      exact (Prod.mk.inj h).2.symm
    · rw [hv] at h
      exact absurd (Prod.mk.inj h).1 (hnot sig)
  · -- the run `sendAndConfirm` makes on the counted ledger is a run of the same programs
    obtain ⟨more, hruns, rfl⟩ := (runFrom_eq_ok_iff _ _ _ _ _ _).1 hrun
    refine ⟨fun v l' h hv => ?_, fun sig l' h => ?_⟩
    · rw [hc] at h
      exact absurd (Prod.mk.inj h).1.symm (hv _)
    · rw [hc] at h
      obtain ⟨hsig, rfl⟩ := Prod.mk.inj h
      cases hsig
      refine ⟨rfl, hnew, s, _, hruns.congr l rfl rfl, rfl, ?_⟩
      rw [List.lookup_append, hnew]
      simp

end Ledger

end TokenBridge
