import TokenBridge.Proofs.ReadBack
import TokenBridge.Client.Flows
/-!
A client flow's transaction commits exactly when the ledger runs its instructions.

A flow puts its instructions together, signs them under a blockhash it takes from the ledger, and
submits them. When every signer given is a key pair whose signatures the ledger's check accepts,
and the ledger has committed nothing under such a signature of a message with the new blockhash,
only the instructions decide: the submission commits, with the state they end in, exactly when
they run through (`submit_commits_iff`).

On the way: a flow's run, step by step (`Flow.run_bind`); the keys that must sign are those the
compiled message counts as signers (`mem_requiredSigners`); putting the transaction together keeps
a given signer for each of them (`exists_mem_keptSigners`), so that signing goes through and every
signature checks (`Assembled.sign_of_trusted`).
-/

namespace TokenBridge

open Client

/-! ### Running a flow -/

namespace Flow

variable {α β : Type}

theorem run_bind (x : Flow α) (f : α → Flow β) (l : Ledger) :
    (x >>= f).run.run l = match x.run.run l with
      | (.ok a, l') => (f a).run.run l'
      | (.error e, l') => (.error e, l') := by
  simp only [ExceptT.run, StateT.run, bind, ExceptT.bind, ExceptT.mk, StateT.bind,
    ExceptT.bindCont]
  rcases x l with ⟨r, l'⟩
  cases r <;> rfl

@[simp] theorem run_pure (a : α) (l : Ledger) : (pure a : Flow α).run.run l = (.ok a, l) := rfl

@[simp] theorem run_get (l : Ledger) : (get : Flow Ledger).run.run l = (.ok l, l) := rfl

@[simp] theorem run_set (l l' : Ledger) : (set l' : Flow PUnit).run.run l = (.ok ⟨⟩, l') := rfl

@[simp] theorem run_modifyGet (f : Ledger → α × Ledger) (l : Ledger) :
    (modifyGet f : Flow α).run.run l = (.ok (f l).1, (f l).2) := rfl

@[simp] theorem run_throw (e : Stop) (l : Ledger) : (throw e : Flow α).run.run l = (.error e, l) :=
  rfl

end Flow

/-- A submission takes a fresh blockhash, signs under it, and hands the transaction to the ledger;
its answer decides the flow's. -/
theorem submit_run (a : Assembled) (l : Ledger) :
    (submit a).run.run l =
      match a.sign l.latestBlockhash.1 with
      | .error e => (.error (.failed (.assemble e)), l.latestBlockhash.2)
      | .ok t =>
        match l.latestBlockhash.2.sendAndConfirm t with
        | (.committed sig, l') => (.ok sig, l')
        | (.aborted, l') => (.error .aborted, l')
        | (.refused e, l') =>
          (.error (.failed (ClientError.ofSubmission a.operation l.program t.message e)), l') := by
  unfold submit
  rw [Flow.run_bind, Flow.run_modifyGet]
  dsimp only
  cases a.sign l.latestBlockhash.1 with
  | error e => rfl
  | ok t =>
    dsimp only
    rw [Flow.run_bind, Flow.run_get]
    dsimp only
    rw [Flow.run_bind, Flow.run_set]
    dsimp only
    rcases l.latestBlockhash.2.sendAndConfirm t with ⟨v, l'⟩
    cases v <;> rfl

/-! ### Who must sign -/

section Signers

variable {payer k : Address} {ixs : List Instruction}

theorem mem_foldl_required {rs : List AccountRef} {req : List Address} :
    k ∈ rs.foldl (fun req r => if r.signer && !req.contains r.key then req ++ [r.key] else req) req ↔
      k ∈ req ∨ ∃ r ∈ rs, r.signer = true ∧ r.key = k := by
  induction rs generalizing req with
  | nil => simp
  | cons r rs ih =>
    rw [List.foldl_cons, ih]
    by_cases hs : r.signer = true
    · by_cases hc : req.contains r.key = true
      · -- a key already required stays required
        have hmem : r.key ∈ req := by simpa using hc
        simp only [hs, hc, Bool.not_true, Bool.and_false, Bool.false_eq_true, if_false,
          List.mem_cons, exists_eq_or_imp, true_and]
        constructor
        · rintro (h | h)
          · exact .inl h
          · exact .inr (.inr h)
        · rintro (h | rfl | h)
          · exact .inl h
          · exact .inl hmem
          · exact .inr h
      · simp only [hs, hc, Bool.not_false, Bool.and_self, if_true, List.mem_append,
          List.mem_cons, List.not_mem_nil, or_false, exists_eq_or_imp, true_and]
        constructor
        · rintro ((h | rfl) | h)
          · exact .inl h
          · exact .inr (.inl rfl)
          · exact .inr (.inr h)
        · rintro (h | rfl | h)
          · exact .inl (.inl h)
          · exact .inl (.inr rfl)
          · exact .inr h
    · simp only [hs, Bool.false_and, Bool.false_eq_true, if_false, List.mem_cons,
        exists_eq_or_imp, false_and, false_or]

/-- The keys that must sign are the payer and every key an instruction flags as signer. -/
theorem mem_requiredSigners :
    k ∈ requiredSigners payer ixs ↔ Message.signsFor payer ixs k = true := by
  rw [requiredSigners, mem_foldl_required, Message.signsFor_eq_true]
  simp only [List.mem_singleton, List.mem_flatMap]
  constructor
  · rintro (rfl | ⟨r, ⟨ix, hix, hr⟩, hs, rfl⟩)
    · exact .inl rfl
    · exact .inr ⟨ix, hix, r, hr, rfl, hs⟩
  · rintro (rfl | ⟨ix, hix, r, hr, rfl, hs⟩)
    · exact .inl rfl
    · exact .inr ⟨r, ⟨ix, hix, hr⟩, hs, rfl⟩

/-- The step of `keptSigners`: a required signer whose key is not yet kept is kept. -/
theorem keptSigners_foldl (required : List Address) :
    ∀ (ss kept : List Signer),
      let r := ss.foldl
        (fun (acc : List Signer × List Address) s =>
          if required.contains s.key && !acc.2.contains s.key then (acc.1 ++ [s], acc.2 ++ [s.key])
          else acc) (kept, kept.map Signer.key)
      r.2 = r.1.map Signer.key ∧ (∀ s ∈ r.1, s ∈ kept ∨ s ∈ ss) ∧
        ∀ k, (k ∈ kept.map Signer.key ∨ ∃ s ∈ ss, required.contains s.key = true ∧ s.key = k) →
          k ∈ r.1.map Signer.key
  | [], kept => by simp
  | s :: ss, kept => by
    simp only [List.foldl_cons]
    by_cases hs : (required.contains s.key && !(kept.map Signer.key).contains s.key) = true
    · rw [if_pos hs, show kept.map Signer.key ++ [s.key] = (kept ++ [s]).map Signer.key by simp]
      obtain ⟨h₁, h₂, h₃⟩ := keptSigners_foldl required ss (kept ++ [s])
      refine ⟨h₁, fun x hx => ?_, fun k hk => h₃ k ?_⟩
      · rcases h₂ x hx with hx | hx
        · rcases List.mem_append.1 hx with hx | hx
          · exact .inl hx
          · exact .inr (List.mem_cons.2 (.inl (List.mem_singleton.1 hx)))
        · exact .inr (List.mem_cons_of_mem s hx)
      · rcases hk with hk | ⟨x, hx, hxr, rfl⟩
        · exact .inl (by simp only [List.map_append, List.mem_append]; exact .inl hk)
        · rcases List.mem_cons.1 hx with rfl | hx
          · exact .inl (by simp)
          · exact .inr ⟨x, hx, hxr, rfl⟩
    · rw [if_neg hs]
      obtain ⟨h₁, h₂, h₃⟩ := keptSigners_foldl required ss kept
      refine ⟨h₁, fun x hx => (h₂ x hx).imp_right (List.mem_cons_of_mem s), fun k hk => h₃ k ?_⟩
      rcases hk with hk | ⟨x, hx, hxr, rfl⟩
      · exact .inl hk
      · rcases List.mem_cons.1 hx with rfl | hx
        · -- a required key left out is a key already kept
          simp only [hxr, Bool.true_and, Bool.not_eq_true', Bool.not_eq_false] at hs
          exact .inl (by simpa using hs)
        · exact .inr ⟨x, hx, hxr, rfl⟩

theorem mem_of_mem_keptSigners {required : List Address} {signers : List Signer} {s : Signer}
    (h : s ∈ keptSigners required signers) : s ∈ signers :=
  ((keptSigners_foldl required signers []).2.1 s h).resolve_left List.not_mem_nil

/-- A required key that some given signer signs for keeps a signer. -/
theorem exists_mem_keptSigners {required : List Address} {signers : List Signer} {s : Signer}
    (hr : s.key ∈ required) (hs : s ∈ signers) :
    ∃ s' ∈ keptSigners required signers, s'.key = s.key := by
  have hk := (keptSigners_foldl required signers []).2.2 s.key
    (.inr ⟨s, hs, List.contains_iff_mem.2 hr, rfl⟩)
  change s.key ∈ (keptSigners required signers).map Signer.key at hk
  exact List.mem_map.1 hk

end Signers

/-! ### Signing -/

/-- A key pair whose every signature the ledger's check accepts, and none of them all zeros. -/
def Keypair.Honest (l : Ledger) (kp : Keypair) : Prop :=
  ∀ m, l.checkSignature kp.key.bytes m (kp.sign m) = true ∧ kp.sign m ≠ List.replicate 64 0

/-- The ledger has committed nothing under the key pair's signature of a message with the
blockhash it hands out next. -/
def Keypair.Fresh (l : Ledger) (kp : Keypair) : Prop :=
  ∀ m : Message, m.recentBlockhash = l.latestBlockhash.1 → ∀ e ∈ l.logs, e.1 ≠ kp.sign m.serialize

/-- A signer the ledger can go by: a key pair, honest and fresh, and not a key alone. -/
def Signer.Trusted (l : Ledger) : Signer → Prop
  | .keypair kp => kp.Honest l ∧ kp.Fresh l
  | .keyOnly _ => False

theorem List.zip_map_take_self {α β : Type} (f : α → β) :
    ∀ (xs : List α) (n : Nat), ((xs.take n).map f).zip xs = (xs.take n).map fun x => (f x, x)
  | [], _ => by simp
  | _ :: _, 0 => by simp
  | x :: xs, n + 1 => by
    rw [List.take_succ_cons, List.map_cons, List.map_cons, List.zip_cons_cons,
      List.zip_map_take_self f xs n]

section Signing

variable {a : Assembled} {l : Ledger}

/-- Where every key that must sign finds a trusted signer, signing goes through under any
blockhash, every signature checks, and under the blockhash the ledger hands out next the first
signature is new to its logs. -/
theorem Assembled.sign_of_trusted (hne : a.message.signerKeys ≠ [])
    (hfind : ∀ k ∈ a.message.signerKeys, ∃ s, a.signers.find? (·.key == k) = some s ∧ s.Trusted l)
    (bh : Bytes) :
    ∃ t, a.sign bh = .ok t ∧ t.message = { a.message with recentBlockhash := bh } ∧
      t.verifyWith l.checkSignature = true ∧ t.signatures ≠ [] ∧
      (bh = l.latestBlockhash.1 → ∀ e ∈ l.logs, e.1 ≠ t.signatures.headD []) := by
  -- each key that must sign finds a trusted key pair of its own
  have hkp : ∀ k ∈ a.message.signerKeys, ∃ kp : Keypair, kp.key = k ∧ kp.Honest l ∧ kp.Fresh l ∧
      a.signers.find? (·.key == k) = some (.keypair kp) := by
    intro k hk
    obtain ⟨s, hs, htr⟩ := hfind k hk
    cases s with
    | keyOnly _ => exact htr.elim
    | keypair kp =>
      have hkey : kp.key = k := by simpa [Signer.key] using List.find?_some hs
      exact ⟨kp, hkey, htr.1, htr.2, hs⟩
  have hkeys : ({ a.message with recentBlockhash := bh } : Message).signerKeys =
      a.message.signerKeys := rfl
  unfold Assembled.sign
  dsimp only
  rw [hkeys]
  split
  · -- no signature is all zeros
    rename_i h
    obtain ⟨x, hx, hz⟩ := List.any_eq_true.1 h
    obtain ⟨k, hk, rfl⟩ := List.mem_map.1 hx
    obtain ⟨kp, -, hh, -, hs⟩ := hkp k hk
    simp only [hs, Signer.signMessage, beq_iff_eq] at hz
    exact absurd hz (hh _).2
  · refine ⟨_, rfl, rfl, ?_, by simpa using hne, ?_⟩
    · -- each key is paired with its own signature
      simp only [Transaction.verifyWith, Message.signerKeys]
      rw [List.zip_map_take_self, List.all_map, List.all_eq_true]
      intro k hk
      obtain ⟨kp, rfl, hh, -, hs⟩ := hkp k hk
      simpa [hs, Signer.signMessage] using (hh _).1
    · intro hbh e he
      obtain ⟨k, ks, hks⟩ := List.exists_cons_of_ne_nil hne
      obtain ⟨kp, -, -, hf, hs⟩ := hkp k (by rw [hks]; exact List.mem_cons_self)
      simp only [hks, List.map_cons, List.headD_cons, hs, Signer.signMessage]
      exact hf _ hbh e he

end Signing

/-! ### Submitting -/

namespace Ledger

variable {l : Ledger} {m : Message} {ixs : List CompiledInstruction} {s s' : State}
  {lines : List String}

/-- A run does not look at the message's blockhash. -/
theorem runs_withBlockhash {h : Bytes} :
    Runs l { m with recentBlockhash := h } ixs s s' lines ↔ Runs l m ixs s s' lines := by
  constructor
  · intro hr
    induction hr with
    | nil s => exact .nil s
    | cons hin hx _ ih => exact .cons hin hx ih
  · intro hr
    induction hr with
    | nil s => exact .nil s
    | cons hin hx _ ih => exact .cons hin hx ih

/-- A signed transaction whose signatures check, whose blockhash the ledger handed out and whose
first signature is new commits exactly when its instructions run through. -/
theorem sendAndConfirm_of_checked {t : Transaction} (hver : t.verifyWith l.checkSignature = true)
    (hsig : t.signatures ≠ []) (hbh : t.message.recentBlockhash ∈ l.blockhashes)
    (hnew : ∀ e ∈ l.logs, e.1 ≠ t.signatures.headD []) :
    l.sendAndConfirm t =
      let l₁ := { l with submissions := l.submissions + 1 }
      match l₁.runFrom t.message 0 t.message.instructions l.state [] with
      | .error (i, f) => (failureVerdict i f, l₁)
      | .ok (s, lines) => (.committed (t.signatures.headD []),
          { l₁ with state := s, logs := l.logs ++ [(t.signatures.headD [], lines)] }) := by
  obtain ⟨sig, more, hs⟩ := List.exists_cons_of_ne_nil hsig
  have hany : (l.logs.any (·.1 == sig)) = false := by
    rw [List.any_eq_false]
    intro e he
    simpa [hs] using hnew e he
  unfold sendAndConfirm
  -- split on the run first: the two matches on it are different auxiliary functions
  rcases hrun : ({ l with submissions := l.submissions + 1 }.runFrom t.message 0
    t.message.instructions l.state []) with ⟨i, f⟩ | ⟨s, lines⟩ <;>
  simp only [hver, Bool.not_true, Bool.false_eq_true, if_false, hs, List.headD_cons,
    List.contains_iff_mem.2 hbh, hany, hrun]

theorem sendAndConfirm_commits_of_runs {t : Transaction} (hver : t.verifyWith l.checkSignature = true)
    (hsig : t.signatures ≠ []) (hbh : t.message.recentBlockhash ∈ l.blockhashes) (hnew : ∀ e ∈ l.logs, e.1 ≠ t.signatures.headD [])
    (hr : Runs l t.message t.message.instructions l.state s lines) :
    ∃ l', l.sendAndConfirm t = (.committed (t.signatures.headD []), l') ∧ l'.state = s := by
  have hrun := (runFrom_eq_ok_iff (l := { l with submissions := l.submissions + 1 }) _ 0 l.state s []
    lines).2 ⟨lines, hr.congr _ rfl rfl, rfl⟩
  rw [sendAndConfirm_of_checked hver hsig hbh hnew]
  dsimp only
  rw [hrun]
  exact ⟨_, rfl, rfl⟩

end Ledger

/-- The flow's answer to a submission signed as `t` is the ledger's verdict on `t`. -/
theorem submit_eq_ok_iff {a : Assembled} {l l' : Ledger} {t : Transaction} {sig : Bytes}
    (ht : a.sign l.latestBlockhash.1 = .ok t) :
    (submit a).run.run l = (.ok sig, l') ↔
      l.latestBlockhash.2.sendAndConfirm t = (.committed sig, l') := by
  rw [submit_run, ht]
  dsimp only
  rcases l.latestBlockhash.2.sendAndConfirm t with ⟨v, l''⟩
  cases v <;> constructor <;> intro h <;> cases h <;> rfl

/-- A submission whose every key that must sign finds a trusted signer commits, ending in `s`,
exactly when the message's instructions run through from the ledger's state to `s`. -/
theorem submit_commits_iff {a : Assembled} {l : Ledger} (hne : a.message.signerKeys ≠ [])
    (hfind : ∀ k ∈ a.message.signerKeys, ∃ s, a.signers.find? (·.key == k) = some s ∧ s.Trusted l)
    (s : State) :
    (∃ sig l', (submit a).run.run l = (.ok sig, l') ∧ l'.state = s) ↔
      ∃ lines, Ledger.Runs l a.message a.message.instructions l.state s lines := by
  obtain ⟨t, ht, hmsg, hver, hsig, hnew⟩ := a.sign_of_trusted hne hfind l.latestBlockhash.1
  have hbh : t.message.recentBlockhash ∈ l.latestBlockhash.2.blockhashes := by
    rw [hmsg]
    simp [Ledger.latestBlockhash]
  -- a run after the blockhash is handed out, of the signed message, is a run of the assembled one
  have hruns : ∀ s' more, Ledger.Runs l.latestBlockhash.2 t.message t.message.instructions l.state
      s' more ↔ Ledger.Runs l a.message a.message.instructions l.state s' more := by
    intro s' more
    rw [hmsg, Ledger.runs_withBlockhash]
    exact ⟨fun h => h.congr l rfl rfl, fun h => h.congr _ rfl rfl⟩
  constructor
  · rintro ⟨sig, l', h, rfl⟩
    obtain ⟨-, -, s₁, lines, hr, rfl, -⟩ :=
      (Ledger.sendAndConfirm_all_or_nothing _ t).2 sig l' ((submit_eq_ok_iff ht).1 h)
    exact ⟨lines, (hruns _ _).1 hr⟩
  · rintro ⟨lines, hr⟩
    obtain ⟨l', hc, hs⟩ := Ledger.sendAndConfirm_commits_of_runs (l := l.latestBlockhash.2) hver hsig
      hbh (hnew rfl) ((hruns _ _).2 hr)
    exact ⟨_, l', (submit_eq_ok_iff ht).2 hc, hs⟩

/-! ### Assembling -/

namespace Message

theorem signerKeys_compile (payer : Address) (ixs : List Instruction) :
    (compile payer ixs).signerKeys =
      payer :: group (othersOf payer ixs) true true ++ group (othersOf payer ixs) true false := by
  rw [signerKeys, keys_compile, requiredSignatures_compile, List.take_left' rfl]

/-- The keys that sign a compiled message are the payer and the keys some instruction flags. -/
theorem mem_signerKeys_compile {payer k : Address} {ixs : List Instruction} :
    k ∈ (compile payer ixs).signerKeys ↔ signsFor payer ixs k = true := by
  rw [signerKeys_compile]
  exact mem_signing_keys

end Message

section Assembling

variable {op : String} {payer : Address} {ixs : List Instruction} {signers : List Signer}
  {l : Ledger}

/-- Instructions go together when there are some and every key that must sign has a signer. -/
theorem assemble_eq_ok_of_covered (hixs : ixs ≠ [])
    (hcover : ∀ k, Message.signsFor payer ixs k = true → ∃ s ∈ signers, s.key = k) :
    assemble op payer ixs signers =
      .ok ⟨op, Message.compile payer ixs, keptSigners (requiredSigners payer ixs) signers⟩ := by
  have hnone : (requiredSigners payer ixs).find? (fun k => !signers.any (·.key == k)) = none := by
    rw [List.find?_eq_none]
    intro k hk
    obtain ⟨s, hs, rfl⟩ := hcover k (mem_requiredSigners.1 hk)
    simpa using ⟨s, hs, rfl⟩
  unfold assemble
  rw [if_neg (by simpa using hixs)]
  dsimp only
  rw [hnone]

/-- With trusted signers that cover every key that must sign, the instructions assemble into their
compiled message, and each of its signing keys finds a trusted signer. -/
theorem assemble_trusted (op : String) (hixs : ixs ≠ [])
    (hcover : ∀ k, Message.signsFor payer ixs k = true → ∃ s ∈ signers, s.key = k)
    (htrust : ∀ s ∈ signers, s.Trusted l) :
    ∃ a, assemble op payer ixs signers = .ok a ∧ a.message = Message.compile payer ixs ∧
      a.message.signerKeys ≠ [] ∧
      ∀ k ∈ a.message.signerKeys, ∃ s, a.signers.find? (·.key == k) = some s ∧ s.Trusted l := by
  refine ⟨_, assemble_eq_ok_of_covered hixs hcover, rfl, by simp [Message.signerKeys_compile], ?_⟩
  intro k hk
  have hsigns := Message.mem_signerKeys_compile.1 hk
  obtain ⟨s, hs, rfl⟩ := hcover _ hsigns
  obtain ⟨s', hs', hkey⟩ := exists_mem_keptSigners (mem_requiredSigners.2 hsigns) hs
  -- the first kept signer for the key is a kept signer, so one of those given
  have hsome : ((keptSigners (requiredSigners payer ixs) signers).find? (·.key == s.key)).isSome :=
    List.find?_isSome.2 ⟨s', hs', by simp [hkey]⟩
  obtain ⟨s'', hfind⟩ := Option.isSome_iff_exists.1 hsome
  exact ⟨s'', hfind, htrust s'' (mem_of_mem_keptSigners (List.mem_of_find?_eq_some hfind))⟩

/-- A flow that assembles instructions with trusted signers, covering every key that must sign,
and submits them commits, ending in `s`, exactly when the compiled instructions run through from
the ledger's state to `s`. -/
theorem assembleOrStop_submit_commits_iff (hixs : ixs ≠ [])
    (hcover : ∀ k, Message.signsFor payer ixs k = true → ∃ s ∈ signers, s.key = k)
    (htrust : ∀ s ∈ signers, s.Trusted l) (s : State) :
    (∃ sig l', (assembleOrStop op payer ixs signers >>= submit).run.run l = (.ok sig, l') ∧
        l'.state = s) ↔
      ∃ lines, Ledger.Runs l (Message.compile payer ixs) (Message.compile payer ixs).instructions
        l.state s lines := by
  obtain ⟨a, ha, hmsg, hne, hfind⟩ := assemble_trusted op hixs hcover htrust
  rw [Flow.run_bind]
  unfold assembleOrStop
  rw [ha, Flow.run_pure]
  dsimp only
  rw [← hmsg]
  exact submit_commits_iff hne hfind s

end Assembling

/-! ### Running compiled instructions -/

namespace Ledger

/-- Instructions run one after another from `s` to `s'`, each account signing as `signs` says;
the lines they write, each call's framed by its program. -/
inductive RunsAs (l : Ledger) (signs : Address → Bool) :
    List Instruction → State → State → List String → Prop
  | nil (s : State) : RunsAs l signs [] s s []
  | cons {ix : Instruction} {rest : List Instruction} {s s' s'' : State}
      {written lines : List String} :
      (l.execute ix.program (ix.accounts.map fun r => ⟨r.key, signs r.key⟩) ix.data).run s =
        .ok (written, s') →
      RunsAs l signs rest s' s'' lines →
      RunsAs l signs (ix :: rest) s s'' (framed ix.program written ++ lines)

variable {l : Ledger} {signs : Address → Bool}

theorem runsAs_nil_iff {s s' : State} {lines : List String} :
    RunsAs l signs [] s s' lines ↔ s' = s ∧ lines = [] := by
  constructor
  · rintro ⟨⟩
    exact ⟨rfl, rfl⟩
  · rintro ⟨rfl, rfl⟩
    exact .nil _

theorem runsAs_cons_iff {ix : Instruction} {rest : List Instruction} {s s'' : State}
    {lines : List String} :
    RunsAs l signs (ix :: rest) s s'' lines ↔
      ∃ written s', (l.execute ix.program (ix.accounts.map fun r => ⟨r.key, signs r.key⟩)
          ix.data).run s = .ok (written, s') ∧
        ∃ more, RunsAs l signs rest s' s'' more ∧ lines = framed ix.program written ++ more := by
  constructor
  · rintro (_ | ⟨hx, hr⟩)
    exact ⟨_, _, hx, _, hr, rfl⟩
  · rintro ⟨written, s', hx, more, hr, rfl⟩
    exact .cons hx hr

theorem exists_runsAs_nil_iff {s s' : State} : (∃ lines, RunsAs l signs [] s s' lines) ↔ s' = s := by
  simp only [runsAs_nil_iff, exists_eq_right]

/-- Instructions run through exactly when the first does and the rest run on from where it left
the state. -/
theorem exists_runsAs_cons_iff {ix : Instruction} {rest : List Instruction} {s s'' : State} :
    (∃ lines, RunsAs l signs (ix :: rest) s s'' lines) ↔
      ∃ s', (∃ written, (l.execute ix.program (ix.accounts.map fun r => ⟨r.key, signs r.key⟩)
          ix.data).run s = .ok (written, s')) ∧ ∃ lines, RunsAs l signs rest s' s'' lines := by
  simp only [runsAs_cons_iff]
  constructor
  · rintro ⟨_, written, s', hx, more, hr, -⟩
    exact ⟨s', ⟨written, hx⟩, more, hr⟩
  · rintro ⟨s', ⟨written, hx⟩, more, hr⟩
    exact ⟨_, written, s', hx, more, hr, rfl⟩

/-- Runs of a message's instructions are runs of the instructions they read back as. -/
theorem runs_iff_runsAs {m : Message} (cs : List CompiledInstruction) (ixs : List Instruction)
    (hin : ∀ c ∈ cs, InRange m c) (h : cs.map (fun c => (programOf m c, accountsOf m c, c.data)) =
      ixs.map fun ix => (ix.program, ix.accounts.map fun r => ⟨r.key, signs r.key⟩, ix.data))
    {s s' : State} {lines : List String} :
    Runs l m cs s s' lines ↔ RunsAs l signs ixs s s' lines := by
  induction cs generalizing ixs s lines with
  | nil =>
    cases ixs with
    | nil => rw [runs_nil_iff, runsAs_nil_iff]
    | cons => simp at h
  | cons c cs ih =>
    cases ixs with
    | nil => simp at h
    | cons ix ixs =>
      simp only [List.map_cons, List.cons.injEq, Prod.mk.injEq] at h
      obtain ⟨⟨hp, ha, hd⟩, h⟩ := h
      rw [runs_cons_iff, runsAs_cons_iff, hp, ha, hd]
      -- the rest runs alike from every state
      simp only [hin c List.mem_cons_self, true_and,
        ih ixs (fun c' hc' => hin c' (List.mem_cons_of_mem c hc')) h]

/-- A compiled message runs as its instructions, each account signing exactly when it is the
payer or some instruction flags it. -/
theorem runs_compile_iff {payer : Address} {ixs : List Instruction} {s s' : State}
    {lines : List String} :
    Runs l (Message.compile payer ixs) (Message.compile payer ixs).instructions s s' lines ↔
      RunsAs l (Message.signsFor payer ixs) ixs s s' lines :=
  runs_iff_runsAs _ _ (fun _ hc => Message.inRange_compile hc) (Message.compile_readBack payer ixs)

end Ledger

end TokenBridge
