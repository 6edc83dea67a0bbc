import TokenBridge.Proofs.Interleaving
import TokenBridge.Proofs.CreationFlow
/-!
Every key that must sign is signed for, and no more.

Putting a transaction together names the keys that must sign: the payer, then each key that an
account reference flags as signer, in the order the references come, each once
(`requiredSigners_eq_eraseDups`). It refuses an empty instruction list (`assemble_eq_empty_iff`),
then names the first of those keys that no given signer has (`assemble_eq_missingSigner_iff`);
otherwise it keeps the first given signer of each required key, so that the kept keys are the
required ones, each once, in the order the signers were given (`keptSigners_keys`). The compiled
message counts the same keys as its signers (`keys_kept_perm_signerKeys`), so signing goes through
exactly when no kept signer gives an all-zero signature (`sign_ok_iff_kept`).
-/

namespace TokenBridge

/-! ### Appending what is not there yet -/

section AppendUnseen

variable {α β : Type} [BEq β] [LawfulBEq β] (p : α → Bool) (f : α → β)

/-- Dropping what `init` holds, then also `x`, is dropping what `init ++ [x]` holds. -/
theorem List.filter_removeAll (xs init : List β) (x : β) :
    (xs.removeAll init).filter (fun b => !b == x) = xs.removeAll (init ++ [x]) := by
  simp only [List.removeAll, List.filter_filter, List.elem_eq_mem, List.mem_append,
    List.mem_singleton]
  refine List.filter_congr fun b _ => ?_
  by_cases hb : b = x <;> simp [hb]

/-- A left fold that appends the image of each element `p` picks, unless the image is there
already, appends the images with their repeats and what `init` holds left out. -/
theorem List.foldl_appendUnseen (rs : List α) (init : List β) :
    rs.foldl (fun acc r => if p r && !acc.contains (f r) then acc ++ [f r] else acc) init =
      init ++ (((rs.filter p).map f).removeAll init).eraseDups := by
  induction rs generalizing init with
  | nil => simp
  | cons r rs ih =>
    rw [List.foldl_cons]
    by_cases hp : p r = true
    · by_cases hin : f r ∈ init
      · -- an image already there is skipped, and dropping what `init` holds drops it too
        rw [if_neg (by simp [hin]), ih, List.filter_cons_of_pos hp, List.map_cons]
        simp [List.removeAll, hin]
      · have hcons : (f r :: (rs.filter p).map f).removeAll init =
            f r :: ((rs.filter p).map f).removeAll init := by
          simp [List.removeAll, hin]
        rw [if_pos (by simp [hp, hin]), ih, List.filter_cons_of_pos hp, List.map_cons, hcons,
          List.eraseDups_cons, List.filter_removeAll, List.append_assoc, List.singleton_append]
    · rw [if_neg (by simp [hp]), ih, List.filter_cons_of_neg hp]

/-- The fold keeps its list free of repeats. -/
theorem List.nodup_foldl_appendUnseen (rs : List α) {init : List β} (h : init.Nodup) :
    (rs.foldl (fun acc r => if p r && !acc.contains (f r) then acc ++ [f r] else acc) init).Nodup := by
  induction rs generalizing init with
  | nil => exact h
  | cons r rs ih =>
    rw [List.foldl_cons]
    split
    · rename_i hr
      have hin : f r ∉ init := (by simpa using hr : _ ∧ _).2
      refine ih (List.nodup_append.2 ⟨h, List.nodup_singleton _, fun a ha b hb hab => hin ?_⟩)
      obtain rfl := List.mem_singleton.1 hb
      exact hab ▸ ha
    · exact ih h

theorem List.nodup_eraseDups (l : List β) : l.eraseDups.Nodup := by
  have h := List.nodup_foldl_appendUnseen (fun _ => true) id l List.nodup_nil
  rwa [List.foldl_appendUnseen, List.filter_true, List.map_id, List.removeAll_nil,
    List.nil_append] at h

end AppendUnseen

/-! ### The keys that must sign, and the signers kept -/

/-- The keys that must sign are the payer and the keys flagged as signer, in the order the
account references come, each once. -/
theorem requiredSigners_eq_eraseDups (payer : Address) (ixs : List Instruction) :
    requiredSigners payer ixs =
      (payer :: ((ixs.flatMap (·.accounts)).filter (·.signer)).map (·.key)).eraseDups := by
  rw [requiredSigners, List.foldl_appendUnseen AccountRef.signer AccountRef.key,
    List.eraseDups_cons, List.singleton_append]
  -- what is left differs only in how "not the payer" is spelled
  simp only [List.removeAll, List.elem_cons, List.elem_nil]
  congr 2
  refine List.filter_congr fun k _ => ?_
  cases k == payer <;> rfl

/-- Keeping signers, read through their keys, is the same fold over the keys. -/
theorem keys_keptSigners_foldl (required : List Address) :
    ∀ (ss kept : List Signer),
      (ss.foldl
        (fun (acc : List Signer × List Address) s =>
          if required.contains s.key && !acc.2.contains s.key then (acc.1 ++ [s], acc.2 ++ [s.key])
          else acc) (kept, kept.map Signer.key)).1.map Signer.key =
        ss.foldl (fun acc s => if required.contains s.key && !acc.contains s.key then acc ++ [s.key]
          else acc) (kept.map Signer.key)
  | [], _ => rfl
  | s :: ss, kept => by
    simp only [List.foldl_cons]
    by_cases hs : (required.contains s.key && !(kept.map Signer.key).contains s.key) = true
    · rw [if_pos hs, if_pos hs,
        show kept.map Signer.key ++ [s.key] = (kept ++ [s]).map Signer.key by simp]
      exact keys_keptSigners_foldl required ss (kept ++ [s])
    · rw [if_neg hs, if_neg hs]
      exact keys_keptSigners_foldl required ss kept

/-- The kept signers' keys are the required keys among the given signers' keys, each once, in the
order the signers come. -/
theorem keptSigners_keys (required : List Address) (signers : List Signer) :
    (keptSigners required signers).map Signer.key =
      ((signers.map Signer.key).filter (· ∈ required)).eraseDups := by
  have h := keys_keptSigners_foldl required signers []
  rw [List.map_nil, List.foldl_appendUnseen (fun s => required.contains s.key) Signer.key]
    at h
  rw [keptSigners, h, List.nil_append, List.removeAll_nil, List.filter_map]
  simp [Function.comp_def]

theorem keptSigners_keys_nodup (required : List Address) (signers : List Signer) :
    ((keptSigners required signers).map Signer.key).Nodup := by
  rw [keptSigners_keys]
  exact List.nodup_eraseDups _

theorem mem_keptSigners_keys {required : List Address} {signers : List Signer} {k : Address} :
    k ∈ (keptSigners required signers).map Signer.key ↔ k ∈ required ∧ ∃ s ∈ signers, s.key = k := by
  rw [keptSigners_keys, List.mem_eraseDups, List.mem_filter, List.mem_map, decide_eq_true_iff,
    and_comm]

/-- A kept signer is the first kept signer of its key: no other kept signer has that key. -/
theorem find?_keptSigners {required : List Address} {signers : List Signer} {s : Signer}
    (hs : s ∈ keptSigners required signers) :
    (keptSigners required signers).find? (·.key == s.key) = some s := by
  have hsome : ((keptSigners required signers).find? (·.key == s.key)).isSome :=
    List.find?_isSome.2 ⟨s, hs, by simp⟩
  obtain ⟨s', hs'⟩ := Option.isSome_iff_exists.1 hsome
  have hkey : s'.key = s.key := by simpa using List.find?_some hs'
  rw [hs', List.inj_on_of_nodup_map (keptSigners_keys_nodup required signers)
    (List.mem_of_find?_eq_some hs') hs hkey]

/-! ### Signing -/

namespace Assembled

/-- The message `a` signs under `blockhash`, as bytes. -/
def signedData (a : Assembled) (blockhash : Bytes) : Bytes :=
  ({ a.message with recentBlockhash := blockhash } : Message).serialize

/-- Signing fails only for want of signatures. -/
theorem sign_eq_error {a : Assembled} {bh : Bytes} {e : AssembleError} (h : a.sign bh = .error e) :
    e = .signing a.operation "not enough signers" := by
  unfold sign at h
  dsimp only at h
  split at h
  · cases h
    rfl
  · cases h

/-- Signing goes through exactly when each signing key of the message finds a signer whose
signature is not all zeros. -/
theorem sign_ok_iff (a : Assembled) (bh : Bytes) :
    (∃ t, a.sign bh = .ok t) ↔ ∀ k ∈ a.message.signerKeys,
      ∃ s, a.signers.find? (·.key == k) = some s ∧
        s.signMessage (a.signedData bh) ≠ List.replicate 64 0 := by
  unfold sign
  dsimp only
  split
  · -- some key's signature is all zeros: it has no signer, or its signer gives zeros
    rename_i hz
    obtain ⟨x, hx, hxz⟩ := List.any_eq_true.1 hz
    obtain ⟨k, hk, rfl⟩ := List.mem_map.1 hx
    simp only [reduceCtorEq, exists_false, false_iff, not_forall]
    refine ⟨k, hk, ?_⟩
    rintro ⟨s, hs, hne⟩
    simp only [hs] at hxz
    exact hne (beq_iff_eq.1 hxz)
  · -- a key with no signer would get zeros
    rename_i hz
    simp only [Except.ok.injEq, exists_eq', true_iff]
    intro k hk
    cases hf : a.signers.find? (·.key == k) with
    | none =>
      refine absurd (List.any_eq_true.2 ⟨_, List.mem_map.2 ⟨k, hk, rfl⟩, ?_⟩) hz
      simp only [hf, beq_self_eq_true]
    | some s =>
      refine ⟨s, rfl, fun h0 => hz (List.any_eq_true.2 ⟨_, List.mem_map.2 ⟨k, hk, rfl⟩, ?_⟩)⟩
      simp only [hf]
      exact beq_iff_eq.2 h0

end Assembled

/-! ### Putting a transaction together -/

section Assemble

variable {op : String} {payer : Address} {ixs : List Instruction} {signers : List Signer}

/-- `k` is the first of `required` that no signer signs for. -/
def FirstUnsigned (required : List Address) (signers : List Signer) (k : Address) : Prop :=
  ∃ pre post, required = pre ++ k :: post ∧ (∀ k' ∈ pre, ∃ s ∈ signers, s.key = k') ∧
    ∀ s ∈ signers, s.key ≠ k

theorem find?_unsigned_eq_some_iff {required : List Address} {k : Address} :
    required.find? (fun k => !signers.any (·.key == k)) = some k ↔
      FirstUnsigned required signers k := by
  rw [List.find?_eq_some_iff_append, FirstUnsigned]
  simp only [Bool.not_not, Bool.not_eq_true', List.any_eq_false, List.any_eq_true, beq_iff_eq]
  constructor
  · rintro ⟨hk, pre, post, rfl, hpre⟩
    exact ⟨pre, post, rfl, hpre, fun s hs => by simpa using hk s hs⟩
  · rintro ⟨pre, post, rfl, hpre, hk⟩
    exact ⟨fun s hs => by simpa using hk s hs, pre, post, rfl, hpre⟩

theorem assemble_eq_empty_iff : assemble op payer ixs signers = .error (.empty op) ↔ ixs = [] := by
  unfold assemble
  by_cases hixs : ixs = []
  · simp [hixs]
  · rw [if_neg (by simpa using hixs)]
    dsimp only
    split <;> simp [hixs]

theorem assemble_eq_missingSigner_iff {k : Address} :
    assemble op payer ixs signers = .error (.missingSigner op k) ↔
      ixs ≠ [] ∧ FirstUnsigned (requiredSigners payer ixs) signers k := by
  rw [← find?_unsigned_eq_some_iff]
  unfold assemble
  by_cases hixs : ixs = []
  · simp [hixs]
  · rw [if_neg (by simpa using hixs)]
    dsimp only
    split
    · rename_i h
      simp [h, hixs]
    · rename_i h
      simp [h]

/-- The transaction goes together exactly when there are instructions and every required key has a
signer; it is then the compiled message with the kept signers. -/
theorem assemble_eq_ok_iff {a : Assembled} :
    assemble op payer ixs signers = .ok a ↔
      ixs ≠ [] ∧ (∀ k ∈ requiredSigners payer ixs, ∃ s ∈ signers, s.key = k) ∧
        a = ⟨op, Message.compile payer ixs, keptSigners (requiredSigners payer ixs) signers⟩ := by
  unfold assemble
  by_cases hixs : ixs = []
  · simp [hixs]
  · rw [if_neg (by simpa using hixs)]
    dsimp only
    -- no required key lacks a signer exactly when the search for one finds nothing
    have hnone : (requiredSigners payer ixs).find? (fun k => !signers.any (·.key == k)) = none ↔
        ∀ k ∈ requiredSigners payer ixs, ∃ s ∈ signers, s.key = k := by
      simp [List.find?_eq_none]
    split
    · rename_i missing h
      simp only [reduceCtorEq, false_iff, not_and]
      intro _ hcover
      simp [hnone.2 hcover] at h
    · rename_i h
      rw [Except.ok.injEq]
      exact ⟨fun ha => ⟨hixs, hnone.1 h, ha.symm⟩, fun ha => ha.2.2.symm⟩

theorem signerKeys_compile_nodup (payer : Address) (ixs : List Instruction) :
    (Message.compile payer ixs).signerKeys.Nodup :=
  (Message.keys_nodup payer ixs).sublist (List.take_sublist _ _)

/-- The kept keys are the compiled message's signing keys, in another order, when every required
key has a signer. -/
theorem keys_kept_perm_signerKeys
    (hcover : ∀ k ∈ requiredSigners payer ixs, ∃ s ∈ signers, s.key = k) :
    ((keptSigners (requiredSigners payer ixs) signers).map Signer.key).Perm
      (Message.compile payer ixs).signerKeys := by
  refine (List.perm_ext_iff_of_nodup (keptSigners_keys_nodup _ _)
    (signerKeys_compile_nodup payer ixs)).2 fun k => ?_
  rw [mem_keptSigners_keys, Message.mem_signerKeys_compile, ← mem_requiredSigners]
  exact ⟨fun h => h.1, fun h => ⟨h, hcover k h⟩⟩

/-- What was put together signs exactly when no kept signer's signature is all zeros. -/
theorem sign_ok_iff_kept {a : Assembled} (ha : assemble op payer ixs signers = .ok a) (bh : Bytes) :
    (∃ t, a.sign bh = .ok t) ↔
      ∀ s ∈ a.signers, s.signMessage (a.signedData bh) ≠ List.replicate 64 0 := by
  obtain ⟨-, hcover, rfl⟩ := assemble_eq_ok_iff.1 ha
  rw [Assembled.sign_ok_iff]
  dsimp only
  constructor
  · -- each kept signer is the one its key finds
    intro h s hs
    have hk : s.key ∈ (Message.compile payer ixs).signerKeys :=
      (keys_kept_perm_signerKeys hcover).subset (List.mem_map_of_mem hs)
    obtain ⟨s', hf, hne⟩ := h s.key hk
    rw [find?_keptSigners hs, Option.some.injEq] at hf
    exact hf ▸ hne
  · intro h k hk
    obtain ⟨s, hs, rfl⟩ := List.mem_map.1 ((keys_kept_perm_signerKeys hcover).symm.subset hk)
    exact ⟨s, find?_keptSigners hs, h s hs⟩

end Assemble

/-! ### Flows that never stop short of a signer -/

/-- How a flow may stop on putting its transaction together or signing it, going from the ledger
`l` to `l'`: for a token approval that cannot be built, with the ledger untouched, or at signing,
after taking one blockhash and submitting nothing; never for a missing signer or an empty
transaction. -/
def AssemblyStop (l l' : Ledger) : AssembleError → Prop
  | .signing .. => l' = l.latestBlockhash.2
  | .approval .. => l' = l
  | .missingSigner .. => False
  | .empty .. => False

namespace Flow

variable {α β : Type}

/-- Every stop of the flow on putting together or signing is an `AssemblyStop`. -/
def SignerSafe (x : Flow α) : Prop :=
  ∀ l e l', x.run.run l = (.error (.failed (.assemble e)), l') → AssemblyStop l l' e

/-- The flow always goes through. -/
def NeverStops (x : Flow α) : Prop := ∀ l, ∃ a l', x.run.run l = (.ok a, l')

theorem NeverStops.pure (a : α) : NeverStops (pure a : Flow α) := fun l => ⟨a, l, rfl⟩

theorem SignerSafe.pure (a : α) : SignerSafe (pure a : Flow α) := by
  intro l e l' h
  cases h

theorem SignerSafe.get : SignerSafe (get : Flow Ledger) := by
  intro l e l' h
  cases h

theorem SignerSafe.throw {s : Stop} (h : ∀ e, s ≠ .failed (.assemble e)) :
    SignerSafe (throw s : Flow α) := by
  intro l e l' hs
  cases hs
  exact absurd rfl (h e)

theorem SignerSafe.approval (op reason : String) :
    SignerSafe (Client.failWith (.assemble (.approval op reason)) : Flow α) := by
  intro l e l' h
  cases h
  rfl

/-- A step that only reads, followed by any safe flow. -/
theorem SignerSafe.bind {x : Flow α} {f : α → Flow β} (hr : ReadsOnly x) (hx : SignerSafe x)
    (hf : ∀ a, SignerSafe (f a)) : SignerSafe (x >>= f) := by
  intro l e l' h
  rw [Flow.run_bind] at h
  rcases hrun : x.run.run l with ⟨r, l₁⟩
  have hl : l₁ = l := by simpa [hrun] using hr l
  subst hl
  rw [hrun] at h
  cases r with
  | ok a => exact hf a l₁ e l' h
  | error s =>
    obtain ⟨⟨⟩, rfl⟩ := Prod.mk.inj h
    exact hx _ e _ hrun

/-- A safe flow, followed by a flow that always goes through. -/
theorem SignerSafe.bind_neverStops {x : Flow α} {f : α → Flow β} (hx : SignerSafe x)
    (hf : ∀ a, NeverStops (f a)) : SignerSafe (x >>= f) := by
  intro l e l' h
  rw [Flow.run_bind] at h
  rcases hrun : x.run.run l with ⟨r, l₁⟩
  rw [hrun] at h
  cases r with
  | ok a =>
    obtain ⟨b, l₂, hb⟩ := hf a l₁
    dsimp only at h
    rw [hb] at h
    cases h
  | error s =>
    obtain ⟨⟨⟩, rfl⟩ := Prod.mk.inj h
    exact hx _ e _ hrun

end Flow

namespace Client

open TokenBridge.Flow

theorem fetch_signerSafe {α : Type} (op : String) (decode : Bytes → Except CodecError α)
    (key : Address) : SignerSafe (fetch op decode key) := by
  unfold fetch
  refine .bind .get .get fun l => ?_
  split
  · exact .throw fun _ => by simp
  · split
    · exact .pure _
    · exact .throw fun _ => by simp

theorem assembleOrStop_signerSafe {op : String} {payer : Address} {ixs : List Instruction}
    {signers : List Signer} (hixs : ixs ≠ [])
    (hcover : ∀ k ∈ requiredSigners payer ixs, ∃ s ∈ signers, s.key = k) :
    SignerSafe (assembleOrStop op payer ixs signers) := by
  unfold assembleOrStop
  rw [assemble_eq_ok_iff.2 ⟨hixs, hcover, rfl⟩]
  exact .pure _

/-- Submitting stops on signing only after taking a blockhash, and the ledger then has nothing
new but that blockhash. -/
theorem submit_signerSafe (a : Assembled) : SignerSafe (submit a) := by
  intro l e l' h
  rw [submit_run] at h
  cases hs : a.sign l.latestBlockhash.1 with
  | error e' =>
    rw [hs] at h
    cases h
    rw [Assembled.sign_eq_error hs]
    rfl
  | ok t =>
    rw [hs] at h
    dsimp only at h
    rcases hsc : l.latestBlockhash.2.sendAndConfirm t with ⟨v, l₁⟩
    rw [hsc] at h
    cases v with
    | committed sig => cases h
    | aborted => cases h
    | refused err =>
      -- a refusal is a rejection or a ledger error, never an assembly error
      dsimp only at h
      unfold ClientError.ofSubmission at h
      split at h <;> cases h

theorem receipt_neverStops (sig : Bytes) : NeverStops (receipt sig) :=
  fun l => ⟨_, _, receipt_run_eq sig l⟩

/-- Signers cover every required key when they cover the payer and every account an instruction
asks a signature of. -/
theorem covers_required {payer : Address} {ixs : List Instruction} {signers : List Signer}
    (hpayer : ∃ s ∈ signers, s.key = payer)
    (h : ∀ ix ∈ ixs, ∀ ref ∈ ix.accounts, ref.signer = true → ∃ s ∈ signers, s.key = ref.key) :
    ∀ k ∈ requiredSigners payer ixs, ∃ s ∈ signers, s.key = k :=
  fun k hk => cover_of_refs hpayer h k (mem_requiredSigners.1 hk)

/-- A flow that reads the ledger, builds one instruction from it that only `kp` signs, and submits
it signed by `kp`. -/
theorem single_signerSafe {op : String} {kp : Keypair} (build : Ledger → Instruction)
    (hsig : ∀ l, ∀ ref ∈ (build l).accounts, ref.signer = true → ref.key = kp.key) :
    SignerSafe (get >>= fun l => assembleOrStop op kp.key [build l] [.keypair kp] >>= submit) := by
  refine .bind .get .get fun l => .bind (assembleOrStop_readsOnly _ _ _ _)
    (assembleOrStop_signerSafe (List.cons_ne_nil _ _) ?_) submit_signerSafe
  refine covers_required ⟨_, List.mem_singleton_self _, rfl⟩ fun ix hix ref href hs => ?_
  rw [List.mem_singleton.1 hix] at href
  exact ⟨_, List.mem_singleton_self _, (hsig l ref href hs).symm⟩

theorem initializeConfig_signerSafe (payer : Keypair) (seed : String)
    (owner authority feeCollector : Address) (fee : UInt64) :
    SignerSafe (initializeConfig payer seed owner authority feeCollector fee) := by
  unfold initializeConfig
  refine .bind .get .get fun l => ?_
  dsimp only
  split
  · exact .throw fun _ => by simp
  · refine .bind (assembleOrStop_readsOnly _ _ _ _) (assembleOrStop_signerSafe (List.cons_ne_nil _ _)
      (covers_required ⟨_, List.mem_singleton_self _, rfl⟩ ?_))
      fun a => .bind_neverStops (submit_signerSafe a) fun _ => .pure _
    -- the payer funds the account and is its base; setting it up asks no signature
    simp [Builder.createAccountWithSeed, Builder.initializeConfig, Builder.bridgeInstruction,
      AccountRef.mutable, AccountRef.readonly, Signer.key]

theorem createRoute_signerSafe (payer route owner : Keypair) (p : RouteParams) :
    SignerSafe (createRoute payer route owner p) := by
  unfold createRoute
  refine .bind .get .get fun l => ?_
  dsimp only
  -- a failed search for the token authority stops the flow before anything is assembled
  split
  · exact .throw fun _ => by simp
  · refine .bind (assembleOrStop_readsOnly _ _ _ _) (assembleOrStop_signerSafe (List.cons_ne_nil _ _)
      (covers_required ⟨_, List.mem_cons_self, rfl⟩ ?_)) submit_signerSafe
    -- the payer funds the account, the route's key pair makes it, and the owner opens the route
    simp [Builder.createAccount, Builder.create, Builder.bridgeInstruction, AccountRef.mutable,
      AccountRef.readonly, Signer.key]

theorem settle_signerSafe (authority : Keypair) (r : SettleRequest) :
    SignerSafe (settle authority r) := by
  unfold settle
  refine .bind .get .get fun l => ?_
  dsimp only
  split
  · exact .throw fun _ => by simp
  · refine .bind (assembleOrStop_readsOnly _ _ _ _) (assembleOrStop_signerSafe (List.cons_ne_nil _ _)
      (covers_required ⟨_, List.mem_singleton_self _, rfl⟩ ?_)) submit_signerSafe
    simp [Builder.settle, Builder.bridgeInstruction, AccountRef.mutable, AccountRef.readonly,
      Signer.key]

theorem bridge_signerSafe (approve : Bool) (payer authority : Keypair) (r : BridgeRequest) :
    SignerSafe (bridge approve payer authority r) := by
  unfold bridge
  refine .bind .get .get fun l => .bind (fetch_readsOnly _ _ _) (fetch_signerSafe _ _ _)
    fun config => ?_
  -- every instruction the flow may build asks signatures only of the payer and the authority
  have tail : ∀ ixs : List Instruction, ixs ≠ [] →
      (∀ ix ∈ ixs, ∀ ref ∈ ix.accounts, ref.signer = true →
        ref.key = payer.key ∨ ref.key = authority.key) →
      SignerSafe (assembleOrStop (if approve then "approve_and_bridge" else "bridge") payer.key ixs
        [.keypair payer, .keypair authority] >>= fun a => submit a >>= receipt) := by
    intro ixs hixs hsig
    refine .bind (assembleOrStop_readsOnly _ _ _ _) (assembleOrStop_signerSafe hixs
      fun k hk => cover_of_signers ixs hsig k (mem_requiredSigners.1 hk))
      fun a => .bind_neverStops (submit_signerSafe a) receipt_neverStops
  have hout : ∀ ref ∈ (Builder.bridge l.program ⟨r.route, r.escrow, r.user, authority.key, r.mint,
      r.tokenProgram, r.config, if config.fee > 0 then some ⟨payer.key, config.feeCollector⟩
        else none⟩ r.amount r.recipient r.payload).accounts, ref.signer = true →
      ref.key = payer.key ∨ ref.key = authority.key := by
    intro ref href hs
    rcases signer_of_bridge href hs with h | ⟨f, hf, h⟩
    · exact .inr h
    · split at hf
      · cases hf
        exact .inl h
      · cases hf
  dsimp only
  cases approve
  · simp only [Bool.false_eq_true, if_false, pure_bind]
    exact tail _ (List.cons_ne_nil _ _) fun ix hix => by
      rw [List.mem_singleton.1 hix]
      exact hout
  · simp only [if_true]
    cases happ : Builder.approve r.tokenProgram r.user authority.key payer.key r.amount with
    | error reason =>
      simp only [failWith, ExceptT.bind_throw]
      exact SignerSafe.approval _ _
    | ok ix =>
      simp only [pure_bind]
      refine tail _ (List.cons_ne_nil _ _) fun ix' hix' => ?_
      rcases List.mem_cons.1 hix' with rfl | hix'
      · -- the approval is signed by its owner, the payer
        intro ref href hs
        obtain ⟨-, rfl⟩ := approve_eq_ok happ
        simp only [AccountRef.mutable, AccountRef.readonly, List.mem_cons, List.not_mem_nil,
          or_false] at href
        rcases href with rfl | rfl | rfl
        · cases hs
        · cases hs
        · exact .inl rfl
      · rw [List.mem_singleton.1 hix']
        exact hout

/-- A call of the client: one of its flows, with what it is given. -/
inductive Call : Type → Type where
  | initializeConfig (payer : Keypair) (seed : String) (owner authority feeCollector : Address)
      (fee : UInt64) : Call (Address × Bytes)
  | transferOwner (config : Address) (owner : Keypair) (newOwner : Address) : Call Bytes
  | changeAuthority (config : Address) (owner : Keypair) (newAuthority : Address) : Call Bytes
  | changeFee (config : Address) (owner : Keypair) (fee : UInt64) (feeCollector : Address) :
      Call Bytes
  | createRoute (payer route owner : Keypair) (p : RouteParams) : Call Bytes
  | changeLimit (config route : Address) (owner : Keypair) (max min : UInt64) : Call Bytes
  | bridge (approve : Bool) (payer transferAuthority : Keypair) (r : BridgeRequest) : Call Receipt
  | settle (authority : Keypair) (r : SettleRequest) : Call Bytes
  | fetchConfig (key : Address) : Call Config
  | fetchRoute (key : Address) : Call Route

/-- The flow a call runs. -/
def Call.run : {α : Type} → Call α → Flow α
  | _, .initializeConfig payer seed owner authority feeCollector fee =>
    Client.initializeConfig payer seed owner authority feeCollector fee
  | _, .transferOwner config owner newOwner => Client.transferOwner config owner newOwner
  | _, .changeAuthority config owner newAuthority =>
    Client.changeAuthority config owner newAuthority
  | _, .changeFee config owner fee feeCollector => Client.changeFee config owner fee feeCollector
  | _, .createRoute payer route owner p => Client.createRoute payer route owner p
  | _, .changeLimit config route owner max min => Client.changeLimit config route owner max min
  | _, .bridge approve payer transferAuthority r =>
    Client.bridge approve payer transferAuthority r
  | _, .settle authority r => Client.settle authority r
  | _, .fetchConfig key => Client.fetchConfig key
  | _, .fetchRoute key => Client.fetchRoute key

/-- No call stops for a missing signer or an empty transaction, and one that stops at signing
has submitted nothing. -/
theorem Call.signerSafe : ∀ {α : Type} (c : Call α), SignerSafe c.run
  | _, .initializeConfig payer seed owner authority feeCollector fee =>
    initializeConfig_signerSafe payer seed owner authority feeCollector fee
  | _, .transferOwner config owner newOwner => by
    unfold Call.run Client.transferOwner
    refine single_signerSafe _ fun _ => ?_
    simp [Builder.transferOwner, Builder.bridgeInstruction, AccountRef.mutable, AccountRef.readonly]
  | _, .changeAuthority config owner newAuthority => by
    unfold Call.run Client.changeAuthority
    refine single_signerSafe _ fun _ => ?_
    simp [Builder.changeAuthority, Builder.bridgeInstruction, AccountRef.mutable,
      AccountRef.readonly]
  | _, .changeFee config owner fee feeCollector => by
    unfold Call.run Client.changeFee
    refine single_signerSafe _ fun _ => ?_
    simp only [Builder.changeFee, Builder.bridgeInstruction, AccountRef.mutable, AccountRef.readonly]
    -- the fee collector, named for a fee above zero, does not sign
    split <;> simp
  | _, .createRoute payer route owner p => createRoute_signerSafe payer route owner p
  | _, .changeLimit config route owner max min => by
    unfold Call.run Client.changeLimit
    refine single_signerSafe _ fun _ => ?_
    simp [Builder.changeLimit, Builder.bridgeInstruction, AccountRef.mutable, AccountRef.readonly]
  | _, .bridge approve payer transferAuthority r => bridge_signerSafe approve payer transferAuthority r
  | _, .settle authority r => settle_signerSafe authority r
  | _, .fetchConfig key => fetch_signerSafe _ _ key
  | _, .fetchRoute key => fetch_signerSafe _ _ key

end Client

/-! ### Signer completeness -/

/-- Putting a transaction together asks a signature of the payer and of each key flagged as
signer, each once; it refuses an empty instruction list, then names the first required key with no
signer, and otherwise keeps exactly one given signer per required key, the first, in the order
given. Those keys are the compiled message's signing keys, so signing goes through exactly when no
kept signer's signature is all zeros. Hence no client flow stops for a missing signer or an empty
transaction, and one that stops at signing has submitted nothing. -/
theorem assembly_signer_completeness :
    (∀ (op : String) (payer : Address) (ixs : List Instruction) (signers : List Signer),
      requiredSigners payer ixs =
          (payer :: ((ixs.flatMap (·.accounts)).filter (·.signer)).map (·.key)).eraseDups ∧
        (assemble op payer ixs signers = .error (.empty op) ↔ ixs = []) ∧
        (∀ k, assemble op payer ixs signers = .error (.missingSigner op k) ↔
          ixs ≠ [] ∧ FirstUnsigned (requiredSigners payer ixs) signers k) ∧
        (ixs ≠ [] → (∀ k ∈ requiredSigners payer ixs, ∃ s ∈ signers, s.key = k) →
          ∃ a, assemble op payer ixs signers = .ok a) ∧
        ∀ a, assemble op payer ixs signers = .ok a →
          a.message = Message.compile payer ixs ∧
          a.signerKeys = ((signers.map Signer.key).filter (· ∈ requiredSigners payer ixs)).eraseDups ∧
          a.signerKeys.Nodup ∧
          (∀ k, k ∈ a.signerKeys ↔ k ∈ requiredSigners payer ixs) ∧
          a.signerKeys.Perm a.message.signerKeys ∧
          ∀ bh, (∃ t, a.sign bh = .ok t) ↔
            ∀ s ∈ a.signers, s.signMessage (a.signedData bh) ≠ List.replicate 64 0) ∧
      ∀ {α : Type} (c : Client.Call α) (l l' : Ledger) (e : AssembleError),
        c.run.run.run l = (.error (.failed (.assemble e)), l') → AssemblyStop l l' e := by
  refine ⟨fun op payer ixs signers => ⟨requiredSigners_eq_eraseDups payer ixs,
    assemble_eq_empty_iff, fun _ => assemble_eq_missingSigner_iff,
    fun hixs hcover => ⟨_, assemble_eq_ok_iff.2 ⟨hixs, hcover, rfl⟩⟩, fun a ha => ?_⟩,
    fun c l l' e h => Client.Call.signerSafe c l e l' h⟩
  obtain ⟨-, hcover, rfl⟩ := assemble_eq_ok_iff.1 ha
  refine ⟨rfl, keptSigners_keys _ _, keptSigners_keys_nodup _ _, fun k => ?_,
    keys_kept_perm_signerKeys hcover, sign_ok_iff_kept ha⟩
  rw [Assembled.signerKeys, mem_keptSigners_keys]
  exact ⟨fun h => h.1, fun h => ⟨h, hcover k h⟩⟩

/-- The owner given twice and a stranger once: the transaction keeps the owner once. -/
theorem unneeded_signers_dropped :
    ∃ a, assemble "change_authority" (Address.ofBytes [1])
        [Builder.changeAuthority Address.zero (Address.ofBytes [3]) (Address.ofBytes [1])
          (Address.ofBytes [4])]
        [.keyOnly (Address.ofBytes [1]), .keyOnly (Address.ofBytes [2]),
          .keyOnly (Address.ofBytes [1])] = .ok a ∧
      a.signerKeys = [Address.ofBytes [1]] := by
  obtain ⟨hreq, -, -, hok, hkept⟩ := assembly_signer_completeness.1 "change_authority"
    (Address.ofBytes [1])
    [Builder.changeAuthority Address.zero (Address.ofBytes [3]) (Address.ofBytes [1])
      (Address.ofBytes [4])]
    [.keyOnly (Address.ofBytes [1]), .keyOnly (Address.ofBytes [2]), .keyOnly (Address.ofBytes [1])]
  obtain ⟨a, ha⟩ := hok (List.cons_ne_nil _ _) (by rw [hreq]; decide)
  exact ⟨a, ha, by rw [(hkept a ha).2.1, hreq]; decide⟩

end TokenBridge
