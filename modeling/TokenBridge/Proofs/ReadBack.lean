import TokenBridge.Client.Error
import TokenBridge.Proofs.Commit
/-!
A compiled message gives back the instructions it was compiled from.

Compiling merges the uses of every key, joining their permissions, and lists each key once
(`keys_nodup`): the payer first, then the other keys in four groups, each a sorted copy of the
keys whose joined permissions put them there (`keys_perm`). The position of a key therefore reads
back that key, and reading a compiled instruction back as the ledger does gives its program, its
accounts in order with duplicates kept, and its data (`compile_readBack`). A key signs when its
position falls within the header's count of signers, which holds exactly of the payer and of the
keys that some instruction flags as signer (`signsFor`). A rejection of the instruction at position
`k` of a submitted transaction is so put down to the program of the `k`-th instruction the client
built (`compiled_message_reads_back`).
-/

namespace TokenBridge

namespace Message

/-! ### Joining the uses of keys -/

/-- Some use of `k` in `uses` signs. -/
def Signs (uses : List KeyUse) (k : Address) : Prop := ∃ u ∈ uses, u.key = k ∧ u.signer = true

section NoteUse

variable {uses : List KeyUse} {key k : Address} {signer writable : Bool}

theorem keys_noteUse :
    (noteUse uses key signer writable).map (·.key) =
      if key ∈ uses.map (·.key) then uses.map (·.key) else uses.map (·.key) ++ [key] := by
  unfold noteUse
  by_cases hk : key ∈ uses.map (·.key)
  · have hany : uses.any (·.key == key) = true := by simpa using hk
    rw [if_pos hany, if_pos hk, List.map_map]
    -- a merged use keeps its key
    refine List.map_congr_left fun u _ => ?_
    by_cases hu : u.key = key <;> simp [hu]
  · have hany : uses.any (·.key == key) = false := by simpa using hk
    simp [hany, hk]

theorem mem_keys_noteUse :
    k ∈ (noteUse uses key signer writable).map (·.key) ↔ k ∈ uses.map (·.key) ∨ k = key := by
  rw [keys_noteUse]
  split <;> grind

theorem nodup_keys_noteUse (h : (uses.map (·.key)).Nodup) :
    ((noteUse uses key signer writable).map (·.key)).Nodup := by
  rw [keys_noteUse]
  split
  · exact h
  · rename_i hk
    refine List.nodup_append.2 ⟨h, by simp, ?_⟩
    rintro a ha b hb rfl
    rw [List.mem_singleton] at hb
    exact hk (hb ▸ ha)

theorem signs_noteUse :
    Signs (noteUse uses key signer writable) k ↔ Signs uses k ∨ (k = key ∧ signer = true) := by
  unfold noteUse Signs
  split
  · rename_i hany
    obtain ⟨v, hv, hvk⟩ := List.any_eq_true.1 hany
    simp only [List.mem_map]
    constructor
    · rintro ⟨_, ⟨u, hu, rfl⟩, hk, hs⟩
      by_cases huk : u.key = key
      · simp only [huk, beq_self_eq_true, if_true, Bool.or_eq_true] at hk hs
        rcases hs with hs | hs
        · exact .inl ⟨u, hu, huk.trans hk, hs⟩
        · exact .inr ⟨hk.symm, hs⟩
      · simp only [beq_iff_eq, huk, if_false] at hk hs
        exact .inl ⟨u, hu, hk, hs⟩
    · rintro (⟨u, hu, rfl, hs⟩ | ⟨rfl, hs⟩)
      · refine ⟨_, ⟨u, hu, rfl⟩, ?_⟩
        by_cases huk : u.key = key <;> simp [huk, hs]
      · refine ⟨_, ⟨v, hv, rfl⟩, ?_⟩
        simp at hvk
        simp [hvk, hs]
  · simp only [List.mem_append, List.mem_singleton]
    constructor
    · rintro ⟨u, hu | rfl, hk, hs⟩
      · exact .inl ⟨u, hu, hk, hs⟩
      · exact .inr ⟨hk.symm, hs⟩
    · rintro (⟨u, hu, hk, hs⟩ | ⟨rfl, hs⟩)
      · exact ⟨u, .inl hu, hk, hs⟩
      · exact ⟨_, .inr rfl, rfl, hs⟩

end NoteUse

section KeyUses

variable {k : Address}

/-- The accounts of an instruction joined into the uses, in order. -/
theorem foldl_noteUse_accounts (rs : List AccountRef) (uses : List KeyUse) :
    let uses' := rs.foldl (fun uses r => noteUse uses r.key r.signer r.writable) uses
    ((uses.map (·.key)).Nodup → (uses'.map (·.key)).Nodup) ∧
      (k ∈ uses'.map (·.key) ↔ k ∈ uses.map (·.key) ∨ ∃ r ∈ rs, r.key = k) ∧
      (Signs uses' k ↔ Signs uses k ∨ ∃ r ∈ rs, r.key = k ∧ r.signer = true) := by
  induction rs generalizing uses with
  | nil => simp
  | cons r rs ih =>
    obtain ⟨hnd, hmem, hsig⟩ := ih (noteUse uses r.key r.signer r.writable)
    refine ⟨fun h => hnd (nodup_keys_noteUse h), ?_, ?_⟩
    · rw [List.foldl_cons, hmem, mem_keys_noteUse]
      grind
    · rw [List.foldl_cons, hsig, signs_noteUse]
      grind

/-- Every instruction joined into the uses: its program, which neither signs nor is written,
then its accounts. -/
theorem foldl_noteUse_instructions (ixs : List Instruction) (uses : List KeyUse) :
    let uses' := ixs.foldl (fun uses ix =>
      ix.accounts.foldl (fun uses r => noteUse uses r.key r.signer r.writable)
        (noteUse uses ix.program false false)) uses
    ((uses.map (·.key)).Nodup → (uses'.map (·.key)).Nodup) ∧
      (k ∈ uses'.map (·.key) ↔
        k ∈ uses.map (·.key) ∨ ∃ ix ∈ ixs, ix.program = k ∨ ∃ r ∈ ix.accounts, r.key = k) ∧
      (Signs uses' k ↔
        Signs uses k ∨ ∃ ix ∈ ixs, ∃ r ∈ ix.accounts, r.key = k ∧ r.signer = true) := by
  induction ixs generalizing uses with
  | nil => simp
  | cons ix ixs ih =>
    obtain ⟨hnd, hmem, hsig⟩ := ih (ix.accounts.foldl
      (fun uses r => noteUse uses r.key r.signer r.writable) (noteUse uses ix.program false false))
    obtain ⟨hnd₁, hmem₁, hsig₁⟩ := foldl_noteUse_accounts (k := k) ix.accounts
      (noteUse uses ix.program false false)
    refine ⟨fun h => hnd (hnd₁ (nodup_keys_noteUse h)), ?_, ?_⟩
    · rw [List.foldl_cons, hmem, hmem₁, mem_keys_noteUse]
      grind
    · rw [List.foldl_cons, hsig, hsig₁, signs_noteUse]
      grind

theorem nodup_keys_keyUses (ixs : List Instruction) : ((keyUses ixs).map (·.key)).Nodup :=
  (foldl_noteUse_instructions (k := Address.zero) ixs []).1 List.nodup_nil

theorem mem_keys_keyUses {ixs : List Instruction} :
    k ∈ (keyUses ixs).map (·.key) ↔ ∃ ix ∈ ixs, ix.program = k ∨ ∃ r ∈ ix.accounts, r.key = k := by
  unfold keyUses
  simpa using (foldl_noteUse_instructions (k := k) ixs []).2.1

theorem signs_keyUses {ixs : List Instruction} :
    Signs (keyUses ixs) k ↔ ∃ ix ∈ ixs, ∃ r ∈ ix.accounts, r.key = k ∧ r.signer = true := by
  unfold keyUses
  simpa [Signs] using (foldl_noteUse_instructions (k := k) ixs []).2.2

end KeyUses

/-! ### The key list -/

theorem insertSorted_perm (a : Address) (l : List Address) : (insertSorted a l).Perm (a :: l) := by
  induction l with
  | nil => rfl
  | cons b rest ih =>
    unfold insertSorted
    split
    · rfl
    · exact (ih.cons b).trans (List.Perm.swap a b rest)

theorem sortKeys_perm (l : List Address) : (sortKeys l).Perm l := by
  induction l with
  | nil => rfl
  | cons a l ih => exact (insertSorted_perm a (sortKeys l)).trans (ih.cons a)

/-- Each use has one pair of permissions, so the four filters by permissions share out a list. -/
theorem filters_perm (l : List KeyUse) :
    (l.filter (fun u => u.signer && u.writable) ++ (l.filter (fun u => u.signer && !u.writable) ++
      (l.filter (fun u => !u.signer && u.writable) ++
        l.filter (fun u => !u.signer && !u.writable)))).Perm l := by
  induction l with
  | nil => rfl
  | cons u l ih =>
    -- `u` goes to exactly one of the four filters; move it to the front
    cases hs : u.signer <;> cases hw : u.writable <;> simp only [List.filter_cons, hs, hw,
      Bool.and_true, Bool.and_false, Bool.not_true, Bool.not_false, if_true, if_false,
      Bool.false_eq_true, List.cons_append, ← List.append_assoc]
    · exact List.perm_middle.trans (by simpa only [List.append_assoc] using ih.cons u)
    · exact List.perm_middle.trans (by simpa only [List.append_assoc] using ih.cons u)
    · exact List.perm_middle.trans (by simpa only [List.append_assoc] using ih.cons u)
    · simpa only [List.append_assoc] using ih.cons u

/-- The four groups together hold each use once. -/
theorem groups_perm (uses : List KeyUse) :
    (group uses true true ++ group uses true false ++ group uses false true ++
      group uses false false).Perm (uses.map (·.key)) := by
  unfold group
  refine ((((sortKeys_perm _).append (sortKeys_perm _)).append (sortKeys_perm _)).append
    (sortKeys_perm _)).trans ?_
  simp only [← List.map_append, List.append_assoc]
  have h := (filters_perm uses).map (·.key)
  simpa using h

variable {payer k : Address} {ixs : List Instruction}

/-- The uses of every key but the payer's. -/
def othersOf (payer : Address) (ixs : List Instruction) : List KeyUse :=
  (keyUses ixs).filter (·.key != payer)

/-- The signing keys come first: the payer, then the two groups of signers. -/
theorem keys_compile (payer : Address) (ixs : List Instruction) :
    (compile payer ixs).keys =
      (payer :: group (othersOf payer ixs) true true ++ group (othersOf payer ixs) true false) ++
        (group (othersOf payer ixs) false true ++ group (othersOf payer ixs) false false) := by
  simp [compile, othersOf]

theorem requiredSignatures_compile (payer : Address) (ixs : List Instruction) :
    (compile payer ixs).header.requiredSignatures =
      (payer :: group (othersOf payer ixs) true true ++
        group (othersOf payer ixs) true false).length := by
  simp only [compile, othersOf, List.length_append, List.length_cons]

theorem keys_perm (payer : Address) (ixs : List Instruction) :
    (compile payer ixs).keys.Perm (payer :: (othersOf payer ixs).map (·.key)) := by
  rw [keys_compile]
  have h := groups_perm (othersOf payer ixs)
  simp only [List.append_assoc] at h ⊢
  exact h.cons payer

theorem keys_nodup (payer : Address) (ixs : List Instruction) : (compile payer ixs).keys.Nodup := by
  refine (keys_perm payer ixs).nodup_iff.2 (List.nodup_cons.2 ⟨?_, ?_⟩)
  · simp [othersOf]
  · exact (nodup_keys_keyUses ixs).sublist ((List.filter_sublist).map _)

theorem mem_keys_compile :
    k ∈ (compile payer ixs).keys ↔
      k = payer ∨ ∃ ix ∈ ixs, ix.program = k ∨ ∃ r ∈ ix.accounts, r.key = k := by
  rw [(keys_perm payer ixs).mem_iff, List.mem_cons]
  by_cases hk : k = payer
  · simp [hk]
  · have hmem : k ∈ (keyUses ixs).map (·.key) ↔ _ := mem_keys_keyUses
    simp only [List.mem_map] at hmem
    simp only [othersOf, List.mem_map, List.mem_filter, bne_iff_ne, ne_eq, hk, false_or, ← hmem]
    -- a use of `k` is not the payer's
    exact ⟨fun ⟨a, ⟨ha, _⟩, hak⟩ => ⟨a, ha, hak⟩, fun ⟨a, ha, hak⟩ => ⟨a, ⟨ha, hak ▸ hk⟩, hak⟩⟩

/-! ### Reading keys back -/

/-- Whether `k` signs a transaction of `ixs` paid by `payer`: the payer does, and so does every key
that some instruction flags as signer. -/
def signsFor (payer : Address) (ixs : List Instruction) (k : Address) : Bool :=
  k == payer || ixs.any fun ix => ix.accounts.any fun r => r.key == k && r.signer

theorem signsFor_eq_true :
    signsFor payer ixs k = true ↔
      k = payer ∨ ∃ ix ∈ ixs, ∃ r ∈ ix.accounts, r.key = k ∧ r.signer = true := by
  simp [signsFor]

/-- The keys before the header's count of signers are the payer and the keys that sign. -/
theorem mem_signing_keys :
    k ∈ payer :: group (othersOf payer ixs) true true ++ group (othersOf payer ixs) true false ↔
      signsFor payer ixs k = true := by
  rw [signsFor_eq_true, ← signs_keyUses]
  simp only [List.cons_append, List.mem_cons, List.mem_append, group,
    (sortKeys_perm _).mem_iff, List.mem_map, List.mem_filter, othersOf, bne_iff_ne, ne_eq]
  by_cases hk : k = payer
  · simp [hk]
  · simp only [hk, false_or, Signs]
    constructor
    · rintro (⟨u, ⟨⟨hu, _⟩, hp⟩, rfl⟩ | ⟨u, ⟨⟨hu, _⟩, hp⟩, rfl⟩)
      · exact ⟨u, hu, rfl, (by simpa using hp : _ ∧ _).1⟩
      · exact ⟨u, hu, rfl, (by simpa using hp : _ ∧ _).1⟩
    · rintro ⟨u, hu, rfl, hs⟩
      cases hw : u.writable
      · exact .inr ⟨u, ⟨⟨hu, hk⟩, by simp [hs, hw]⟩, rfl⟩
      · exact .inl ⟨u, ⟨⟨hu, hk⟩, by simp [hs, hw]⟩, rfl⟩

/-- A key signs exactly when its position falls within the header's count of signers; a key the
message does not hold has no such position. -/
theorem isSigner_position (payer : Address) (ixs : List Instruction) (k : Address) :
    (compile payer ixs).isSigner (position (compile payer ixs).keys k) = signsFor payer ixs k := by
  have hpre : k ∈ payer :: group (othersOf payer ixs) true true ++
      group (othersOf payer ixs) true false ↔ signsFor payer ixs k = true := mem_signing_keys
  unfold isSigner position
  rw [requiredSignatures_compile, keys_compile, List.idxOf_append]
  split
  · rename_i hk
    rw [hpre.1 hk]
    exact decide_eq_true (List.idxOf_lt_length_of_mem hk)
  · rename_i hk
    have hf : signsFor payer ixs k = false := by simpa using mt hpre.2 hk
    rw [hf]
    exact decide_eq_false (Nat.not_lt.2 (Nat.le_add_left _ _))

theorem getD_position {keys : List Address} (hk : k ∈ keys) :
    keys.getD (position keys k) Address.zero = k := by
  unfold position
  rw [List.getD_eq_getElem?_getD, List.getElem?_eq_getElem (List.idxOf_lt_length_of_mem hk)]
  simp

theorem instructions_compile (payer : Address) (ixs : List Instruction) :
    (compile payer ixs).instructions = ixs.map fun ix =>
      ⟨position (compile payer ixs).keys ix.program,
        ix.accounts.map (position (compile payer ixs).keys ·.key), ix.data⟩ := rfl

/-- Reading a compiled instruction back, as the ledger does, gives the instruction's program, its
accounts in order with whether each signs, and its data. -/
theorem compile_readBack (payer : Address) (ixs : List Instruction) :
    (compile payer ixs).instructions.map (fun c =>
        (Ledger.programOf (compile payer ixs) c, Ledger.accountsOf (compile payer ixs) c, c.data)) =
      ixs.map fun ix =>
        (ix.program, ix.accounts.map fun r => ⟨r.key, signsFor payer ixs r.key⟩, ix.data) := by
  rw [instructions_compile, List.map_map]
  refine List.map_congr_left fun ix hix => ?_
  have hprog : ix.program ∈ (compile payer ixs).keys :=
    mem_keys_compile.2 (.inr ⟨ix, hix, .inl rfl⟩)
  simp only [Function.comp, Ledger.programOf, Ledger.accountsOf, List.map_map, getD_position hprog,
    Prod.mk.injEq, true_and, and_true]
  refine List.map_congr_left fun r hr => ?_
  have hkey : r.key ∈ (compile payer ixs).keys :=
    mem_keys_compile.2 (.inr ⟨ix, hix, .inr ⟨r, hr, rfl⟩⟩)
  simp only [Function.comp_apply, getD_position hkey, isSigner_position]

/-- Every position a compiled instruction names is a key of its message, so the ledger reads each
one without stopping. -/
theorem inRange_compile {c : CompiledInstruction} (hc : c ∈ (compile payer ixs).instructions) :
    Ledger.InRange (compile payer ixs) c := by
  rw [instructions_compile, List.mem_map] at hc
  obtain ⟨ix, hix, rfl⟩ := hc
  refine ⟨List.idxOf_lt_length_of_mem (mem_keys_compile.2 (.inr ⟨ix, hix, .inl rfl⟩)),
    fun k hk => ?_⟩
  obtain ⟨r, hr, rfl⟩ := List.mem_map.1 hk
  exact List.idxOf_lt_length_of_mem (mem_keys_compile.2 (.inr ⟨ix, hix, .inr ⟨r, hr, rfl⟩⟩))

/-- Every key of the message signs exactly when `signsFor` says so. -/
theorem isSigner_compile (payer : Address) (ixs : List Instruction) {i : Nat}
    (hi : i < (compile payer ixs).keys.length) :
    (compile payer ixs).isSigner i = signsFor payer ixs (compile payer ixs).keys[i] := by
  have hpos : position (compile payer ixs).keys (compile payer ixs).keys[i] = i :=
    (keys_nodup payer ixs).idxOf_getElem i hi
  rw [← isSigner_position, hpos]

theorem signers_compile (payer : Address) (ixs : List Instruction) :
    (List.range (compile payer ixs).keys.length).map (compile payer ixs).isSigner =
      (compile payer ixs).keys.map (signsFor payer ixs) := by
  refine List.ext_getElem (by simp) fun i h _ => ?_
  have hi : i < (compile payer ixs).keys.length := by simpa using h
  simp [isSigner_compile payer ixs hi]

/-- The program of the instruction at position `i` is the program of the `i`-th instruction
compiled, and there is none past the last. -/
theorem programAt?_compile (payer : Address) (ixs : List Instruction) (i : Nat) :
    (compile payer ixs).programAt? i = ixs[i]?.map (·.program) := by
  by_cases hi : i < ixs.length
  case neg =>
    have hnone : ixs[i]? = none := List.getElem?_eq_none (by omega)
    simp [programAt?, instructions_compile, hnone]
  case pos =>
    have hprog : ixs[i].program ∈ (compile payer ixs).keys :=
      mem_keys_compile.2 (.inr ⟨ixs[i], List.getElem_mem hi, .inl rfl⟩)
    have hpos := List.idxOf_lt_length_of_mem hprog
    simp only [programAt?, instructions_compile, List.getElem?_map, List.getElem?_eq_getElem hi,
      Option.map_some]
    change (compile payer ixs).keys[position (compile payer ixs).keys ixs[i].program]? = _
    rw [position, List.getElem?_eq_getElem hpos, List.getElem_idxOf hpos]

end Message

/-! ### The submitted transaction -/

section Submitted

variable {op : String} {payer : Address} {ixs : List Instruction} {signers : List Signer}
  {a : Assembled} {blockhash : Bytes} {t : Transaction}

theorem assemble_eq_ok (h : assemble op payer ixs signers = .ok a) :
    a = ⟨op, Message.compile payer ixs, keptSigners (requiredSigners payer ixs) signers⟩ := by
  unfold assemble at h
  split at h
  · exact absurd h (by simp)
  · dsimp only at h
    split at h
    · exact absurd h (by simp)
    · exact (Except.ok.inj h).symm

theorem sign_eq_ok (h : a.sign blockhash = .ok t) :
    t.message = { a.message with recentBlockhash := blockhash } := by
  dsimp only [Assembled.sign] at h
  split at h
  · exact absurd h (by simp)
  · rw [← Except.ok.inj h]

/-- A transaction as made with a payer and then signed: its message is compiled from instructions
with the payer first, under some blockhash, and it carries one signature for each key that must
sign. -/
def Transaction.MadeWithPayer (t : Transaction) : Prop :=
  (∃ payer ixs blockhash,
    t.message = { Message.compile payer ixs with recentBlockhash := blockhash }) ∧
  t.signatures.length = t.message.header.requiredSignatures

/-- The payer signs, so a transaction made with a payer has a first signature. -/
theorem Transaction.MadeWithPayer.signatures_ne_nil (h : t.MadeWithPayer) : t.signatures ≠ [] := by
  obtain ⟨⟨payer, ixs, blockhash, hm⟩, hlen⟩ := h
  have hpos : 0 < t.message.header.requiredSignatures := by
    rw [hm]
    show 0 < (Message.compile payer ixs).header.requiredSignatures
    rw [Message.requiredSignatures_compile]
    simp
  exact List.ne_nil_of_length_pos (by omega)

theorem Transaction.MadeWithPayer.inRange (h : t.MadeWithPayer) {c : CompiledInstruction}
    (hc : c ∈ t.message.instructions) : Ledger.InRange t.message c := by
  obtain ⟨⟨payer, ixs, blockhash, hm⟩, -⟩ := h
  rw [hm] at hc ⊢
  exact Message.inRange_compile hc

end Submitted

/-- Every message compiled from instructions reads back as them, under any blockhash: each
instruction's program, accounts in order with duplicates kept, and data; every key signs exactly
when it is the payer or some instruction flags it as signer; and a program's rejection of the
instruction at position `k` is put down to the program of the `k`-th instruction, called the
client's own exactly when that program is the client's. -/
theorem compiled_message_reads_back (payer : Address) (ixs : List Instruction) (blockhash : Bytes) :
    let m : Message := { Message.compile payer ixs with recentBlockhash := blockhash }
    m.instructions.map (fun c => (Ledger.programOf m c, Ledger.accountsOf m c, c.data)) =
        ixs.map (fun ix =>
          (ix.program, ix.accounts.map fun r => ⟨r.key, Message.signsFor payer ixs r.key⟩,
            ix.data)) ∧
      (List.range m.keys.length).map m.isSigner = m.keys.map (Message.signsFor payer ixs) ∧
      ∀ (op : String) (program : Address) (index : UInt8) (code : UInt32),
        ClientError.ofSubmission op program m (.programError index code) =
          let failing := (ixs[index.toNat]?.map (·.program)).getD Address.zero
          .rejected op ⟨index, code, failing, failing == program⟩ := by
  -- the blockhash is no part of what is read back
  refine ⟨Message.compile_readBack payer ixs, Message.signers_compile payer ixs,
    fun op program index code => ?_⟩
  have hat : ({ Message.compile payer ixs with recentBlockhash := blockhash } : Message).programAt?
      index.toNat = ixs[index.toNat]?.map (·.program) := Message.programAt?_compile payer ixs _
  simp only [ClientError.ofSubmission, hat]

end TokenBridge
