import Mathlib.Algebra.GroupWithZero.Nat
import TokenBridge.Proofs.RecordCodec
import TokenBridge.Proofs.CommandCodec
/-!
Where a decoder stops, and why.

A layout is a list of named fields, each of a shape: a fixed number of bytes, a bool byte, a
byte string after its `u32` length, such a string that must be UTF-8, or a byte string that an
older form of a record leaves out when the record ends before it. Walking the fields over a
buffer (`Wire.scan`) gives the bytes they span, or the fault of the first field that does not
fit: a field that runs past the end, at the offset where its read starts (for the body of a
string, just after its length) and with the bytes left there; a bool byte above 1; or bytes
that are not UTF-8.

Each reader follows its layout (`Wire.Follows`): from every cursor it fails with exactly the
fault of the walk, or takes exactly the bytes the walk spans. Decoding a record therefore
reports, in this order, a buffer below the record's least length, the first field that fails,
and bytes left over (`decode_faults_in_layout_order`); unpacking a command reports a missing
tag, an unknown tag, the first argument that fails, and bytes after the arguments. A config and
a route have only fixed fields after a bool, so each decodes exactly when the buffer has its
length and a first byte 0 or 1.
-/

namespace TokenBridge

namespace Wire

/-- The shape of one field of a layout. -/
inductive Shape where
  /-- A number or an address of `width` bytes. -/
  | fixed (width : Nat)
  /-- A bool, one byte 0 or 1. -/
  | flag
  /-- A byte string after its length as a `u32`. -/
  | sized
  /-- A sized byte string that is UTF-8. -/
  | text
  /-- A sized byte string, left out when the record ends before it. -/
  | sizedIfAny

/-- A named field of a layout. -/
structure Field where
  name : String
  shape : Shape

/-- The body length of a sized field at the head of `rest`, read at `offset`; or the fault of its
length, or of its body, running past the end. -/
def bodyLength (name : String) (rest : Bytes) (offset : Nat) : Except Fault Nat :=
  if rest.length < 4 then .error (.short name 4 offset rest.length)
  else if Bytes.toNatLE (rest.take 4) ≤ rest.length - 4 then .ok (Bytes.toNatLE (rest.take 4))
  else .error (.short name (Bytes.toNatLE (rest.take 4)) (offset + 4) (rest.length - 4))

/-- How many bytes a field spans at the head of `rest`, read at `offset`, or why it does not fit. -/
def Field.span (f : Field) (rest : Bytes) (offset : Nat) : Except Fault Nat :=
  match f.shape with
  | .fixed w => if w ≤ rest.length then .ok w else .error (.short f.name w offset rest.length)
  | .flag =>
    match rest with
    | [] => .error (.short f.name 1 offset 0)
    | v :: _ => if v ≤ 1 then .ok 1 else .error (.notBool f.name v)
  | .sized => (bodyLength f.name rest offset).map (4 + ·)
  | .text =>
    match bodyLength f.name rest offset with
    | .error e => .error e
    | .ok n =>
      match Utf8.decode ((rest.drop 4).take n) with
      | .ok _ => .ok (4 + n)
      | .error e => .error (.notText f.name e)
  | .sizedIfAny => if rest.isEmpty then .ok 0 else (bodyLength f.name rest offset).map (4 + ·)

/-- Walks the fields over `rest` from `offset`: the bytes they span, or the fault of the first
field that does not fit. -/
def scan : List Field → Bytes → Nat → Except Fault Nat
  | [], _, _ => .ok 0
  | f :: fs, rest, offset =>
    match f.span rest offset with
    | .error e => .error e
    | .ok n => (scan fs (rest.drop n) (offset + n)).map (n + ·)

/-- What decoding a buffer of the layout `fields`, with least length `minLen`, reports: a buffer
too short, else the first field that does not fit, else bytes left over; nothing when it
decodes. -/
def layoutFault (fields : List Field) (minLen : Nat) (b : Bytes) : Option Fault :=
  if b.length < minLen then some (.tooShort minLen b.length)
  else
    match scan fields b 0 with
    | .error e => some e
    | .ok n => if n < b.length then some (.trailing (b.length - n) n) else none

/-- A run of a reader from `c` agrees with the outcome of a walk: it fails with the walk's fault,
or gives a value after exactly the bytes walked. -/
def Agrees {α : Type} (run : Except Fault (α × Cursor)) (c : Cursor) : Except Fault Nat → Prop
  | .error e => run = .error e
  | .ok n => ∃ v, run = .ok (v, ⟨c.rest.drop n, c.offset + n⟩)

@[simp] theorem agrees_error {α : Type} {run : Except Fault (α × Cursor)} {c : Cursor} {e : Fault} :
    Agrees run c (.error e) ↔ run = .error e := Iff.rfl

@[simp] theorem agrees_ok {α : Type} {run : Except Fault (α × Cursor)} {c : Cursor} {n : Nat} :
    Agrees run c (.ok n) ↔ ∃ v, run = .ok (v, ⟨c.rest.drop n, c.offset + n⟩) := Iff.rfl

/-- The reader `r` reads the field `f`, from every cursor. -/
def Reads {α : Type} (r : Reader α) (f : Field) : Prop :=
  ∀ c : Cursor, Agrees (r c) c (f.span c.rest c.offset)

/-- The reader `r` reads the fields `fs` in order, from every cursor. -/
def Follows {α : Type} (r : Reader α) (fs : List Field) : Prop :=
  ∀ c : Cursor, Agrees (r c) c (scan fs c.rest c.offset)

/-! ### Reading field after field -/

theorem bind_of_error {α β : Type} {r : Reader α} {k : α → Reader β} {c : Cursor} {e : Fault}
    (h : r c = .error e) : (r >>= k) c = .error e := by
  show Except.bind (r c) (fun p => k p.1 p.2) = .error e
  rw [h]
  rfl

theorem Follows.nil_pure {α : Type} (v : α) : Follows (pure v : Reader α) [] := fun _ => ⟨v, rfl⟩

/-- A field read first and then the fields after it follow the layout of all of them: the first
fault stops the walk and the run alike, and otherwise both move on by the bytes of the field. -/
theorem Follows.cons {α β : Type} {r : Reader α} {k : α → Reader β} {f : Field} {fs : List Field}
    (hr : Reads r f) (hk : ∀ v, Follows (k v) fs) : Follows (r >>= k) (f :: fs) := by
  intro c
  have h1 := hr c
  unfold scan
  revert h1
  cases f.span c.rest c.offset with
  | error e =>
    simp only [agrees_error]
    exact bind_of_error
  | ok n =>
    rintro ⟨v, hv⟩
    have h2 := hk v ⟨c.rest.drop n, c.offset + n⟩
    revert h2
    dsimp only
    cases scan fs (c.rest.drop n) (c.offset + n) with
    | error e =>
      simp only [Except.map, agrees_error]
      intro h2
      rw [bind_of_ok hv]
      exact h2
    | ok m =>
      simp only [Except.map, agrees_ok]
      rintro ⟨w, hw⟩
      refine ⟨w, ?_⟩
      rw [bind_of_ok hv, hw, List.drop_drop, Nat.add_assoc]

/-- A value computed from what a field read is read from the same bytes. -/
theorem Reads.map {α β : Type} {r : Reader α} {f : Field} (hr : Reads r f) (g : α → β) :
    Reads (r >>= fun x => pure (g x)) f := by
  intro c
  have h := hr c
  revert h
  cases f.span c.rest c.offset with
  | error e =>
    intro h
    exact bind_of_error h
  | ok n =>
    rintro ⟨v, hv⟩
    exact ⟨g v, by rw [bind_of_ok hv]; rfl⟩

/-! ### The field readers -/

theorem take_of_le {n : Nat} {name : String} {rest : Bytes} {offset : Nat} (h : n ≤ rest.length) :
    take n name ⟨rest, offset⟩ = .ok (rest.take n, ⟨rest.drop n, offset + n⟩) := by
  simp [take, h]

theorem take_of_lt {n : Nat} {name : String} {rest : Bytes} {offset : Nat} (h : rest.length < n) :
    take n name ⟨rest, offset⟩ = .error (.short name n offset rest.length) := by
  simp [take, Nat.not_le.2 h]

theorem take_reads (n : Nat) (name : String) : Reads (take n name) ⟨name, .fixed n⟩ := by
  rintro ⟨rest, offset⟩
  by_cases h : n ≤ rest.length
  · simp only [Field.span, if_pos h]
    exact ⟨_, take_of_le h⟩
  · simp only [Field.span, if_neg h]
    exact take_of_lt (Nat.lt_of_not_le h)

theorem readU8_reads (name : String) : Reads (readU8 name) ⟨name, .fixed 1⟩ :=
  (take_reads 1 name).map _

theorem readU32_reads (name : String) : Reads (readU32 name) ⟨name, .fixed 4⟩ :=
  (take_reads 4 name).map _

theorem readU64_reads (name : String) : Reads (readU64 name) ⟨name, .fixed 8⟩ :=
  (take_reads 8 name).map _

theorem readAddress_reads (name : String) : Reads (readAddress name) ⟨name, .fixed 32⟩ :=
  (take_reads 32 name).map _

/-- A byte other than 0 and 1 is above 1. -/
theorem not_le_one_of_ne {v : UInt8} (h0 : v ≠ 0) (h1 : v ≠ 1) : ¬ v ≤ 1 := by
  intro hle
  have hle' := UInt8.le_iff_toNat_le.1 hle
  have h0' : v.toNat ≠ 0 := fun h => h0 (UInt8.toNat_inj.1 h)
  have h1' : v.toNat ≠ 1 := fun h => h1 (UInt8.toNat_inj.1 h)
  simp only [UInt8.toNat_one] at hle'
  omega

theorem readBool_reads (name : String) : Reads (readBool name) ⟨name, .flag⟩ := by
  rintro ⟨rest, offset⟩
  cases rest with
  | nil => exact bind_of_error (bind_of_error (take_of_lt Nat.zero_lt_one))
  | cons v rest =>
    have hu : readU8 name ⟨v :: rest, offset⟩ = .ok (v, ⟨rest, offset + 1⟩) :=
      readU8_append name v rest offset
    show Agrees (readBool name ⟨v :: rest, offset⟩) _ (if v ≤ 1 then .ok 1 else .error _)
    unfold readBool
    rw [bind_of_ok hu]
    -- the bytes 0 and 1 read as bools, any other byte is the field's fault
    by_cases h0 : v = 0
    · subst h0
      exact ⟨false, rfl⟩
    by_cases h1 : v = 1
    · subst h1
      exact ⟨true, rfl⟩
    rw [if_neg (not_le_one_of_ne h0 h1)]
    simp only [beq_iff_eq, h0, h1, if_false]
    rfl

/-- The length of a sized field, once four bytes are there. -/
theorem readU32_of_le {name : String} {rest : Bytes} {offset : Nat} (h : 4 ≤ rest.length) :
    readU32 name ⟨rest, offset⟩ =
      .ok ((Bytes.toNatLE (rest.take 4)).toUInt32, ⟨rest.drop 4, offset + 4⟩) := by
  unfold readU32
  rw [bind_of_ok (take_of_le h)]
  rfl

theorem toNat_toUInt32_length {rest : Bytes} (h : 4 ≤ rest.length) :
    (Bytes.toNatLE (rest.take 4)).toUInt32.toNat = Bytes.toNatLE (rest.take 4) := by
  have hlt := Bytes.toNatLE_lt (rest.take 4)
  rw [List.length_take, Nat.min_eq_left h] at hlt
  exact UInt32.toNat_ofNat_of_lt' hlt

/-- A sized field reads its body when the body is there. -/
theorem readBytes_of_body {name : String} {rest : Bytes} {offset n : Nat}
    (h : bodyLength name rest offset = .ok n) :
    readBytes name ⟨rest, offset⟩ = .ok ((rest.drop 4).take n, ⟨rest.drop (4 + n), offset + (4 + n)⟩) := by
  unfold bodyLength at h
  split at h
  · cases h
  rename_i h4
  split at h
  · rename_i hbody
    cases h
    have h4' : 4 ≤ rest.length := Nat.le_of_not_lt h4
    unfold readBytes
    rw [bind_of_ok (readU32_of_le h4'), toNat_toUInt32_length h4',
      take_of_le (by rw [List.length_drop]; exact hbody), List.drop_drop, Nat.add_assoc]
  · cases h

/-- A sized field fails with the fault of its length or of its body. -/
theorem readBytes_of_fault {name : String} {rest : Bytes} {offset : Nat} {e : Fault}
    (h : bodyLength name rest offset = .error e) : readBytes name ⟨rest, offset⟩ = .error e := by
  unfold bodyLength at h
  split at h
  · rename_i h4
    cases h
    exact bind_of_error (bind_of_error (take_of_lt h4))
  rename_i h4
  split at h
  · cases h
  · rename_i hbody
    cases h
    have h4' : 4 ≤ rest.length := Nat.le_of_not_lt h4
    unfold readBytes
    rw [bind_of_ok (readU32_of_le h4'), toNat_toUInt32_length h4', take_of_lt, List.length_drop]
    rw [List.length_drop]
    exact Nat.lt_of_not_le hbody

theorem readBytes_reads (name : String) : Reads (readBytes name) ⟨name, .sized⟩ := by
  rintro ⟨rest, offset⟩
  show Agrees _ _ ((bodyLength name rest offset).map (4 + ·))
  cases h : bodyLength name rest offset with
  | error e => exact readBytes_of_fault h
  | ok n => exact ⟨_, readBytes_of_body h⟩

theorem readText_reads (name : String) : Reads (readText name) ⟨name, .text⟩ := by
  rintro ⟨rest, offset⟩
  unfold Field.span
  dsimp only
  cases h : bodyLength name rest offset with
  | error e => exact bind_of_error (readBytes_of_fault h)
  | ok n =>
    -- the body is read whole, and only then checked as UTF-8
    dsimp only
    unfold readText
    rw [bind_of_ok (readBytes_of_body h)]
    cases hu : Utf8.decode ((rest.drop 4).take n) with
    | error e => rfl
    | ok s => exact ⟨s, rfl⟩

/-- A trailing byte string that an older form leaves out: read when bytes remain, else empty. -/
theorem Follows.ifAny {β : Type} {name : String} {k : Bytes → Reader β} (hk : ∀ v, Follows (k v) []) :
    Follows (atEnd >>= fun e => if e = true then pure [] >>= k else readBytes name >>= k)
      [⟨name, .sizedIfAny⟩] := by
  rintro ⟨rest, offset⟩
  cases rest with
  | nil => exact hk [] ⟨[], offset⟩
  | cons b rest =>
    -- bytes remain, so the field is read as a sized one
    exact Follows.cons (readBytes_reads name) hk ⟨b :: rest, offset⟩

/-! ### What a walk takes -/

theorem bodyLength_le {name : String} {rest : Bytes} {offset n : Nat}
    (h : bodyLength name rest offset = .ok n) : 4 + n ≤ rest.length := by
  unfold bodyLength at h
  split at h
  · cases h
  rename_i h4
  split at h
  · rename_i hbody
    cases h
    omega
  · cases h

theorem bodyLength_ne_tooShort {name : String} {rest : Bytes} {offset m k : Nat} :
    bodyLength name rest offset ≠ .error (.tooShort m k) := by
  unfold bodyLength
  split
  · simp
  · split <;> simp

/-- A field spans no more than the bytes left. -/
theorem span_le {f : Field} {rest : Bytes} {offset n : Nat} (h : f.span rest offset = .ok n) :
    n ≤ rest.length := by
  obtain ⟨name, shape⟩ := f
  cases shape with
  | fixed w =>
    simp only [Field.span] at h
    split at h
    · cases h
      assumption
    · cases h
  | flag =>
    simp only [Field.span] at h
    cases rest with
    | nil => cases h
    | cons v rest =>
      dsimp only at h
      split at h
      · cases h
        simp
      · cases h
  | sized =>
    simp only [Field.span] at h
    cases hb : bodyLength name rest offset with
    | error e => rw [hb] at h; cases h
    | ok m =>
      rw [hb] at h
      cases h
      exact bodyLength_le hb
  | text =>
    simp only [Field.span] at h
    cases hb : bodyLength name rest offset with
    | error e => rw [hb] at h; cases h
    | ok m =>
      rw [hb] at h
      dsimp only at h
      split at h
      · cases h
        exact bodyLength_le hb
      · cases h
  | sizedIfAny =>
    simp only [Field.span] at h
    split at h
    · cases h
      exact Nat.zero_le _
    · cases hb : bodyLength name rest offset with
      | error e => rw [hb] at h; cases h
      | ok m =>
        rw [hb] at h
        cases h
        exact bodyLength_le hb

/-- A field never reports a buffer below a record's least length; only the record does. -/
theorem span_ne_tooShort {f : Field} {rest : Bytes} {offset m k : Nat} :
    f.span rest offset ≠ .error (.tooShort m k) := by
  obtain ⟨name, shape⟩ := f
  cases shape with
  | fixed w =>
    simp only [Field.span]
    split <;> simp
  | flag =>
    simp only [Field.span]
    cases rest with
    | nil => simp
    | cons v rest =>
      dsimp only
      split <;> simp
  | sized =>
    simp only [Field.span]
    cases hb : bodyLength name rest offset with
    | error e =>
      have hne : e ≠ .tooShort m k := fun he => bodyLength_ne_tooShort (he ▸ hb)
      simpa [Except.map] using hne
    | ok n => simp [Except.map]
  | text =>
    simp only [Field.span]
    cases hb : bodyLength name rest offset with
    | error e =>
      have hne : e ≠ .tooShort m k := fun he => bodyLength_ne_tooShort (he ▸ hb)
      simpa using hne
    | ok n =>
      dsimp only
      split <;> simp
  | sizedIfAny =>
    simp only [Field.span]
    split
    · simp
    · cases hb : bodyLength name rest offset with
      | error e =>
        have hne : e ≠ .tooShort m k := fun he => bodyLength_ne_tooShort (he ▸ hb)
        simpa [Except.map] using hne
      | ok n => simp [Except.map]

/-- The fields walked span no more than the bytes left. -/
theorem scan_le {fs : List Field} {rest : Bytes} {offset n : Nat}
    (h : scan fs rest offset = .ok n) : n ≤ rest.length := by
  induction fs generalizing rest offset n with
  | nil =>
    cases h
    exact Nat.zero_le _
  | cons f fs ih =>
    unfold scan at h
    cases hs : f.span rest offset with
    | error e => rw [hs] at h; cases h
    | ok m =>
      rw [hs] at h
      dsimp only at h
      cases ht : scan fs (rest.drop m) (offset + m) with
      | error e => rw [ht] at h; cases h
      | ok k =>
        rw [ht] at h
        simp only [Except.map, Except.ok.injEq] at h
        have hk := ih ht
        have hm := span_le hs
        rw [List.length_drop] at hk
        omega

theorem scan_ne_tooShort {fs : List Field} {rest : Bytes} {offset m k : Nat} :
    scan fs rest offset ≠ .error (.tooShort m k) := by
  induction fs generalizing rest offset with
  | nil => simp [scan]
  | cons f fs ih =>
    unfold scan
    cases hs : f.span rest offset with
    | error e =>
      have hne : e ≠ .tooShort m k := fun he => span_ne_tooShort (he ▸ hs)
      simpa using hne
    | ok n =>
      dsimp only
      cases ht : scan fs (rest.drop n) (offset + n) with
      | error e =>
        have hne : e ≠ .tooShort m k := fun he => ih (he ▸ ht)
        simpa [Except.map] using hne
      | ok j => simp [Except.map]

/-- Fields of fixed widths all fit when their widths together do. -/
theorem scan_fixed {fs : List Field} {ws : List Nat} (h : fs.map Field.shape = ws.map Shape.fixed)
    {rest : Bytes} {offset : Nat} (hlen : ws.sum ≤ rest.length) :
    scan fs rest offset = .ok ws.sum := by
  induction fs generalizing ws rest offset with
  | nil =>
    cases ws with
    | nil => rfl
    | cons w ws => cases h
  | cons f fs ih =>
    cases ws with
    | nil => cases h
    | cons w ws =>
      obtain ⟨hf, hfs⟩ := List.cons_eq_cons.1 h
      obtain ⟨name, shape⟩ := f
      simp only at hf
      subst hf
      rw [List.sum_cons] at hlen ⊢
      have hw : w ≤ rest.length := by omega
      have hrest : scan fs (rest.drop w) (offset + w) = .ok ws.sum :=
        ih hfs (by rw [List.length_drop]; omega)
      simp only [scan, Field.span, if_pos hw, hrest]
      rfl

/-- A layout's fault is a buffer too short exactly when the buffer is below the least length. -/
theorem layoutFault_eq_tooShort_iff {fs : List Field} {minLen : Nat} {b : Bytes} {needed got : Nat} :
    layoutFault fs minLen b = some (.tooShort needed got) ↔
      b.length < minLen ∧ needed = minLen ∧ got = b.length := by
  unfold layoutFault
  by_cases hlen : b.length < minLen
  · simp only [if_pos hlen, Option.some.injEq, Fault.tooShort.injEq]
    constructor
    · rintro ⟨rfl, rfl⟩
      exact ⟨hlen, rfl, rfl⟩
    · rintro ⟨-, rfl, rfl⟩
      exact ⟨rfl, rfl⟩
  · rw [if_neg hlen]
    refine ⟨fun h => ?_, fun h => absurd h.1 hlen⟩
    exfalso
    revert h
    cases hs : scan fs b 0 with
    | error e =>
      intro h
      exact scan_ne_tooShort (Option.some.inj h ▸ hs)
    | ok n =>
      dsimp only
      split <;> simp

/-- A layout of a bool and then fixed fields, whose least length is all of them: a buffer passes
exactly when it has that length and a first byte 0 or 1. -/
theorem layoutFault_flag_fixed_eq_none {name : String} {fs : List Field} (ws : List Nat)
    (h : fs.map Field.shape = ws.map Shape.fixed) {b : Bytes} :
    layoutFault (⟨name, .flag⟩ :: fs) (1 + ws.sum) b = none ↔
      b.length = 1 + ws.sum ∧ b.headD 0 ≤ 1 := by
  unfold layoutFault
  by_cases hlen : b.length < 1 + ws.sum
  · simp only [if_pos hlen, reduceCtorEq, false_iff, not_and]
    omega
  · rw [if_neg hlen]
    cases b with
    | nil => simp at hlen
    | cons v rest =>
      simp only [List.length_cons, List.headD_cons] at hlen ⊢
      by_cases hv : v ≤ 1
      · -- the flag passes and the fixed fields after it fit; only a longer buffer has bytes left
        have hrest : scan fs rest (0 + 1) = .ok ws.sum := scan_fixed h (by omega)
        have hscan : scan (⟨name, .flag⟩ :: fs) (v :: rest) 0 = .ok (1 + ws.sum) := by
          simp only [scan, Field.span, if_pos hv, List.drop_succ_cons, List.drop_zero, hrest]
          rfl
        rw [hscan]
        simp only [hv, and_true]
        split <;> simp <;> omega
      · -- a flag byte above 1 is the first fault
        have hscan : scan (⟨name, .flag⟩ :: fs) (v :: rest) 0 = .error (.notBool name v) := by
          simp only [scan, Field.span, if_neg hv]
        rw [hscan]
        simp [hv]

end Wire

/-- The error a run ended with, if it ended with one. -/
def errorOf {ε α : Type} : Except ε α → Option ε
  | .error e => some e
  | .ok _ => none

theorem exists_eq_ok_iff_errorOf {ε α : Type} {x : Except ε α} : (∃ a, x = .ok a) ↔ errorOf x = none := by
  cases x <;> simp [errorOf]

namespace Wire

/-- A record whose reader follows its layout reports, in order, a buffer too short, the first field
that does not fit, and bytes left over. -/
theorem errorOf_decodeRecord {α : Type} {kind : RecordKind} {minLen : Nat} {read : Reader α}
    {fs : List Field} (h : Follows read fs) (b : Bytes) :
    errorOf (decodeRecord kind minLen read b) = (layoutFault fs minLen b).map (CodecError.mk kind) := by
  unfold decodeRecord layoutFault
  by_cases hlen : b.length < minLen
  · simp [hlen, errorOf]
  · rw [if_neg hlen, if_neg hlen]
    have hc : Agrees (read (Cursor.start b)) (Cursor.start b) (scan fs b 0) := h (Cursor.start b)
    revert hc
    cases hs : scan fs b 0 with
    | error e =>
      simp only [agrees_error]
      intro hc
      rw [hc]
      rfl
    | ok n =>
      simp only [agrees_ok]
      rintro ⟨v, hv⟩
      rw [hv]
      have hn := scan_le hs
      simp only [Cursor.start, Nat.zero_add]
      -- the reader stops after `n` bytes: what is left over is the buffer past them
      by_cases hlt : n < b.length
      · have hne : (b.drop n).isEmpty = false := by
          rw [List.isEmpty_eq_false_iff, ne_eq, List.drop_eq_nil_iff]
          omega
        simp [hne, hlt, errorOf, List.length_drop]
      · have he : (b.drop n).isEmpty = true := by
          rw [List.isEmpty_iff, List.drop_eq_nil_iff]
          omega
        simp [he, hlt, errorOf]

end Wire

open Wire

namespace Config

/-- The fields of a config, in layout order. -/
def layout : List Field :=
  [⟨"initialized", .flag⟩, ⟨"owner", .fixed 32⟩, ⟨"authority", .fixed 32⟩, ⟨"fee", .fixed 8⟩,
    ⟨"fee_collector", .fixed 32⟩]

theorem reader_follows : Follows reader layout :=
  Follows.cons (readBool_reads _) fun _ => Follows.cons (readAddress_reads _) fun _ =>
    Follows.cons (readAddress_reads _) fun _ => Follows.cons (readU64_reads _) fun _ =>
      Follows.cons (readAddress_reads _) fun _ => Follows.nil_pure _

end Config

namespace Route

/-- The fields of a route, in layout order. -/
def layout : List Field :=
  [⟨"initialized", .flag⟩, ⟨"bump_seed", .fixed 1⟩, ⟨"token_program_id", .fixed 32⟩,
    ⟨"config", .fixed 32⟩, ⟨"token", .fixed 32⟩, ⟨"token_mint", .fixed 32⟩,
    ⟨"destination", .fixed 4⟩, ⟨"index", .fixed 8⟩, ⟨"max", .fixed 8⟩, ⟨"min", .fixed 8⟩]

theorem reader_follows : Follows reader layout :=
  Follows.cons (readBool_reads _) fun _ => Follows.cons (readU8_reads _) fun _ =>
    Follows.cons (readAddress_reads _) fun _ => Follows.cons (readAddress_reads _) fun _ =>
      Follows.cons (readAddress_reads _) fun _ => Follows.cons (readAddress_reads _) fun _ =>
        Follows.cons (readU32_reads _) fun _ => Follows.cons (readU64_reads _) fun _ =>
          Follows.cons (readU64_reads _) fun _ => Follows.cons (readU64_reads _) fun _ =>
            Follows.nil_pure _

end Route

namespace TransferLog

/-- The fields of a transfer log, in layout order; the payload is left out by the older form. -/
def layout : List Field :=
  [⟨"token", .fixed 32⟩, ⟨"index", .fixed 8⟩, ⟨"sender", .fixed 32⟩, ⟨"recipient", .text⟩,
    ⟨"amount", .fixed 8⟩, ⟨"fee", .fixed 8⟩, ⟨"destination", .fixed 4⟩,
    ⟨"payload", .sizedIfAny⟩]

theorem reader_follows : Follows reader layout :=
  Follows.cons (readAddress_reads _) fun _ => Follows.cons (readU64_reads _) fun _ =>
    Follows.cons (readAddress_reads _) fun _ => Follows.cons (readText_reads _) fun _ =>
      Follows.cons (readU64_reads _) fun _ => Follows.cons (readU64_reads _) fun _ =>
        Follows.cons (readU32_reads _) fun _ => Follows.ifAny fun _ => Follows.nil_pure _

end TransferLog

namespace Config

theorem decode_fault (b : Bytes) :
    errorOf (decode b) = (layoutFault layout size b).map (CodecError.mk .config) :=
  errorOf_decodeRecord reader_follows b

/-- A config decodes exactly from 105 bytes whose first, the initialized flag, is 0 or 1. -/
theorem decode_ok_iff (b : Bytes) : (∃ c, decode b = .ok c) ↔ b.length = size ∧ b.headD 0 ≤ 1 := by
  rw [exists_eq_ok_iff_errorOf, decode_fault, Option.map_eq_none_iff]
  exact layoutFault_flag_fixed_eq_none [32, 32, 8, 32] rfl

end Config

namespace Route

theorem decode_fault (b : Bytes) :
    errorOf (decode b) = (layoutFault layout size b).map (CodecError.mk .route) :=
  errorOf_decodeRecord reader_follows b

/-- A route decodes exactly from 158 bytes whose first, the initialized flag, is 0 or 1. -/
theorem decode_ok_iff (b : Bytes) : (∃ r, decode b = .ok r) ↔ b.length = size ∧ b.headD 0 ≤ 1 := by
  rw [exists_eq_ok_iff_errorOf, decode_fault, Option.map_eq_none_iff]
  exact layoutFault_flag_fixed_eq_none [1, 32, 32, 32, 32, 4, 8, 8, 8] rfl

end Route

theorem TransferLog.decode_fault (b : Bytes) :
    errorOf (TransferLog.decode b) =
      (layoutFault TransferLog.layout TransferLog.minSize b).map (CodecError.mk .transferLog) :=
  errorOf_decodeRecord TransferLog.reader_follows b

namespace Wire

/-- The arguments and name of the command each tag byte stands for; none past 7. -/
def commandLayout : Nat → Option (List Field × String)
  | 0 => some ([⟨"fee", .fixed 8⟩], "config")
  | 1 => some ([], "transfer_owner")
  | 2 => some ([], "change_authority")
  | 3 => some ([⟨"fee", .fixed 8⟩], "change_fee")
  | 4 => some ([⟨"destination", .fixed 4⟩, ⟨"max", .fixed 8⟩, ⟨"min", .fixed 8⟩], "create")
  | 5 => some ([⟨"max", .fixed 8⟩, ⟨"min", .fixed 8⟩], "change_limit")
  | 6 => some ([⟨"amount", .fixed 8⟩, ⟨"recipient", .text⟩, ⟨"payload", .sized⟩], "bridge")
  | 7 => some ([⟨"amount", .fixed 8⟩], "settle")
  | _ => none

/-- What unpacking instruction data reports: no tag, an unknown tag, the first argument that does
not fit, or bytes after the arguments; nothing when it unpacks. -/
def commandFault : Bytes → Option Fault
  | [] => some (.short "tag" 1 0 0)
  | t :: rest =>
    match commandLayout t.toNat with
    | none => some (.unknownTag t)
    | some (fields, name) =>
      match scan fields rest 1 with
      | .error e => some e
      | .ok n => if n < rest.length then some (.trailingAfter (rest.length - n) name) else none

/-- A byte that names no tag is 8 or more, and has no layout. -/
theorem commandLayout_eq_none {t : UInt8} (h : Tag.ofU8? t = none) : commandLayout t.toNat = none := by
  have h8 : 8 ≤ t.toNat := by
    refine Nat.le_of_not_lt fun hlt => ?_
    have hnamed : ∀ n : Fin 8, Tag.ofU8? (UInt8.ofNat n) ≠ none := by decide
    have hnamed_t := hnamed ⟨t.toNat, by omega⟩
    rw [UInt8.ofNat_toNat] at hnamed_t
    exact hnamed_t h
  obtain ⟨m, hm⟩ : ∃ m, t.toNat = m + 8 := ⟨t.toNat - 8, by omega⟩
  rw [hm]
  rfl

end Wire

namespace Command

/-- Each tag's arguments are read field by field in the layout its byte stands for. -/
theorem argsReader_follows (t : Tag) :
    ∃ fields, commandLayout t.toU8.toNat = some (fields, t.word) ∧ Follows (argsReader t) fields := by
  cases t with
  | config | changeFee | settle =>
    exact ⟨_, rfl, Follows.cons (readU64_reads _) fun _ => Follows.nil_pure _⟩
  | transferOwner | changeAuthority => exact ⟨_, rfl, Follows.nil_pure _⟩
  | create =>
    exact ⟨_, rfl, Follows.cons (readU32_reads _) fun _ => Follows.cons (readU64_reads _) fun _ =>
      Follows.cons (readU64_reads _) fun _ => Follows.nil_pure _⟩
  | changeLimit =>
    exact ⟨_, rfl, Follows.cons (readU64_reads _) fun _ => Follows.cons (readU64_reads _) fun _ =>
      Follows.nil_pure _⟩
  | bridge =>
    exact ⟨_, rfl, Follows.cons (readU64_reads _) fun _ => Follows.cons (readText_reads _) fun _ =>
      Follows.cons (readBytes_reads _) fun _ => Follows.nil_pure _⟩

/-- Unpacking reports, in order, a missing tag, an unknown tag, the first argument that does not
fit, and bytes after the arguments. -/
theorem errorOf_unpack (b : Bytes) :
    errorOf (unpack b) = (commandFault b).map (CodecError.mk .command) := by
  cases b with
  | nil => rfl
  | cons t rest =>
    have hu : readU8 "tag" ⟨t :: rest, 0⟩ = .ok (t, ⟨rest, 1⟩) := readU8_append "tag" t rest 0
    unfold unpack reader
    rw [show Cursor.start (t :: rest) = ⟨t :: rest, 0⟩ from rfl, bind_of_ok hu]
    simp only [commandFault]
    cases ht : Tag.ofU8? t with
    | none =>
      simp only [commandLayout_eq_none ht]
      rfl
    | some tag =>
      obtain ⟨fields, hl, hf⟩ := argsReader_follows tag
      have hlayout : commandLayout t.toNat = some (fields, tag.word) := by
        rw [Tag.ofU8?_eq_some_iff.1 ht]
        exact hl
      simp only [hlayout]
      have hc : Agrees (argsReader tag ⟨rest, 1⟩) ⟨rest, 1⟩ (scan fields rest 1) := hf _
      revert hc
      cases hs : scan fields rest 1 with
      | error e =>
        simp only [agrees_error]
        intro hc
        rw [hc]
        rfl
      | ok n =>
        simp only [agrees_ok]
        rintro ⟨v, hv⟩
        have htag : v.tag = tag := (argsReader_sound hv).1
        have hn := scan_le hs
        rw [hv]
        simp only [name, htag]
        -- what follows the arguments is the data past them
        by_cases hlt : n < rest.length
        · have hne : (rest.drop n).isEmpty = false := by
            rw [List.isEmpty_eq_false_iff, ne_eq, List.drop_eq_nil_iff]
            omega
          simp [hne, hlt, errorOf, List.length_drop]
        · have he : (rest.drop n).isEmpty = true := by
            rw [List.isEmpty_iff, List.drop_eq_nil_iff]
            omega
          simp [he, hlt, errorOf]

end Command

/-- Decoding reports faults in layout order: each record's and each command's error is the first
fault its layout finds, and a config or a route decodes exactly when the buffer has its length and
a first byte 0 or 1. -/
theorem decode_faults_in_layout_order :
    (∀ b, errorOf (Config.decode b) =
      (layoutFault Config.layout Config.size b).map (CodecError.mk .config)) ∧
    (∀ b, errorOf (Route.decode b) =
      (layoutFault Route.layout Route.size b).map (CodecError.mk .route)) ∧
    (∀ b, errorOf (TransferLog.decode b) =
      (layoutFault TransferLog.layout TransferLog.minSize b).map (CodecError.mk .transferLog)) ∧
    (∀ b, errorOf (Command.unpack b) = (commandFault b).map (CodecError.mk .command)) ∧
    (∀ fs minLen b needed got, layoutFault fs minLen b = some (.tooShort needed got) ↔
      b.length < minLen ∧ needed = minLen ∧ got = b.length) ∧
    (∀ b, (∃ c, Config.decode b = .ok c) ↔ b.length = Config.size ∧ b.headD 0 ≤ 1) ∧
    (∀ b, (∃ r, Route.decode b = .ok r) ↔ b.length = Route.size ∧ b.headD 0 ≤ 1) :=
  ⟨Config.decode_fault, Route.decode_fault, TransferLog.decode_fault, Command.errorOf_unpack,
    fun _ _ _ _ _ => layoutFault_eq_tooShort_iff, Config.decode_ok_iff, Route.decode_ok_iff⟩

end TokenBridge
