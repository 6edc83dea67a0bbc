import TokenBridge.Wire.Layout
import TokenBridge.Proofs.Utf8Inverse
/-!
Each field reader of the shared layout accepts exactly the writings of its values.

For a reader `read` and a writer `write`, the law reads: `read` succeeds on a cursor with value
`v` and stops at cursor `c'` exactly when the bytes ahead start with `write v`, followed by the
bytes of `c'`, and the offset has moved by their length. The forward direction is what makes a
written record read back; the backward one is what makes a reader refuse anything outside the
writer's image. The byte and text fields carry their length as a `u32`, so their law holds of
values shorter than `UInt32.size` bytes, which is also all a reader can return.

The record decoders are built on `decodeRecord`, which `decodeRecord_eq_ok` unfolds: the buffer
reaches the least length and the reader takes all of it.
-/

namespace TokenBridge

namespace Bytes

theorem toNatLE_ofNatLE (w n : Nat) : toNatLE (ofNatLE w n) = n % Nat.pow 256 w := by
  induction w generalizing n with
  | zero => simp [ofNatLE, toNatLE, Nat.mod_one]
  | succ w ih =>
    simp only [ofNatLE, toNatLE, ih]
    have hb : (n % 256).toUInt8.toNat = n % 256 := by simp
    have hpow : Nat.pow 256 (w + 1) = 256 * Nat.pow 256 w := Nat.mul_comm _ _
    rw [hb, hpow, Nat.mod_mul]

theorem ofNatLE_toNatLE (bs : Bytes) : ofNatLE bs.length (toNatLE bs) = bs := by
  induction bs with
  | nil => rfl
  | cons b rest ih =>
    simp only [List.length_cons, ofNatLE, toNatLE]
    have hb := b.toNat_lt
    have h1 : (b.toNat + 256 * toNatLE rest) % 256 = b.toNat := by omega
    have h2 : (b.toNat + 256 * toNatLE rest) / 256 = toNatLE rest := by omega
    rw [h1, h2, ih]
    simp

end Bytes

theorem Address.ofBytes_bytes (a : Address) : Address.ofBytes a.bytes = a := by
  obtain ⟨bs, h⟩ := a
  simp [Address.ofBytes, h]

namespace Wire

/-! ### Running a reader -/

theorem bind_eq_ok {α β : Type} {r : Reader α} {f : α → Reader β} {c c'' : Cursor} {b : β} :
    (r >>= f) c = .ok (b, c'') ↔ ∃ a c', r c = .ok (a, c') ∧ f a c' = .ok (b, c'') := by
  show Except.bind (r c) (fun p => f p.1 p.2) = _ ↔ _
  constructor
  · intro h
    cases hr : r c with
    | error e => rw [hr] at h; cases h
    | ok p => rw [hr] at h; exact ⟨p.1, p.2, rfl, h⟩
  · rintro ⟨a, c', hr, h⟩
    rw [hr]
    exact h

theorem bind_of_ok {α β : Type} {r : Reader α} {k : α → Reader β} {c c' : Cursor} {a : α}
    (h : r c = .ok (a, c')) : (r >>= k) c = k a c' := by
  show Except.bind (r c) (fun p => k p.1 p.2) = k a c'
  rw [h]
  rfl

theorem pure_eq_ok {α : Type} {a b : α} {c c' : Cursor} :
    (pure a : Reader α) c = .ok (b, c') ↔ a = b ∧ c = c' := by
  show Except.ok (a, c) = _ ↔ _
  simp

theorem throw_ne_ok {α : Type} {f : Fault} {c c' : Cursor} {v : α} :
    ¬ (throw f : Reader α) c = .ok (v, c') := by
  show ¬ Except.error f = _
  simp

/-! ### Fixed-width fields -/

theorem take_eq_ok {n : Nat} {field : String} {c c' : Cursor} {bs : Bytes} :
    take n field c = .ok (bs, c') ↔
      bs.length = n ∧ c.rest = bs ++ c'.rest ∧ c'.offset = c.offset + n := by
  unfold take
  split
  · rename_i hn
    simp only [Except.ok.injEq, Prod.mk.injEq]
    constructor
    · rintro ⟨rfl, rfl⟩
      simp [List.length_take, Nat.min_eq_left hn]
    · rintro ⟨hlen, hrest, hoff⟩
      subst hlen
      rw [hrest, List.take_left, List.drop_left]
      exact ⟨rfl, by rw [← hoff]⟩
  · rename_i hn
    simp only [reduceCtorEq, false_iff]
    rintro ⟨rfl, hrest, -⟩
    apply hn
    rw [hrest, List.length_append]
    omega

/-- A field of `n` bytes converted by `g` reads exactly the writings `w v`, when writing gives `n`
bytes and `g` and `w` undo each other. The `u8`, `u32`, `u64` and address readers are all of
this kind. -/
theorem takeMap_eq_ok {α : Type} {n : Nat} {field : String} {g : Bytes → α} {w : α → Bytes}
    (hw : ∀ v, (w v).length = n) (hgw : ∀ v, g (w v) = v)
    (hwg : ∀ bs, bs.length = n → w (g bs) = bs) {c c' : Cursor} {v : α} :
    (do let bs ← take n field; pure (g bs) : Reader α) c = .ok (v, c') ↔
      c.rest = w v ++ c'.rest ∧ c'.offset = c.offset + n := by
  simp only [bind_eq_ok, take_eq_ok, pure_eq_ok]
  constructor
  · rintro ⟨bs, c1, ⟨hlen, hrest, hoff⟩, rfl, rfl⟩
    rw [hwg bs hlen]
    exact ⟨hrest, hoff⟩
  · rintro ⟨hrest, hoff⟩
    exact ⟨w v, c', ⟨hw v, hrest, hoff⟩, hgw v, rfl⟩

theorem readU8_eq_ok {field : String} {c c' : Cursor} {v : UInt8} :
    readU8 field c = .ok (v, c') ↔ c.rest = u8 v ++ c'.rest ∧ c'.offset = c.offset + 1 :=
  takeMap_eq_ok (w := u8) (fun _ => rfl) (fun _ => rfl) fun bs h => by
    match bs, h with
    | [b], _ => rfl

theorem u32_toNatLE {bs : Bytes} (h : bs.length = 4) : u32 (Bytes.toNatLE bs).toUInt32 = bs := by
  have hlt := Bytes.toNatLE_lt bs
  rw [h] at hlt
  rw [u32, UInt32.toNat_ofNat', Nat.mod_eq_of_lt hlt, ← h, Bytes.ofNatLE_toNatLE]

theorem readU32_eq_ok {field : String} {c c' : Cursor} {v : UInt32} :
    readU32 field c = .ok (v, c') ↔ c.rest = u32 v ++ c'.rest ∧ c'.offset = c.offset + 4 :=
  takeMap_eq_ok (w := u32) (fun _ => Bytes.length_ofNatLE _ _)
    (fun v => by
      rw [u32, Bytes.toNatLE_ofNatLE, Nat.mod_eq_of_lt v.toNat_lt]
      exact UInt32.ofNat_toNat)
    fun _ => u32_toNatLE

theorem u64_toNatLE {bs : Bytes} (h : bs.length = 8) : u64 (Bytes.toNatLE bs).toUInt64 = bs := by
  have hlt := Bytes.toNatLE_lt bs
  rw [h] at hlt
  rw [u64, UInt64.toNat_ofNat', Nat.mod_eq_of_lt hlt, ← h, Bytes.ofNatLE_toNatLE]

theorem readU64_eq_ok {field : String} {c c' : Cursor} {v : UInt64} :
    readU64 field c = .ok (v, c') ↔ c.rest = u64 v ++ c'.rest ∧ c'.offset = c.offset + 8 :=
  takeMap_eq_ok (w := u64) (fun _ => Bytes.length_ofNatLE _ _)
    (fun v => by
      rw [u64, Bytes.toNatLE_ofNatLE, Nat.mod_eq_of_lt v.toNat_lt]
      exact UInt64.ofNat_toNat)
    fun _ => u64_toNatLE

theorem readAddress_eq_ok {field : String} {c c' : Cursor} {v : Address} :
    readAddress field c = .ok (v, c') ↔
      c.rest = address v ++ c'.rest ∧ c'.offset = c.offset + 32 :=
  takeMap_eq_ok (w := address) (fun a => a.length_bytes) Address.ofBytes_bytes fun bs h => by
    simp [address, Address.ofBytes, h]

theorem readBool_eq_ok {field : String} {c c' : Cursor} {v : Bool} :
    readBool field c = .ok (v, c') ↔ c.rest = bool v ++ c'.rest ∧ c'.offset = c.offset + 1 := by
  simp only [readBool, bind_eq_ok, readU8_eq_ok]
  constructor
  · rintro ⟨b, c1, ⟨hrest, hoff⟩, h⟩
    -- only the bytes 0 and 1 are read; any other byte is thrown
    by_cases h0 : b = 0
    · subst h0
      obtain ⟨rfl, rfl⟩ := pure_eq_ok.1 h
      exact ⟨hrest, hoff⟩
    by_cases h1 : b = 1
    · subst h1
      obtain ⟨rfl, rfl⟩ := pure_eq_ok.1 h
      exact ⟨hrest, hoff⟩
    simp only [beq_iff_eq, h0, h1, if_false] at h
    exact absurd h throw_ne_ok
  · rintro ⟨hrest, hoff⟩
    refine ⟨if v then 1 else 0, c', ⟨hrest, hoff⟩, ?_⟩
    cases v <;> rfl

/-! ### Length-prefixed fields -/

theorem readBytes_eq_ok {field : String} {c c' : Cursor} {v : Bytes} :
    readBytes field c = .ok (v, c') ↔
      v.length < UInt32.size ∧ c.rest = bytes v ++ c'.rest ∧
        c'.offset = c.offset + 4 + v.length := by
  simp only [readBytes, bind_eq_ok, readU32_eq_ok, take_eq_ok]
  constructor
  · rintro ⟨n, c1, ⟨hrest, hoff⟩, hlen, hrest', hoff'⟩
    have hn : v.length.toUInt32 = n := by rw [hlen]; exact UInt32.ofNat_toNat
    refine ⟨hlen ▸ n.toNat_lt, ?_, by omega⟩
    rw [bytes, hn, hrest, hrest', List.append_assoc]
  · rintro ⟨hlt, hrest, hoff⟩
    refine ⟨v.length.toUInt32, ⟨v ++ c'.rest, c.offset + 4⟩, ⟨?_, rfl⟩, ?_, rfl, ?_⟩
    · rw [hrest, bytes, List.append_assoc]
    · exact (UInt32.toNat_ofNat_of_lt' hlt).symm
    · rw [hoff, UInt32.toNat_ofNat_of_lt' hlt]

theorem readText_eq_ok {field : String} {c c' : Cursor} {v : String} :
    readText field c = .ok (v, c') ↔
      (Utf8.encode v).length < UInt32.size ∧ c.rest = text v ++ c'.rest ∧
        c'.offset = c.offset + 4 + (Utf8.encode v).length := by
  simp only [readText, bind_eq_ok, readBytes_eq_ok]
  constructor
  · rintro ⟨bs, c1, ⟨hlt, hrest, hoff⟩, h⟩
    -- the bytes are read whole first; only then are they checked as UTF-8
    cases hs : Utf8.decode bs with
    | error e =>
      rw [hs] at h
      exact absurd h throw_ne_ok
    | ok s =>
      rw [hs] at h
      obtain ⟨rfl, rfl⟩ := pure_eq_ok.1 h
      rw [Utf8.decode_eq_ok_iff] at hs
      subst hs
      exact ⟨hlt, hrest, hoff⟩
  · rintro ⟨hlt, hrest, hoff⟩
    refine ⟨Utf8.encode v, c', ⟨hlt, hrest, hoff⟩, ?_⟩
    rw [Utf8.decode_encode]
    rfl

theorem atEnd_eq_ok {c c' : Cursor} {e : Bool} :
    atEnd c = .ok (e, c') ↔ e = c.rest.isEmpty ∧ c' = c := by
  show Except.ok _ = _ ↔ _
  simp only [Except.ok.injEq, Prod.mk.injEq]
  exact ⟨fun ⟨h1, h2⟩ => ⟨h1.symm, h2.symm⟩, fun ⟨h1, h2⟩ => ⟨h1.symm, h2.symm⟩⟩

/-! ### Reading back what was written -/

theorem readBool_append (field : String) (b : Bool) (rest : Bytes) (off : Nat) :
    readBool field ⟨bool b ++ rest, off⟩ = .ok (b, ⟨rest, off + 1⟩) :=
  readBool_eq_ok.2 ⟨rfl, rfl⟩

theorem readU8_append (field : String) (b : UInt8) (rest : Bytes) (off : Nat) :
    readU8 field ⟨u8 b ++ rest, off⟩ = .ok (b, ⟨rest, off + 1⟩) :=
  readU8_eq_ok.2 ⟨rfl, rfl⟩

theorem readU32_append (field : String) (v : UInt32) (rest : Bytes) (off : Nat) :
    readU32 field ⟨u32 v ++ rest, off⟩ = .ok (v, ⟨rest, off + 4⟩) :=
  readU32_eq_ok.2 ⟨rfl, rfl⟩

theorem readU64_append (field : String) (v : UInt64) (rest : Bytes) (off : Nat) :
    readU64 field ⟨u64 v ++ rest, off⟩ = .ok (v, ⟨rest, off + 8⟩) :=
  readU64_eq_ok.2 ⟨rfl, rfl⟩

theorem readAddress_append (field : String) (a : Address) (rest : Bytes) (off : Nat) :
    readAddress field ⟨address a ++ rest, off⟩ = .ok (a, ⟨rest, off + 32⟩) :=
  readAddress_eq_ok.2 ⟨rfl, rfl⟩

theorem readBytes_append (field : String) {b : Bytes} (h : b.length < UInt32.size)
    (rest : Bytes) (off : Nat) :
    readBytes field ⟨bytes b ++ rest, off⟩ = .ok (b, ⟨rest, off + 4 + b.length⟩) :=
  readBytes_eq_ok.2 ⟨h, rfl, rfl⟩

theorem readText_append (field : String) {s : String} (h : (Utf8.encode s).length < UInt32.size)
    (rest : Bytes) (off : Nat) :
    readText field ⟨text s ++ rest, off⟩ = .ok (s, ⟨rest, off + 4 + (Utf8.encode s).length⟩) :=
  readText_eq_ok.2 ⟨h, rfl, rfl⟩

/-! ### Whole records -/

/-- A record decodes to `v` when the buffer reaches the least length and the reader takes all
of it. -/
theorem decodeRecord_eq_ok {α : Type} {kind : RecordKind} {minLen : Nat} {read : Reader α}
    {input : Bytes} {v : α} :
    decodeRecord kind minLen read input = .ok v ↔
      minLen ≤ input.length ∧ ∃ c', read (Cursor.start input) = .ok (v, c') ∧ c'.rest = [] := by
  unfold decodeRecord
  split
  · rename_i hlt
    simp only [reduceCtorEq, false_iff, not_and]
    intro hle
    omega
  · rename_i hge
    split
    · rename_i f hf
      simp only [reduceCtorEq, false_iff, not_and, not_exists]
      intro _ c' hc
      rw [hf] at hc
      cases hc
    · rename_i w c hc
      simp only [Nat.not_lt] at hge
      split
      · rename_i he
        simp only [Except.ok.injEq, hge, true_and]
        constructor
        · rintro rfl
          exact ⟨c, hc, List.isEmpty_iff.1 he⟩
        · rintro ⟨c', hc', _⟩
          rw [hc] at hc'
          cases hc'
          rfl
      · rename_i he
        simp only [reduceCtorEq, false_iff, not_and, not_exists]
        intro _ c' hc' hrest
        rw [hc] at hc'
        cases hc'
        exact he (List.isEmpty_iff.2 hrest)

/-- A record whose reader accepts exactly its writer's bytes, each at least `minLen` long,
decodes exactly its writings. -/
theorem decodeRecord_eq_ok_iff {α : Type} {kind : RecordKind} {minLen : Nat} {read : Reader α}
    {write : α → Bytes} (hlen : ∀ v, minLen ≤ (write v).length)
    (sound : ∀ {c c' : Cursor} {v : α}, read c = .ok (v, c') → c.rest = write v ++ c'.rest)
    (complete : ∀ v, ∃ c', read (Cursor.start (write v)) = .ok (v, c') ∧ c'.rest = [])
    {input : Bytes} {v : α} :
    decodeRecord kind minLen read input = .ok v ↔ input = write v := by
  rw [decodeRecord_eq_ok]
  constructor
  · rintro ⟨-, c', hc, hrest⟩
    have h := sound hc
    rwa [hrest, List.append_nil] at h
  · rintro rfl
    exact ⟨hlen v, complete v⟩

end Wire

end TokenBridge
