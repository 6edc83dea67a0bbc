import TokenBridge.Text.Utf8
/-!
UTF-8 reading inverts UTF-8 writing: `decode bs = .ok s` holds exactly when `bs = encode s`.

Writing a character follows the width classes of its code point (one byte up to U+007F, two up to
U+07FF, three up to U+FFFF, four beyond). Reading recognises a sequence by its lead byte, checks
the range of the second byte and the continuation bytes, and assembles the code point. The proof
works one sequence at a time: a written character reads back as itself (`decodeFrom_encodeChar_append`),
and each sequence the reader accepts is the writing of the character it yields (`encodeChar_two`
and its siblings). Both directions are then inductions over the text or over the reader's
recursion.
-/

namespace TokenBridge.Utf8

/-! ### Bytes as numbers -/

theorem isContinuation_iff (b : UInt8) : isContinuation b = true ↔ b.toNat / 64 = 2 := by
  have key : ∀ n < 256, (n &&& 192 = 128 ↔ n / 64 = 2) := by decide +kernel
  simp only [isContinuation, beq_iff_eq, ← UInt8.toNat_inj, UInt8.toNat_and]
  exact key b.toNat b.toNat_lt

theorem payload_eq (b : UInt8) : payload b = b.toNat % 64 := by
  simp only [payload, UInt8.toNat_and]
  exact Nat.and_two_pow_sub_one_eq_mod _ 6

theorem toNat_and_31 (b : UInt8) : (b &&& 31).toNat = b.toNat % 32 := by
  rw [UInt8.toNat_and]; exact Nat.and_two_pow_sub_one_eq_mod _ 5

theorem toNat_and_15 (b : UInt8) : (b &&& 15).toNat = b.toNat % 16 := by
  rw [UInt8.toNat_and]; exact Nat.and_two_pow_sub_one_eq_mod _ 4

theorem toNat_and_7 (b : UInt8) : (b &&& 7).toNat = b.toNat % 8 := by
  rw [UInt8.toNat_and]; exact Nat.and_two_pow_sub_one_eq_mod _ 3

/-- The second byte of a three- or four-byte sequence, as bounds that depend on the lead byte. -/
theorem secondFits_iff (b0 b1 : UInt8) : secondFits b0 b1 = true ↔
    (b0.toNat = 0xE0 → 0xA0 ≤ b1.toNat) ∧ (b0.toNat = 0xED → b1.toNat ≤ 0x9F) ∧
    (b0.toNat = 0xF0 → 0x90 ≤ b1.toNat) ∧ (b0.toNat = 0xF4 → b1.toNat ≤ 0x8F) ∧
    0x80 ≤ b1.toNat ∧ b1.toNat ≤ 0xBF := by
  simp only [secondFits, beq_iff_eq, ← UInt8.toNat_inj, UInt8.le_iff_toNat_le, UInt8.reduceToNat]
  by_cases e0 : b0.toNat = 224 <;> by_cases e1 : b0.toNat = 237 <;> by_cases e2 : b0.toNat = 240 <;>
    by_cases e3 : b0.toNat = 244 <;> simp [e0, e1, e2, e3] <;> omega

theorem toNat_ofNat_byte {n : Nat} (h : n < 256) : (UInt8.ofNat n).toNat = n := by
  rw [UInt8.toNat_ofNat']; exact Nat.mod_eq_of_lt h

theorem byte_ext {b : UInt8} {n : Nat} (h : b.toNat = n) : UInt8.ofNat n = b := by
  apply UInt8.toNat_inj.1
  rw [toNat_ofNat_byte (h ▸ b.toNat_lt), h]

theorem toNat_ofNat_char {n : Nat} (h : n.isValidChar) : (Char.ofNat n).toNat = n := by
  -- unfolded by conversion: the equation lemmas of these core definitions are not generated here
  show (if h : n.isValidChar then Char.ofNatAux n h else Char.ofNat 0).toNat = n
  rw [dif_pos h]
  rfl

/-! ### The reader on each width of sequence -/

theorem decodeFrom_one {b0 : UInt8} (h : b0.toNat < 0x80) (i : Nat) (rest : Bytes) :
    decodeFrom i (b0 :: rest) = (Char.ofNat b0.toNat :: ·) <$> decodeFrom (i + 1) rest := by
  rw [decodeFrom.eq_def]
  simp [UInt8.lt_iff_toNat_lt, h]

theorem decodeFrom_two {b0 b1 : UInt8} (h0 : 0xC2 ≤ b0.toNat ∧ b0.toNat ≤ 0xDF)
    (h1 : b1.toNat / 64 = 2) (i : Nat) (rest : Bytes) :
    decodeFrom i (b0 :: b1 :: rest) =
      (Char.ofNat ((b0 &&& 0x1F).toNat * 64 + payload b1) :: ·) <$> decodeFrom (i + 2) rest := by
  have hlt : ¬ b0.toNat < 0x80 := by omega
  rw [decodeFrom.eq_def]
  simp only [UInt8.lt_iff_toNat_lt, UInt8.le_iff_toNat_le, Bool.and_eq_true, decide_eq_true_eq,
    UInt8.reduceToNat, if_neg hlt, if_pos h0, (isContinuation_iff b1).2 h1, if_true]

theorem decodeFrom_three {b0 b1 b2 : UInt8} (h0 : 0xE0 ≤ b0.toNat ∧ b0.toNat ≤ 0xEF)
    (h1 : secondFits b0 b1 = true) (h2 : b2.toNat / 64 = 2) (i : Nat) (rest : Bytes) :
    decodeFrom i (b0 :: b1 :: b2 :: rest) =
      (Char.ofNat ((b0 &&& 0x0F).toNat * 4096 + payload b1 * 64 + payload b2) :: ·) <$>
        decodeFrom (i + 3) rest := by
  have hlt : ¬ b0.toNat < 0x80 := by omega
  have hn2 : ¬ (0xC2 ≤ b0.toNat ∧ b0.toNat ≤ 0xDF) := by omega
  rw [decodeFrom.eq_def]
  simp only [UInt8.lt_iff_toNat_lt, UInt8.le_iff_toNat_le, Bool.and_eq_true, decide_eq_true_eq,
    UInt8.reduceToNat, if_neg hlt, if_neg hn2, if_pos h0, h1, (isContinuation_iff b2).2 h2,
    if_true, Bool.not_true, Bool.false_eq_true, if_false]

theorem decodeFrom_four {b0 b1 b2 b3 : UInt8} (h0 : 0xF0 ≤ b0.toNat ∧ b0.toNat ≤ 0xF4)
    (h1 : secondFits b0 b1 = true) (h2 : b2.toNat / 64 = 2) (h3 : b3.toNat / 64 = 2)
    (i : Nat) (rest : Bytes) :
    decodeFrom i (b0 :: b1 :: b2 :: b3 :: rest) =
      (Char.ofNat ((b0 &&& 0x07).toNat * 262144 + payload b1 * 4096 + payload b2 * 64
        + payload b3) :: ·) <$> decodeFrom (i + 4) rest := by
  have hlt : ¬ b0.toNat < 0x80 := by omega
  have hn2 : ¬ (0xC2 ≤ b0.toNat ∧ b0.toNat ≤ 0xDF) := by omega
  have hn3 : ¬ (0xE0 ≤ b0.toNat ∧ b0.toNat ≤ 0xEF) := by omega
  rw [decodeFrom.eq_def]
  simp only [UInt8.lt_iff_toNat_lt, UInt8.le_iff_toNat_le, Bool.and_eq_true, decide_eq_true_eq,
    UInt8.reduceToNat, if_neg hlt, if_neg hn2, if_neg hn3, if_pos h0, h1,
    (isContinuation_iff b2).2 h2, (isContinuation_iff b3).2 h3, if_true, Bool.not_true,
    Bool.false_eq_true, if_false]

/-! ### A written character reads back -/

/-- The bytes of one character, followed by anything, read as that character first. -/
theorem decodeFrom_encodeChar_append (c : Char) (i : Nat) (rest : Bytes) :
    decodeFrom i (String.utf8EncodeChar c ++ rest) =
      (c :: ·) <$> decodeFrom (i + (String.utf8EncodeChar c).length) rest := by
  -- a code point is below U+D800, or above the surrogates and at most U+10FFFF
  have hv : c.toNat < 0xD800 ∨ (0xDFFF < c.toNat ∧ c.toNat < 0x110000) := c.valid
  have hn : c.val.toNat = c.toNat := rfl
  dsimp only [String.utf8EncodeChar]
  rw [hn]
  split
  · rw [List.singleton_append, decodeFrom_one (by rw [toNat_ofNat_byte (by omega)]; omega),
      toNat_ofNat_byte (by omega), Char.ofNat_toNat]
    rfl
  split
  · have e0 := toNat_ofNat_byte (n := c.toNat / 64 % 32 + 192) (by omega)
    have e1 := toNat_ofNat_byte (n := c.toNat % 64 + 128) (by omega)
    rw [List.cons_append, List.cons_append, List.nil_append,
      decodeFrom_two (by omega) (by omega), toNat_and_31, payload_eq, e0, e1]
    have : (c.toNat / 64 % 32 + 192) % 32 * 64 + (c.toNat % 64 + 128) % 64 = c.toNat := by omega
    rw [this, Char.ofNat_toNat]
    rfl
  split
  · have e0 := toNat_ofNat_byte (n := c.toNat / 4096 % 16 + 224) (by omega)
    have e1 := toNat_ofNat_byte (n := c.toNat / 64 % 64 + 128) (by omega)
    have e2 := toNat_ofNat_byte (n := c.toNat % 64 + 128) (by omega)
    -- the lead bytes 0xE0 and 0xED bound the second byte; no surrogate reaches 0xED's bound
    have fits : secondFits (UInt8.ofNat (c.toNat / 4096 % 16 + 224))
        (UInt8.ofNat (c.toNat / 64 % 64 + 128)) = true := by
      rw [secondFits_iff, e0, e1]; omega
    rw [List.cons_append, List.cons_append, List.cons_append, List.nil_append,
      decodeFrom_three (by omega) fits (by omega), toNat_and_15, payload_eq, payload_eq, e0, e1, e2]
    have : (c.toNat / 4096 % 16 + 224) % 16 * 4096 + (c.toNat / 64 % 64 + 128) % 64 * 64
        + (c.toNat % 64 + 128) % 64 = c.toNat := by omega
    rw [this, Char.ofNat_toNat]
    rfl
  · have e0 := toNat_ofNat_byte (n := c.toNat / 262144 % 8 + 240) (by omega)
    have e1 := toNat_ofNat_byte (n := c.toNat / 4096 % 64 + 128) (by omega)
    have e2 := toNat_ofNat_byte (n := c.toNat / 64 % 64 + 128) (by omega)
    have e3 := toNat_ofNat_byte (n := c.toNat % 64 + 128) (by omega)
    have fits : secondFits (UInt8.ofNat (c.toNat / 262144 % 8 + 240))
        (UInt8.ofNat (c.toNat / 4096 % 64 + 128)) = true := by
      rw [secondFits_iff, e0, e1]; omega
    rw [List.cons_append, List.cons_append, List.cons_append, List.cons_append, List.nil_append,
      decodeFrom_four (by omega) fits (by omega) (by omega), toNat_and_7, payload_eq, payload_eq,
      payload_eq, e0, e1, e2, e3]
    have : (c.toNat / 262144 % 8 + 240) % 8 * 262144 + (c.toNat / 4096 % 64 + 128) % 64 * 4096
        + (c.toNat / 64 % 64 + 128) % 64 * 64 + (c.toNat % 64 + 128) % 64 = c.toNat := by omega
    rw [this, Char.ofNat_toNat]
    rfl

theorem decodeFrom_flatMap (cs : List Char) (i : Nat) :
    decodeFrom i (cs.flatMap String.utf8EncodeChar) = .ok cs := by
  induction cs generalizing i with
  | nil => rw [List.flatMap_nil, decodeFrom.eq_def]
  | cons c cs ih =>
    rw [List.flatMap_cons, decodeFrom_encodeChar_append, ih]
    rfl

/-! ### An accepted sequence is a written character -/

theorem encodeChar_one {b0 : UInt8} (h : b0.toNat < 0x80) :
    String.utf8EncodeChar (Char.ofNat b0.toNat) = [b0] := by
  have hn := toNat_ofNat_char (n := b0.toNat) (Or.inl (by omega))
  dsimp only [String.utf8EncodeChar]
  rw [show (Char.ofNat b0.toNat).val.toNat = b0.toNat from hn, if_pos (by omega), byte_ext rfl]

theorem encodeChar_two {b0 b1 : UInt8} (h0 : 0xC2 ≤ b0.toNat ∧ b0.toNat ≤ 0xDF)
    (h1 : b1.toNat / 64 = 2) :
    String.utf8EncodeChar (Char.ofNat ((b0 &&& 0x1F).toNat * 64 + payload b1)) = [b0, b1] := by
  rw [toNat_and_31, payload_eq]
  have hn := toNat_ofNat_char (n := b0.toNat % 32 * 64 + b1.toNat % 64) (Or.inl (by omega))
  dsimp only [String.utf8EncodeChar]
  rw [show (Char.ofNat _).val.toNat = _ from hn, if_neg (by omega), if_pos (by omega),
    byte_ext (b := b0) (by omega), byte_ext (b := b1) (by omega)]

theorem encodeChar_three {b0 b1 b2 : UInt8} (h0 : 0xE0 ≤ b0.toNat ∧ b0.toNat ≤ 0xEF)
    (h1 : secondFits b0 b1 = true) (h2 : b2.toNat / 64 = 2) :
    String.utf8EncodeChar (Char.ofNat ((b0 &&& 0x0F).toNat * 4096 + payload b1 * 64 + payload b2))
      = [b0, b1, b2] := by
  rw [secondFits_iff] at h1
  rw [toNat_and_15, payload_eq, payload_eq]
  -- the second byte's bounds keep the code point out of the overlong forms and the surrogates
  have hn := toNat_ofNat_char (n := b0.toNat % 16 * 4096 + b1.toNat % 64 * 64 + b2.toNat % 64)
    (by unfold Nat.isValidChar; omega)
  dsimp only [String.utf8EncodeChar]
  rw [show (Char.ofNat _).val.toNat = _ from hn, if_neg (by omega), if_neg (by omega),
    if_pos (by omega), byte_ext (b := b0) (by omega), byte_ext (b := b1) (by omega),
    byte_ext (b := b2) (by omega)]

theorem encodeChar_four {b0 b1 b2 b3 : UInt8} (h0 : 0xF0 ≤ b0.toNat ∧ b0.toNat ≤ 0xF4)
    (h1 : secondFits b0 b1 = true) (h2 : b2.toNat / 64 = 2) (h3 : b3.toNat / 64 = 2) :
    String.utf8EncodeChar (Char.ofNat ((b0 &&& 0x07).toNat * 262144 + payload b1 * 4096
      + payload b2 * 64 + payload b3)) = [b0, b1, b2, b3] := by
  rw [secondFits_iff] at h1
  rw [toNat_and_7, payload_eq, payload_eq, payload_eq]
  -- the second byte's bounds keep the code point between U+10000 and U+10FFFF
  have hn := toNat_ofNat_char
    (n := b0.toNat % 8 * 262144 + b1.toNat % 64 * 4096 + b2.toNat % 64 * 64 + b3.toNat % 64)
    (by unfold Nat.isValidChar; omega)
  dsimp only [String.utf8EncodeChar]
  rw [show (Char.ofNat _).val.toNat = _ from hn, if_neg (by omega), if_neg (by omega),
    if_neg (by omega), byte_ext (b := b0) (by omega), byte_ext (b := b1) (by omega),
    byte_ext (b := b2) (by omega), byte_ext (b := b3) (by omega)]

theorem map_eq_ok {ε α β : Type} {f : α → β} {x : Except ε α} {y : β} :
    f <$> x = .ok y ↔ ∃ a, x = .ok a ∧ f a = y := by
  cases x <;> simp [Functor.map, Except.map]

/-- Whatever the reader accepts is the writing of the characters it returns. -/
theorem flatMap_of_decodeFrom {i : Nat} {bs : Bytes} {cs : List Char}
    (h : decodeFrom i bs = .ok cs) : cs.flatMap String.utf8EncodeChar = bs := by
  -- the reader's own recursion: one case per accepted width, the rest are refusals
  fun_induction decodeFrom i bs generalizing cs
  case case1 => cases h; rfl
  case case2 i b0 rest hb ih =>
    obtain ⟨cs', hcs', rfl⟩ := map_eq_ok.1 h
    rw [List.flatMap_cons, encodeChar_one (UInt8.lt_iff_toNat_lt.1 hb), ih hcs']
    rfl
  case case4 i b0 _ h0 b1 rest h1 ih =>
    obtain ⟨cs', hcs', rfl⟩ := map_eq_ok.1 h
    simp only [UInt8.le_iff_toNat_le, Bool.and_eq_true, decide_eq_true_eq, UInt8.reduceToNat] at h0
    rw [List.flatMap_cons, encodeChar_two h0 ((isContinuation_iff b1).1 h1), ih hcs']
    rfl
  case case9 i b0 _ _ h0 b1 h1 b2 rest h2 ih =>
    obtain ⟨cs', hcs', rfl⟩ := map_eq_ok.1 h
    simp only [UInt8.le_iff_toNat_le, Bool.and_eq_true, decide_eq_true_eq, UInt8.reduceToNat] at h0
    simp only [Bool.not_eq_true', Bool.not_eq_false] at h1
    rw [List.flatMap_cons, encodeChar_three h0 h1 ((isContinuation_iff b2).1 h2), ih hcs']
    rfl
  case case16 i b0 _ _ _ h0 b1 h1 b2 h2 b3 rest h3 ih =>
    obtain ⟨cs', hcs', rfl⟩ := map_eq_ok.1 h
    simp only [UInt8.le_iff_toNat_le, Bool.and_eq_true, decide_eq_true_eq, UInt8.reduceToNat] at h0
    simp only [Bool.not_eq_true', Bool.not_eq_false] at h1 h2
    rw [List.flatMap_cons, encodeChar_four h0 h1 ((isContinuation_iff b2).1 h2)
      ((isContinuation_iff b3).1 h3), ih hcs']
    rfl
  all_goals cases h

/-! ### Texts -/

theorem decode_encode (s : String) : decode (encode s) = .ok s := by
  rw [decode, encode, decodeFrom_flatMap]
  exact congrArg Except.ok String.ofList_toList

theorem encode_of_decode {bs : Bytes} {s : String} (h : decode bs = .ok s) : encode s = bs := by
  obtain ⟨cs, hcs, rfl⟩ := map_eq_ok.1 h
  rw [encode, String.toList_ofList, flatMap_of_decodeFrom hcs]

/-- A byte string reads as a text exactly when it is that text's UTF-8 writing. -/
theorem decode_eq_ok_iff {bs : Bytes} {s : String} : decode bs = .ok s ↔ bs = encode s :=
  ⟨fun h => (encode_of_decode h).symm, fun h => h ▸ decode_encode s⟩

end TokenBridge.Utf8
