import Mathlib.Data.List.TakeWhile
import Mathlib.Tactic.Choose
import TokenBridge.Proofs.LogLines
/-!
Reading transfer lines, whatever surrounds them.

A transfer line reads back as its record also behind the runtime's `Program log: ` prefix, with
blanks around its hexadecimal, and with that hexadecimal in upper case (`transfer_lines_read`):
the upper-case digits are ASCII as well, none of them is blank, and each reads as its value. Which
lines are transfer lines at all is a matter of prefixes alone: a line is one exactly when, after
one leading `Program log: ` if there is one, it starts with `Bridge: `. Reading the lines of a log
gives the records of its transfer lines in order when all of them decode, and otherwise the error
of the first that does not.
-/

namespace TokenBridge

/-! ### Digits in either case -/

namespace Hex

/-- The byte of the upper-case digit of a value below 16. -/
def upperByte (n : Nat) : UInt8 := (digitChar n).toUpper.toNat.toUInt8

theorem encodeChar_upper : ∀ n < 16, String.utf8EncodeChar (digitChar n).toUpper = [upperByte n] := by
  decide +kernel

theorem digitValue_upperByte : ∀ n < 16, digitValue (upperByte n) = some n := by
  decide +kernel

theorem isBlank_upper : ∀ n < 16, Blank.isBlank (digitChar n).toUpper = false := by
  decide +kernel

/-- A way of writing the digits: each as a character that is no blank and whose UTF-8 is one
byte that reads as the digit's value. -/
def DigitCase (f : Char → Char) : Prop :=
  ∀ n < 16, Blank.isBlank (f (digitChar n)) = false ∧
    ∃ b, String.utf8EncodeChar (f (digitChar n)) = [b] ∧ digitValue b = some n

theorem digitCase_id : DigitCase id := fun n hn =>
  ⟨isBlank_digitChar n hn, digitByte n, encodeChar_digitChar n hn, digitValue_digitByte n hn⟩

theorem digitCase_toUpper : DigitCase Char.toUpper := fun n hn =>
  ⟨isBlank_upper n hn, upperByte n, encodeChar_upper n hn, digitValue_upperByte n hn⟩

variable {f : Char → Char}

theorem isBlank_map_encode (hf : DigitCase f) (bytes : Bytes) :
    ∀ c ∈ (encode bytes).toList.map f, Blank.isBlank c = false := by
  intro c hc
  rw [toList_encode, List.mem_map] at hc
  obtain ⟨d, hd, rfl⟩ := hc
  obtain ⟨b, -, hd⟩ := List.mem_flatMap.1 hd
  obtain ⟨hi, lo⟩ := half_lt b
  simp only [pair, List.mem_cons, List.not_mem_nil, or_false] at hd
  rcases hd with rfl | rfl
  · exact (hf _ hi).1
  · exact (hf _ lo).1

/-- The hexadecimal of `bytes`, each digit written by `f`, decodes to `bytes`. -/
theorem decode_map_encode (hf : DigitCase f) (bytes : Bytes) :
    decode (String.ofList ((encode bytes).toList.map f)) = .ok bytes := by
  -- each digit is one byte; choose, for every value, the byte that `f` writes for it
  choose! digit hdigit using fun n (hn : n < 16) => (hf n hn).2
  have hutf : Utf8.encode (String.ofList ((encode bytes).toList.map f)) =
      bytes.flatMap fun b => [digit (b.toNat / 16), digit (b.toNat % 16)] := by
    rw [Utf8.encode, String.toList_ofList, toList_encode]
    induction bytes with
    | nil => rfl
    | cons b rest ih =>
      obtain ⟨hi, lo⟩ := half_lt b
      simp only [List.flatMap_cons, List.map_append, List.flatMap_append, ih, pair, List.map_cons,
        List.map_nil, List.flatMap_nil, (hdigit _ hi).1, (hdigit _ lo).1, List.append_nil]
      rfl
  have heven : ∀ bs : Bytes,
      (bs.flatMap fun b => [digit (b.toNat / 16), digit (b.toNat % 16)]).length % 2 = 0 := by
    intro bs
    induction bs with
    | nil => rfl
    | cons b rest ih =>
      simp only [List.flatMap_cons, List.length_append, List.length_cons, List.length_nil] at ih ⊢
      omega
  simp only [decode, hutf, heven]
  rw [if_neg (by decide)]
  exact decodePairs_spelled digit (fun n hn => (hdigit n hn).2) bytes 0

end Hex

/-! ### Blanks around a text -/

namespace Blank

theorem dropWhile_of_none {l : List Char} (h : ∀ c ∈ l, isBlank c = false) :
    l.dropWhile isBlank = l := by
  cases l with
  | nil => rfl
  | cons c _ => exact List.dropWhile_cons_of_neg (by simp [h c List.mem_cons_self])

/-- Trimming a text with no blank in it, between blanks, gives the text. -/
theorem trim_between {w₁ t w₂ : List Char} (h₁ : ∀ c ∈ w₁, isBlank c = true)
    (h₂ : ∀ c ∈ w₂, isBlank c = true) (ht : ∀ c ∈ t, isBlank c = false) :
    trim (String.ofList (w₁ ++ t ++ w₂)) = String.ofList t := by
  have h₂' : ∀ c ∈ w₂.reverse, isBlank c = true := fun c hc => h₂ c (List.mem_reverse.1 hc)
  have ht' : ∀ c ∈ t.reverse, isBlank c = false := fun c hc => ht c (List.mem_reverse.1 hc)
  rw [trim, String.toList_ofList, List.append_assoc, List.dropWhile_append_of_pos h₁]
  cases t with
  | nil =>
    -- nothing but blanks: all of it goes
    rw [List.nil_append, List.dropWhile_eq_nil_iff.2 h₂]
    rfl
  | cons c rest =>
    -- the front stops at the text's first character, the back at its last
    rw [List.dropWhile_append, dropWhile_of_none ht, if_neg (by simp), List.reverse_append,
      List.dropWhile_append_of_pos h₂', dropWhile_of_none ht', List.reverse_reverse]

end Blank

/-! ### Which lines are transfer lines -/

namespace LogLine

theorem stripPrefix?_eq_some_iff {p s r : List Char} : stripPrefix? p s = some r ↔ s = p ++ r := by
  induction p generalizing s with
  | nil => simp [stripPrefix?, eq_comm]
  | cons c p ih =>
    cases s with
    | nil => simp [stripPrefix?]
    | cons d s =>
      by_cases hcd : c = d
      · subst hcd
        simp [stripPrefix?, ih]
      · simp [stripPrefix?, hcd, Ne.symm hcd]

theorem stripPrefix?_eq_none_iff {p s : List Char} : stripPrefix? p s = none ↔ ¬ p <+: s := by
  constructor
  · rintro h ⟨r, rfl⟩
    rw [stripPrefix?_append] at h
    cases h
  · intro h
    cases hs : stripPrefix? p s with
    | none => rfl
    | some r => exact absurd ⟨r, (stripPrefix?_eq_some_iff.1 hs).symm⟩ h

/-- What is left of a line once one leading prefix `p`, if there is one, is taken off. -/
theorem stripPrefix?_getD (p s : List Char) :
    (stripPrefix? p s).getD s = if p <+: s then s.drop p.length else s := by
  split
  · rename_i hp
    obtain ⟨r, rfl⟩ := hp
    rw [stripPrefix?_append, Option.getD_some, List.drop_left]
  · rename_i hp
    rw [stripPrefix?_eq_none_iff.2 hp, Option.getD_none]

/-- A line is no transfer line exactly when, after one leading `Program log: ` if there is one,
it does not start with `Bridge: `. -/
theorem parse_eq_none_iff (s : String) :
    parse s = none ↔
      ¬ bridgeTag.toList <+: (if programLogPrefix.toList <+: s.toList then
        s.toList.drop programLogPrefix.toList.length else s.toList) := by
  rw [parse, Option.map_eq_none_iff, stripPrefix?_getD, stripPrefix?_eq_none_iff]

/-- A transfer line, behind an optional `Program log: `, with blanks around its hexadecimal
written by `f`, reads as its record. -/
theorem parse_between {l : TransferLog} (hl : l.Fits) {f : Char → Char} (hf : Hex.DigitCase f)
    {pre w₁ w₂ hex : String} (hpre : pre = "" ∨ pre = programLogPrefix)
    (h₁ : ∀ c ∈ w₁.toList, Blank.isBlank c = true) (h₂ : ∀ c ∈ w₂.toList, Blank.isBlank c = true)
    (hhex : hex.toList = l.display.toList.map f) :
    parse (pre ++ bridgeTag ++ w₁ ++ hex ++ w₂) = some (.ok l) := by
  -- with or without the runtime's prefix, what is read starts with the tag
  have hchars : (stripPrefix? programLogPrefix.toList (pre ++ bridgeTag ++ w₁ ++ hex ++ w₂).toList).getD
      (pre ++ bridgeTag ++ w₁ ++ hex ++ w₂).toList =
        bridgeTag.toList ++ (w₁.toList ++ hex.toList ++ w₂.toList) := by
    rcases hpre with rfl | rfl
    · simp only [String.toList_append, String.toList_empty, List.nil_append, List.append_assoc]
      rw [show programLogPrefix.toList = 'P' :: "rogram log: ".toList by decide, bridgeTag_toList,
        List.cons_append, stripPrefix?_cons_ne (by decide), Option.getD_none]
    · simp only [String.toList_append, List.append_assoc, stripPrefix?_append, Option.getD_some]
  rw [parse, hchars, stripPrefix?_append, Option.map_some, hhex, TransferLog.display,
    Blank.trim_between h₁ h₂ (Hex.isBlank_map_encode hf _), Hex.decode_map_encode hf]
  exact congrArg some (TransferLog.decode_encode hl)

end LogLine

/-! ### Reading a log -/

section Traversal

variable {ε α : Type}

theorem mapM_id_eq_ok {xs : List (Except ε α)} {ys : List α} :
    xs.mapM id = .ok ys ↔ xs = ys.map .ok := by
  induction xs generalizing ys with
  | nil => cases ys <;> simp [pure, Except.pure]
  | cons x xs ih =>
    rw [List.mapM_cons]
    cases x with
    | error e => cases ys <;> simp [bind, Except.bind]
    | ok a =>
      cases ht : xs.mapM id with
      | error e => cases ys <;> simp [bind, Except.bind, ← ih, ht]
      | ok as => cases ys <;> simp [bind, Except.bind, pure, Except.pure, ← ih, ht]

/-- A traversal fails with the error of the first failure, after a run of successes. -/
theorem mapM_id_eq_error {xs : List (Except ε α)} {e : ε} :
    xs.mapM id = .error e ↔ ∃ (pre : List α) (post : List (Except ε α)), xs = pre.map .ok ++ .error e :: post := by
  induction xs with
  | nil => simp [pure, Except.pure]
  | cons x xs ih =>
    rw [List.mapM_cons]
    cases x with
    | error e' =>
      -- the head fails: it is the first failure
      simp only [bind, Except.bind, id, Except.error.injEq]
      constructor
      · rintro rfl
        exact ⟨[], xs, rfl⟩
      · rintro ⟨pre, post, h⟩
        cases pre with
        | nil => exact Except.error.inj (List.cons.inj h).1
        | cons a pre => exact absurd (List.cons.inj h).1 (by simp)
    | ok a =>
      cases ht : xs.mapM id with
      | error e' =>
        simp only [bind, Except.bind, id, Except.error.injEq]
        constructor
        · rintro rfl
          obtain ⟨pre, post, hxs⟩ := ih.1 ht
          exact ⟨a :: pre, post, by rw [hxs]; rfl⟩
        · rintro ⟨pre, post, h⟩
          cases pre with
          | nil => exact absurd (List.cons.inj h).1 (by simp)
          | cons b pre =>
            obtain ⟨-, hxs⟩ := List.cons.inj h
            have := ih.2 ⟨pre, post, hxs⟩
            rw [ht] at this
            exact Except.error.inj this
      | ok as =>
        simp only [bind, Except.bind, id, pure, Except.pure, reduceCtorEq, false_iff, not_exists]
        intro pre post h
        cases pre with
        | nil => exact absurd (List.cons.inj h).1 (by simp)
        | cons b pre =>
          obtain ⟨-, hxs⟩ := List.cons.inj h
          have := ih.2 ⟨pre, post, hxs⟩
          rw [ht] at this
          cases this

end Traversal

namespace LogLine

/-- Reading transfer lines. A transfer's line reads back as the transfer, with or without the
runtime's `Program log: ` before it, with blanks around its hexadecimal, and with the hexadecimal
in upper case; a line is no transfer line exactly when, after one leading `Program log: ` if there
is one, it does not start with `Bridge: `; and the transfers of a log are those of its transfer
lines in order when all of them decode, and otherwise the error of the first that does not. -/
theorem transfer_lines_read :
    (∀ l : TransferLog, l.Fits → ∀ pre w₁ w₂ hex : String, (pre = "" ∨ pre = programLogPrefix) →
      (∀ c ∈ w₁.toList ++ w₂.toList, Blank.isBlank c = true) →
      (hex = l.display ∨ hex = l.display.map Char.toUpper) →
      parse (pre ++ bridgeTag ++ w₁ ++ hex ++ w₂) = some (.ok l)) ∧
    (∀ s : String, parse s = none ↔
      ¬ bridgeTag.toList <+: (if programLogPrefix.toList <+: s.toList then
        s.toList.drop programLogPrefix.toList.length else s.toList)) ∧
    ∀ lines : List String,
      (∀ logs, extract lines = .ok logs ↔ lines.filterMap parse = logs.map .ok) ∧
      ∀ e, extract lines = .error e ↔
        ∃ (pre : List TransferLog) (post : List (Except CodecError TransferLog)),
          lines.filterMap parse = pre.map .ok ++ .error e :: post := by
  refine ⟨fun l hl pre w₁ w₂ hex hpre hw hhex => ?_, parse_eq_none_iff, fun lines =>
    ⟨fun _ => mapM_id_eq_ok, fun _ => mapM_id_eq_error⟩⟩
  have h₁ : ∀ c ∈ w₁.toList, Blank.isBlank c = true := fun c hc => hw c (List.mem_append_left _ hc)
  have h₂ : ∀ c ∈ w₂.toList, Blank.isBlank c = true := fun c hc => hw c (List.mem_append_right _ hc)
  rcases hhex with rfl | rfl
  · exact parse_between hl Hex.digitCase_id hpre h₁ h₂ (List.map_id _).symm
  · exact parse_between hl Hex.digitCase_toUpper hpre h₁ h₂ String.toList_map

end LogLine

end TokenBridge
