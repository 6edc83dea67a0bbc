/-!
Blank characters: the Unicode White_Space property, and trimming it from both ends of a text.

The property holds of the ASCII tab, line feed, vertical tab, form feed, carriage return and
space, of U+0085 and U+00A0, of U+1680, of the spaces U+2000 to U+200A, of the line and
paragraph separators U+2028 and U+2029, and of U+202F, U+205F and U+3000. The zero-width space
U+200B is not blank.
-/

namespace TokenBridge.Blank

/-- The Unicode White_Space property. -/
def isBlank (c : Char) : Bool :=
  let n := c.toNat
  (0x09 ≤ n && n ≤ 0x0D) || n == 0x20 || n == 0x85 || n == 0xA0 || n == 0x1680
    || (0x2000 ≤ n && n ≤ 0x200A) || n == 0x2028 || n == 0x2029 || n == 0x202F || n == 0x205F
    || n == 0x3000

/-- The text without its leading and trailing blanks. -/
def trim (s : String) : String :=
  String.ofList ((s.toList.dropWhile isBlank).reverse.dropWhile isBlank).reverse

theorem isBlank_of_isWhitespace (c : Char) (h : c.isWhitespace = true) : isBlank c = true := by
  simp only [Char.isWhitespace, Bool.or_eq_true, decide_eq_true_eq] at h
  simp only [isBlank, Bool.or_eq_true, Bool.and_eq_true, decide_eq_true_eq, beq_iff_eq]
  rcases h with ((h | h) | h) | h <;> simp [h]

end TokenBridge.Blank
