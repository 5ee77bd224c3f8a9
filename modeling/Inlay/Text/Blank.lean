/-!
# Blank characters

Which characters separate words: the ASCII blanks, the no-break spaces, the space separators, the
two line separators and the byte order mark. The control character U+0085 is **not** among them,
although some classes of white space have it.
-/

namespace Inlay.Text

/-- The inclusive ranges of code points that count as blank, in ascending order. -/
def blankRanges : List (Nat × Nat) :=
  [(0x09, 0x0d), (0x20, 0x20), (0xa0, 0xa0), (0x1680, 0x1680), (0x2000, 0x200a), (0x2028, 0x2029),
    (0x202f, 0x202f), (0x205f, 0x205f), (0x3000, 0x3000), (0xfeff, 0xfeff)]

/-- A character is blank when one of the ranges holds its code point. -/
def isBlank (c : Char) : Bool :=
  blankRanges.any fun range => range.1 ≤ c.toNat && c.toNat ≤ range.2

-- The next-line control separates nothing, unlike the controls before it.
example : isBlank '\u0085' = false := by decide

/-- A text without the blanks at its two ends. -/
def trimBlank (cs : List Char) : List Char :=
  ((cs.dropWhile isBlank).reverse.dropWhile isBlank).reverse

/-- The visible characters of ASCII are not blank. -/
theorem isBlank_of_visible {c : Char} (low : 0x21 ≤ c.toNat) (high : c.toNat ≤ 0x7e) :
    isBlank c = false := by
  simp only [isBlank, blankRanges, List.any_cons, List.any_nil, Bool.or_false, Bool.or_eq_false_iff,
    Bool.and_eq_false_iff, decide_eq_false_iff_not]
  omega

end Inlay.Text
