import Inlay.Proofs.Number.Whole
import Inlay.Value.Path

/-!
# Segments that are indices

A segment is read as an index where it is the decimal text of a natural number below the limit, and
as that number (`index?_eq_some_iff`). Every other segment is refused for one of four reasons, which
`NotIndex` lists.
-/

namespace Inlay.Value

open Decimal

theorem toList_toString (n : Nat) : (toString n).toList = Nat.toDigits 10 n := by
  rw [Nat.toString_eq_ofList_toDigits, String.toList_ofList]

/-- A natural number is known from its decimal text. -/
theorem toString_injective {m n : Nat} (same : toString m = toString n) : m = n := by
  have digits : Nat.toDigits 10 m = Nat.toDigits 10 n := by
    rw [← toList_toString, same, toList_toString]
  rw [← digitsValue_toDigits m, digits, digitsValue_toDigits]

theorem isDigit_of_mem_toString {n : Nat} {c : Char} (mem : c ∈ (toString n).toList) :
    c.isDigit = true := by
  rw [toList_toString] at mem
  exact isDigit_of_mem_toDigits mem

/-- No index is taken for the length. -/
theorem toString_ne_length (n : Nat) : toString n ≠ "length" := by
  intro same
  have letter : 'l' ∈ (toString n).toList := by
    rw [same]
    decide
  exact absurd (isDigit_of_mem_toString letter) (by decide)

theorem indexLimit_pos : 0 < indexLimit :=
  Number.twoPow_pos 64

theorem index?_zero {segment : String} (text : segment.toList = ['0']) :
    index? segment = some 0 := by
  rw [index?, text]
  rfl

theorem index?_zero_before {segment : String} {c : Char} {cs : List Char}
    (text : segment.toList = '0' :: c :: cs) : index? segment = none := by
  rw [index?, text]
  rfl

/-- Without a zero in front, digits of a value below the limit are an index. -/
theorem index?_of_head {segment : String} (head : segment.toList.head? ≠ some '0') :
    index? segment =
      if isDigits segment.toList && digitsValue segment.toList < indexLimit then
        some (digitsValue segment.toList)
      else none := by
  rw [index?]
  split
  · rename_i text
    exact absurd (text ▸ rfl) head
  · rename_i text
    exact absurd (text ▸ rfl) head
  · rfl

/-- A segment is read as an index just where it is the decimal text of the index. -/
theorem index?_eq_some_iff {segment : String} {i : Nat} :
    index? segment = some i ↔ segment = toString i ∧ i < indexLimit := by
  rw [← String.toList_inj, toList_toString]
  by_cases head : segment.toList.head? = some '0'
  · have zero (same : segment.toList = Nat.toDigits 10 i) : i = 0 :=
      Nat.eq_zero_of_not_pos fun positive => head?_toDigits positive (same ▸ head)
    obtain ⟨rest, text⟩ := List.head?_eq_some_iff.mp head
    cases rest with
    | nil =>
      rw [index?_zero text, Option.some.injEq]
      constructor
      · rintro rfl
        exact ⟨text, indexLimit_pos⟩
      · intro ⟨same, _⟩
        exact (zero same).symm
    | cons c cs =>
      rw [index?_zero_before text]
      refine ⟨nofun, fun ⟨same, _⟩ => ?_⟩
      rw [zero same, Nat.toDigits_zero, text] at same
      cases same
  · rw [index?_of_head head]
    constructor
    · intro found
      split at found
      · rename_i accepted
        simp only [Bool.and_eq_true, decide_eq_true_eq] at accepted
        cases found
        exact ⟨(toDigits_digitsValue accepted.1 head).symm, accepted.2⟩
      · cases found
    · intro ⟨same, small⟩
      rw [same, isDigits_toDigits, digitsValue_toDigits, Bool.true_and,
        if_pos (decide_eq_true small)]

theorem index?_toString {i : Nat} (small : i < indexLimit) : index? (toString i) = some i :=
  index?_eq_some_iff.mpr ⟨rfl, small⟩

/-- The reasons for which a segment is no index: there is nothing in it, or something that is not an
ASCII digit, such as a sign; a zero stands before other digits; or the number is too large. -/
inductive NotIndex : String → Prop
  | empty : NotIndex ""
  | character {segment : String} {c : Char} :
    c ∈ segment.toList → c.isDigit = false → NotIndex segment
  | leadingZero {segment : String} {c : Char} {cs : List Char} :
    segment.toList = '0' :: c :: cs → NotIndex segment
  | large {i : Nat} : indexLimit ≤ i → NotIndex (toString i)

theorem exists_not_isDigit {segment : String} (some : segment ≠ "")
    (other : isDigits segment.toList ≠ true) : ∃ c ∈ segment.toList, c.isDigit = false := by
  have letters : segment.toList ≠ [] := mt String.toList_eq_nil_iff.mp some
  simpa [isDigits, letters] using other

/-- A segment is refused as an index for one of the reasons, and for no other. -/
theorem index?_eq_none_iff {segment : String} : index? segment = none ↔ NotIndex segment := by
  constructor
  · intro refused
    by_cases empty : segment = ""
    · rw [empty]
      exact .empty
    · by_cases digits : isDigits segment.toList = true
      · by_cases head : segment.toList.head? = some '0'
        · obtain ⟨rest, text⟩ := List.head?_eq_some_iff.mp head
          cases rest with
          | nil =>
            rw [index?_zero text] at refused
            cases refused
          | cons c cs => exact .leadingZero text
        · have same : toString (digitsValue segment.toList) = segment := by
            rw [← String.toList_inj, toList_toString, toDigits_digitsValue digits head]
          rw [← same] at refused ⊢
          apply NotIndex.large
          apply Nat.le_of_not_lt
          intro small
          rw [index?_toString small] at refused
          cases refused
      · obtain ⟨c, mem, other⟩ := exists_not_isDigit empty digits
        exact .character mem other
  · intro reason
    -- A segment that was read as an index would be the text of that index.
    refine Option.eq_none_iff_forall_ne_some.mpr fun i found => ?_
    obtain ⟨same, small⟩ := index?_eq_some_iff.mp found
    cases reason with
    | empty => cases found
    | character mem other =>
      rw [same] at mem
      rw [isDigit_of_mem_toString mem] at other
      cases other
    | leadingZero text =>
      rw [index?_zero_before text] at found
      cases found
    | large large =>
      rw [toString_injective same] at large
      omega

end Inlay.Value
