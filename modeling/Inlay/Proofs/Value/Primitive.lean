import Inlay.Proofs.Number.Text
import Inlay.Proofs.Value.Order

/-!
# Values as numbers and their texts

An array and an object count as the number that their texts are (`toNumber_toPrimitive`), though the
texts are not made for it: an array of one item has the text of the item, the text of several has a
comma in it, and the text of an object has brackets, and neither of these is in any number. So the
operators that take their operands as numbers and those that first take their texts see the same
number.
-/

namespace Inlay

namespace Value

open Number

theorem toNumber_string (s : String) : (string s).toNumber = ofText s := rfl

/-- The text of several items has a comma in it. -/
theorem comma_mem_text (item other : Value) (items : List Value) :
    ',' ∈ (array (item :: other :: items)).text.toList := by
  have comma : ",".toList = [','] := rfl
  rw [text, splicedTexts, splicedTexts, String.toList_intercalate, comma]
  simp [List.intercalate]

/-- The text of an array of one item is what stands for the item in other text. -/
theorem text_singleton (item : Value) : (array [item]).text = item.splicedText := by
  rw [text, splicedTexts_eq_map, List.map_singleton, String.intercalate_singleton]

/-- An array counts as the number that its text is: none, if it has several items. -/
theorem toNumber_array : ∀ items : List Value, (array items).toNumber = ofText (array items).text
  | [] => rfl
  | [item] => by rw [toNumber, text_singleton]
  | item :: other :: items => by
    rw [ofText_eq_nan (comma_mem_text item other items) (by decide) (by decide), toNumber]

/-- An object counts as the number that its text is, which is none. -/
theorem toNumber_object (members : Entries Value none) :
    (object members).toNumber = ofText (object members).text := by
  have bracket : '[' ∈ (object members).text.toList := by
    rw [text]
    decide
  rw [ofText_eq_nan bracket (by decide) (by decide), toNumber]

/-- A value counts as the same number as what it gives way to where parts do not count. -/
theorem toNumber_toPrimitive (v : Value) : v.toPrimitive.toNumber = v.toNumber := by
  cases v with
  | array items => rw [toPrimitive, toNumber_string, toNumber_array]
  | object members => rw [toPrimitive, toNumber_string, toNumber_object]
  | _ => rfl

/-- Two values that do not both give way to text compare as the numbers that they count as. -/
theorem compare?_eq_of_toNumber {v w : Value}
    (other : ∀ s t, v.toPrimitive = string s → w.toPrimitive = string t → False) :
    v.compare? w = v.toNumber.compare? w.toNumber := by
  rw [compare?, comparePrimitive?_of_not_strings other, toNumber_toPrimitive, toNumber_toPrimitive]

end Value

namespace Operator

open Value Number

/-- A value counts as the same number as what it gives way to where parts do not count: an array and
an object count as the number that their texts are, and the text of several items is none. So the
operators that take the numbers of their operands give for two values what they give for what these
give way to, and two values of which not both give way to text are ordered as the numbers that they
count as. -/
theorem counts_as_text :
    (∀ v : Value, v.toPrimitive.toNumber = v.toNumber) ∧
    (∀ items, (array items).toNumber = ofText (array items).text) ∧
    (∀ members, (object members).toNumber = ofText (object members).text) ∧
    (∀ item other items, ofText (array (item :: other :: items)).text = .nan) ∧
    (∀ v w : Value,
      subtraction.apply v w = number (v.toPrimitive.toNumber - w.toPrimitive.toNumber) ∧
      multiplication.apply v w = number (v.toPrimitive.toNumber * w.toPrimitive.toNumber) ∧
      division.apply v w = number (v.toPrimitive.toNumber / w.toPrimitive.toNumber) ∧
      modulo.apply v w = number (v.toPrimitive.toNumber % w.toPrimitive.toNumber)) ∧
    ∀ v w : Value, (∀ s t, v.toPrimitive = string s → w.toPrimitive = string t → False) →
      v.compare? w = v.toNumber.compare? w.toNumber := by
  refine ⟨toNumber_toPrimitive, toNumber_array, toNumber_object, ?_, ?_,
    fun v w => compare?_eq_of_toNumber⟩
  · intro item other items
    rw [← toNumber_array, toNumber]
  · intro v w
    rw [toNumber_toPrimitive, toNumber_toPrimitive]
    exact ⟨rfl, rfl, rfl, rfl⟩

/-- Sixteen in another base, with a blank before it and in an array, is less than seventeen, while
the same with an empty item behind it is not ordered with any number. -/
theorem counts_as_text_base :
    (array [string " 0x10"]).compare? (number 17) = some .lt ∧
      (array [string " 0x10", null]).text = " 0x10," ∧
      (array [string " 0x10", null]).compare? (number 17) = none := by
  obtain ⟨-, arrays, -, several, -, compares⟩ := counts_as_text
  have less : (ofText " 0x10").compare? 17 = some .lt := by decide +kernel
  have other (s t : String) : (number 17).toPrimitive ≠ string t := nofun
  refine ⟨?_, by decide +kernel, ?_⟩
  · rw [compares _ _ fun s t _ => other s t, arrays, text_singleton]
    exact less
  · rw [compares _ _ fun s t _ => other s t, arrays, several]
    rfl

end Operator

namespace Value

/-! ## The texts of numbers -/

/-- The text of a number counts as that number, and so does an array with the number as its only
item: as an equal number, or as what is not a number if it is not. So numbers with the same text are
strictly equal, unless neither is a number. -/
theorem number_read_back :
    (∀ x : Binary64, (string (number x).text).toNumber.Agrees x ∧
      (array [number x]).toNumber.Agrees x) ∧
    ∀ x y : Binary64, (number x).text = (number y).text →
      (number x).strictEquals (number y) = true ∨ x = .nan ∧ y = .nan := by
  refine ⟨?_, ?_⟩
  · intro x
    have single : (array [number x]).text = (number x).text := text_singleton (number x)
    rw [toNumber_array, single]
    exact ⟨Binary64.ofText_text x, Binary64.ofText_text x⟩
  · intro x y same
    rw [text, text] at same
    have agrees := (Binary64.ofText_text x).symm
    rw [same] at agrees
    rw [strictEquals]
    exact agrees.trans (Binary64.ofText_text y)

/-- The least number below zero is written with an exponent, and the two zeros alike. -/
theorem number_read_back_least :
    ∃ x : Binary64, (number x).text = "-5e-324" ∧ (string "-5e-324").toNumber.Agrees x ∧
      (array [number x]).toNumber.Agrees x ∧
      (number (.zero true)).strictEquals (number (.zero false)) = true := by
  obtain ⟨back, alike⟩ := number_read_back
  let x : Binary64 := .finite true ⟨1, by decide +kernel, by decide⟩
  have written : (number x).text = "-5e-324" := by decide +kernel
  have zeros : (number (.zero true)).text = (number (.zero false)).text := by decide +kernel
  refine ⟨x, written, written ▸ (back x).1, (back x).2, ?_⟩
  exact (alike _ _ zeros).resolve_right fun isNaN => nomatch isNaN.1

end Value

end Inlay
