import Inlay.Value.Basic

/-!
# What is in a value

A value is in itself, and what is in the items of an array or in the members of an object is in the
whole. Of a value without parts there is nothing else in it.
-/

namespace Inlay.Value

/-- What is found in a value, at any depth: the value itself, and what is found in the items of an
array and in the members of an object. -/
inductive Within (w : Value) : Value → Prop
  | itself : Within w w
  | item {items : List Value} {item : Value} : item ∈ items → Within w item →
      Within w (array items)
  | member {members : Entries Value none} {key : String} {value : Value} :
      (key, value) ∈ members.toList → Within w value → Within w (object members)

variable {w : Value}

/-- In an array is the array itself and what is in its items. -/
theorem within_array_iff {items : List Value} :
    Within w (array items) ↔ w = array items ∨ ∃ item ∈ items, Within w item := by
  constructor
  · intro within
    cases within with
    | itself => exact .inl rfl
    | item mem further => exact .inr ⟨_, mem, further⟩
  · rintro (rfl | ⟨item, mem, further⟩)
    · exact .itself
    · exact .item mem further

/-- In an object is the object itself and what is in what is under its keys. -/
theorem within_object_iff {members : Entries Value none} :
    Within w (object members) ↔
      w = object members ∨ ∃ pair ∈ members.toList, Within w pair.2 := by
  constructor
  · intro within
    cases within with
    | itself => exact .inl rfl
    | member mem further => exact .inr ⟨_, mem, further⟩
  · rintro (rfl | ⟨pair, mem, further⟩)
    · exact .itself
    · exact .member mem further

end Inlay.Value
