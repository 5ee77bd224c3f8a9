import Inlay.Evaluation.Basic
import Inlay.Proofs.Number.Order
import Inlay.Proofs.Text.UnitOrder

/-!
# The order of values

What the order says of two values it says the other way round of the same two turned around,
whichever of its two ways it goes. So `<` and `>` ask the same of swapped operands, as `<=` and
`>=` do, and none of the four holds of values that are unordered. Texts among themselves are always
ordered, and totally, by their units (`order_reversed`).
-/

namespace Inlay

namespace Value

/-- Unless both are texts, two values without parts compare as numbers. -/
theorem comparePrimitive?_of_not_strings {v w : Value}
    (other : ∀ s t, v = string s → w = string t → False) :
    comparePrimitive? v w = v.toNumber.compare? w.toNumber := by
  rw [comparePrimitive?]
  exact other

theorem comparePrimitive?_swap (v w : Value) :
    comparePrimitive? w v = (comparePrimitive? v w).map Ordering.swap := by
  by_cases texts : ∃ s t, v = string s ∧ w = string t
  · obtain ⟨s, t, rfl, rfl⟩ := texts
    exact congrArg some (Text.compareUnits_swap s t)
  · rw [comparePrimitive?_of_not_strings fun s t first second => texts ⟨s, t, first, second⟩,
      comparePrimitive?_of_not_strings fun s t first second => texts ⟨t, s, second, first⟩,
      Binary64.compare?_swap]

/-- Turned around, the order of two values is the reverse. -/
theorem compare?_swap (v w : Value) : w.compare? v = (v.compare? w).map Ordering.swap :=
  comparePrimitive?_swap v.toPrimitive w.toPrimitive

theorem compare?_string (s t : String) :
    (string s).compare? (string t) = some (Text.compareUnits s t) := rfl

theorem strictEquals_string_iff {s t : String} :
    (string s).strictEquals (string t) = true ↔ s = t := by
  rw [strictEquals, beq_iff_eq]

end Value

namespace Operator

open Value

/-- The operators that ask for the order of their operands. -/
def relational : List Operator :=
  [lessThan, lessThanOrEqual, greaterThan, greaterThanOrEqual]

/-- Whether an operator gives true. -/
def Holds (op : Operator) (v w : Value) : Prop :=
  op.apply v w = boolean true

/-- Two tests of which one takes the reverse of what the other takes ask the same of swapped
operands. -/
theorem orders_swap {test reverse : Ordering → Bool} (turned : ∀ o, reverse o.swap = test o)
    (v w : Value) : orders test v w = orders reverse w v := by
  rw [orders, orders, compare?_swap v w, Option.any_map]
  simp only [turned]

theorem lessThan_swap (v w : Value) : lessThan.apply v w = greaterThan.apply w v :=
  orders_swap (fun o => by cases o <;> rfl) v w

theorem lessThanOrEqual_swap (v w : Value) :
    lessThanOrEqual.apply v w = greaterThanOrEqual.apply w v :=
  orders_swap (fun o => by cases o <;> rfl) v w

/-- A test holds of two values when they are ordered and it takes their order. -/
theorem orders_iff {test : Ordering → Bool} {v w : Value} :
    orders test v w = boolean true ↔ ∃ o, v.compare? w = some o ∧ test o = true := by
  rw [orders, boolean.injEq, Option.any_eq_true]

/-- One value is not both less and greater than another. -/
theorem not_lessThan_greaterThan (v w : Value) :
    ¬(lessThan.Holds v w ∧ greaterThan.Holds v w) := by
  rintro ⟨less, greater⟩
  obtain ⟨o, found, isLess⟩ := orders_iff.mp less
  obtain ⟨o', found', isGreater⟩ := orders_iff.mp greater
  rw [found, Option.some.injEq] at found'
  subst found'
  cases o <;> simp at isLess isGreater

/-- Of unordered values each of the operators gives false. -/
theorem apply_of_unordered {v w : Value} (unordered : v.compare? w = none) {op : Operator}
    (asks : op ∈ relational) : op.apply v w = boolean false := by
  simp only [relational, List.mem_cons, List.not_mem_nil, or_false] at asks
  rcases asks with rfl | rfl | rfl | rfl <;> simp only [apply, orders, unordered, Option.any_none]

/-- An expression of two references has the value that its operator gives for what they lead to. -/
theorem evaluate_references {op : Operator} (asks : op ∈ relational) (context : Context)
    (methods : Methods) (path path' : List String) :
    (Term.binary op (.reference path) (.reference path')).evaluate context methods =
      ⟨.ok (op.apply (context.resolve path) (context.resolve path')), []⟩ := by
  simp only [relational, List.mem_cons, List.not_mem_nil, or_false] at asks
  rcases asks with rfl | rfl | rfl | rfl <;> rfl

/-- A text is at most another one when its units are not greater. -/
theorem holds_lessThanOrEqual_string {s t : String} :
    lessThanOrEqual.Holds (string s) (string t) ↔ (Text.compareUnits s t).isLE = true := by
  rw [Holds, apply, orders_iff, compare?_string]
  simp

theorem lessThanOrEqual_string_total (s t : String) :
    lessThanOrEqual.Holds (string s) (string t) ∨ lessThanOrEqual.Holds (string t) (string s) := by
  rw [holds_lessThanOrEqual_string, holds_lessThanOrEqual_string, Text.compareUnits_swap s t]
  cases Text.compareUnits s t <;> simp

theorem lessThanOrEqual_string_trans {s t u : String}
    (first : lessThanOrEqual.Holds (string s) (string t))
    (second : lessThanOrEqual.Holds (string t) (string u)) :
    lessThanOrEqual.Holds (string s) (string u) := by
  rw [holds_lessThanOrEqual_string] at *
  exact Text.compareUnits_isLE_trans first second

/-- Two values turned around are ordered the other way round, or are unordered as before. So `<`
asks what `>` asks of swapped operands, and `<=` what `>=` asks; `<` and `>` never both hold, and
where the values are unordered all four operators give false; two numbers are unordered exactly
where one of them is not a number. Two texts are always ordered, lexicographically by their units,
and equal in the order exactly where they are strictly equal; among texts `<=` is total and
transitive. -/
theorem order_reversed :
    (∀ v w : Value, w.compare? v = (v.compare? w).map Ordering.swap) ∧
    (∀ v w, lessThan.apply v w = greaterThan.apply w v ∧
      lessThanOrEqual.apply v w = greaterThanOrEqual.apply w v ∧
      ¬(lessThan.Holds v w ∧ greaterThan.Holds v w)) ∧
    (∀ v w, v.compare? w = none → ∀ op ∈ relational, op.apply v w = boolean false) ∧
    (∀ op ∈ relational, ∀ (context : Context) (methods : Methods) (path path' : List String),
      (Term.binary op (.reference path) (.reference path')).evaluate context methods =
        ⟨.ok (op.apply (context.resolve path) (context.resolve path')), []⟩) ∧
    (∀ x y : Binary64, (number x).compare? (number y) = none ↔ x = .nan ∨ y = .nan) ∧
    (∀ s t : String, ∃ o, (string s).compare? (string t) = some o ∧
      (o = .lt ↔ List.Lex (· < ·) (Text.units s) (Text.units t)) ∧
      (o = .eq ↔ (string s).strictEquals (string t) = true)) ∧
    (∀ s t, lessThanOrEqual.Holds (string s) (string t) ∨
      lessThanOrEqual.Holds (string t) (string s)) ∧
    ∀ s t u, lessThanOrEqual.Holds (string s) (string t) →
      lessThanOrEqual.Holds (string t) (string u) → lessThanOrEqual.Holds (string s) (string u) := by
  refine ⟨compare?_swap, ?_, fun v w unordered op => apply_of_unordered unordered,
    fun op => evaluate_references, fun x y => Binary64.compare?_eq_none_iff, ?_,
    lessThanOrEqual_string_total, fun s t u => lessThanOrEqual_string_trans⟩
  · intro v w
    exact ⟨lessThan_swap v w, lessThanOrEqual_swap v w, not_lessThan_greaterThan v w⟩
  · intro s t
    refine ⟨Text.compareUnits s t, compare?_string s t, Text.compareUnits_eq_lt_iff, ?_⟩
    rw [Text.compareUnits_eq_iff, strictEquals_string_iff]

/-- A character of two units is before one of a single unit that has a lesser code point, and a text
that is no number is not ordered with a number. -/
theorem order_reversed_surrogates :
    (string "\uffff").compare? (string "😀") = some .gt ∧
      (string "😀").compare? (string "\uffff") = some .lt ∧
      lessThanOrEqual.Holds (string "a") (string "\uffff") ∧
      (∀ op ∈ relational, op.apply (string "x") (number 1) = boolean false) := by
  obtain ⟨reversed, -, unordered, -, -, -, -, trans⟩ := order_reversed
  have greater : (string "\uffff").compare? (string "😀") = some .gt := by decide +kernel
  have first : lessThanOrEqual.Holds (string "a") (string "😀") := by
    rw [holds_lessThanOrEqual_string]
    decide +kernel
  have less : (string "😀").compare? (string "\uffff") = some .lt := by
    rw [reversed, greater]
    rfl
  have second : lessThanOrEqual.Holds (string "😀") (string "\uffff") := by
    rw [Holds, apply, orders, less]
    rfl
  refine ⟨greater, less, trans _ _ _ first second, unordered _ _ ?_⟩
  decide +kernel

end Operator

end Inlay
