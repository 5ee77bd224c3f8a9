import Inlay.Proofs.Value.Order
import Inlay.Proofs.Value.Within

/-!
# Strict equality

What strict equality finds is a relation of its own, `Equal`, with a rule for each kind of value.
It is symmetric and transitive, and all that keeps a value from being equal to itself is what is
not a number, somewhere in it (`equal_self_iff`). Equal values may differ in the signs of zeros, and
no coercion shows which of two equal values it was given (`equal_interchangeable`).
-/

namespace Inlay.Value

mutual

/-- What strict equality relates: values of one kind, arrays place by place and objects key by key,
with equal numbers in the places of numbers. -/
inductive Equal : Value → Value → Prop
  | null : Equal null null
  | undefined : Equal undefined undefined
  | boolean (b : Bool) : Equal (boolean b) (boolean b)
  | number {x y : Binary64} : x.equals y = true → Equal (number x) (number y)
  | string (s : String) : Equal (string s) (string s)
  | array {items others : List Value} : EqualItems items others → Equal (array items) (array others)
  | object {members others : Entries Value none} : EqualMembers members others →
      Equal (object members) (object others)

/-- Equal values in the same places. -/
inductive EqualItems : List Value → List Value → Prop
  | nil : EqualItems [] []
  | cons {item other : Value} {items others : List Value} : Equal item other →
      EqualItems items others → EqualItems (item :: items) (other :: others)

/-- Equal values under the same keys. -/
inductive EqualMembers : {low low' : Option String} → Entries Value low → Entries Value low' → Prop
  | empty {low low' : Option String} :
      EqualMembers (.empty : Entries Value low) (.empty : Entries Value low')
  | entry {low low' : Option String} {key : String} {above : Above low key} {above' : Above low' key}
      {value value' : Value} {rest rest' : Entries Value (some key)} : Equal value value' →
      EqualMembers rest rest' →
      EqualMembers (.entry key above value rest) (.entry key above' value' rest')

end

mutual

theorem equal_of_strictEquals : ∀ {v w : Value}, v.strictEquals w = true → Equal v w := by
  intro v w equal
  rw [strictEquals.eq_def] at equal
  split at equal
  case _ => exact .null
  case _ => exact .undefined
  case _ b c =>
    obtain rfl := beq_iff_eq.mp equal
    exact .boolean b
  case _ => exact .number equal
  case _ s t =>
    obtain rfl := beq_iff_eq.mp equal
    exact .string s
  case _ => exact .array (equalItems_of_itemsEqual equal)
  case _ => exact .object (equalMembers_of_membersEqual equal)
  case _ => cases equal

theorem equalItems_of_itemsEqual : ∀ {items others : List Value},
    itemsEqual items others = true → EqualItems items others := by
  intro items others equal
  rw [itemsEqual.eq_def] at equal
  split at equal
  case _ => exact .nil
  case _ =>
    rw [Bool.and_eq_true] at equal
    exact .cons (equal_of_strictEquals equal.1) (equalItems_of_itemsEqual equal.2)
  case _ => cases equal

theorem equalMembers_of_membersEqual {low low' : Option String} :
    ∀ {members : Entries Value low} {others : Entries Value low'},
      membersEqual members others = true → EqualMembers members others := by
  intro members others equal
  rw [membersEqual.eq_def] at equal
  split at equal
  case _ => exact .empty
  case _ =>
    rw [Bool.and_eq_true, Bool.and_eq_true, beq_iff_eq] at equal
    obtain ⟨⟨rfl, value⟩, rest⟩ := equal
    exact .entry (equal_of_strictEquals value) (equalMembers_of_membersEqual rest)
  case _ => cases equal

end

mutual

theorem Equal.strictEquals : ∀ {v w : Value}, Equal v w → v.strictEquals w = true
  | _, _, .null | _, _, .undefined => by rw [Value.strictEquals]
  | _, _, .boolean _ | _, _, .string _ => by rw [Value.strictEquals, beq_self_eq_true]
  | _, _, .number equal => by rw [Value.strictEquals, equal]
  | _, _, .array equal => by rw [Value.strictEquals, equal.itemsEqual]
  | _, _, .object equal => by rw [Value.strictEquals, equal.membersEqual]

theorem EqualItems.itemsEqual : ∀ {items others : List Value}, EqualItems items others →
    Value.itemsEqual items others = true
  | _, _, .nil => by rw [Value.itemsEqual]
  | _, _, .cons first rest => by
    rw [Value.itemsEqual, first.strictEquals, rest.itemsEqual]
    rfl

theorem EqualMembers.membersEqual {low low' : Option String} :
    ∀ {members : Entries Value low} {others : Entries Value low'}, EqualMembers members others →
      Value.membersEqual members others = true
  | _, _, .empty => by rw [Value.membersEqual]
  | _, _, .entry first rest => by
    rw [Value.membersEqual, first.strictEquals, rest.membersEqual, beq_self_eq_true]
    rfl

end

/-- Strict equality finds what the relation has. -/
theorem strictEquals_iff {v w : Value} : v.strictEquals w = true ↔ Equal v w :=
  ⟨equal_of_strictEquals, Equal.strictEquals⟩

/-! ## A partial equivalence -/

mutual

theorem Equal.symm : ∀ {v w : Value}, Equal v w → Equal w v
  | _, _, .null => .null
  | _, _, .undefined => .undefined
  | _, _, .boolean b => .boolean b
  | _, _, .number equal => .number (by rwa [Binary64.equals_comm])
  | _, _, .string s => .string s
  | _, _, .array equal => .array equal.symm
  | _, _, .object equal => .object equal.symm

theorem EqualItems.symm : ∀ {items others : List Value}, EqualItems items others →
    EqualItems others items
  | _, _, .nil => .nil
  | _, _, .cons first rest => .cons first.symm rest.symm

theorem EqualMembers.symm {low low' : Option String} :
    ∀ {members : Entries Value low} {others : Entries Value low'}, EqualMembers members others →
      EqualMembers others members
  | _, _, .empty => .empty
  | _, _, .entry first rest => .entry first.symm rest.symm

end

mutual

theorem Equal.trans : ∀ {u v w : Value}, Equal u v → Equal v w → Equal u w
  | _, _, _, .null, .null => .null
  | _, _, _, .undefined, .undefined => .undefined
  | _, _, _, .boolean b, .boolean _ => .boolean b
  | _, _, _, .number equal, .number equal' => .number (Binary64.equals_trans equal equal')
  | _, _, _, .string s, .string _ => .string s
  | _, _, _, .array equal, .array equal' => .array (equal.trans equal')
  | _, _, _, .object equal, .object equal' => .object (equal.trans equal')

theorem EqualItems.trans : ∀ {items others further : List Value}, EqualItems items others →
    EqualItems others further → EqualItems items further
  | _, _, _, .nil, .nil => .nil
  | _, _, _, .cons first rest, .cons first' rest' => .cons (first.trans first') (rest.trans rest')

theorem EqualMembers.trans {low low' low'' : Option String} :
    ∀ {members : Entries Value low} {others : Entries Value low'} {further : Entries Value low''},
      EqualMembers members others → EqualMembers others further → EqualMembers members further
  | _, _, _, .empty, .empty => .empty
  | _, _, _, .entry first rest, .entry first' rest' =>
    .entry (first.trans first') (rest.trans rest')

end

mutual

/-- A value is equal to itself unless there is what is not a number in it. -/
theorem equal_self_iff : ∀ v : Value, Equal v v ↔ ¬Within (number .nan) v
  | .null | .undefined | .boolean _ | .string _ => by
    refine ⟨fun _ => nofun, fun _ => ?_⟩
    constructor
  | .number x => by
    have alone : Within (number .nan) (number x) ↔ x = .nan := by
      constructor
      · rintro ⟨⟩
        rfl
      · rintro rfl
        exact .itself
    have whole : Equal (number x) (number x) ↔ x.equals x = true :=
      ⟨fun | .number equal => equal, .number⟩
    rw [whole, alone, Binary64.equals_self_iff]
  | .array items => by
    have whole : Equal (array items) (array items) ↔ EqualItems items items :=
      ⟨fun | .array equal => equal, .array⟩
    rw [whole, equalItems_self_iff items, within_array_iff]
    simp
  | .object members => by
    have whole : Equal (object members) (object members) ↔ EqualMembers members members :=
      ⟨fun | .object equal => equal, .object⟩
    rw [whole, equalMembers_self_iff members, within_object_iff]
    simp

theorem equalItems_self_iff : ∀ items : List Value,
    EqualItems items items ↔ ∀ item ∈ items, ¬Within (number .nan) item
  | [] => ⟨fun _ => nofun, fun _ => .nil⟩
  | item :: items => by
    have whole : EqualItems (item :: items) (item :: items) ↔
        Equal item item ∧ EqualItems items items :=
      ⟨fun | .cons first rest => ⟨first, rest⟩, fun ⟨first, rest⟩ => .cons first rest⟩
    rw [whole, equal_self_iff item, equalItems_self_iff items, List.forall_mem_cons]

theorem equalMembers_self_iff {low : Option String} : ∀ members : Entries Value low,
    EqualMembers members members ↔ ∀ pair ∈ members.toList, ¬Within (number .nan) pair.2
  | .empty => ⟨fun _ => nofun, fun _ => .empty⟩
  | .entry key above value rest => by
    have whole : EqualMembers (.entry key above value rest) (.entry key above value rest) ↔
        Equal value value ∧ EqualMembers rest rest :=
      ⟨fun | .entry first rest => ⟨first, rest⟩, fun ⟨first, rest⟩ => .entry first rest⟩
    rw [whole, equal_self_iff value, equalMembers_self_iff rest, Entries.toList,
      List.forall_mem_cons]

end

/-! ## What coercion makes of equal values -/

theorem Equal.isMissing {v w : Value} (equal : Equal v w) : v.isMissing = w.isMissing := by
  cases equal <;> rfl

mutual

/-- Equal values have the same text. -/
theorem Equal.text : ∀ {v w : Value}, Equal v w → v.text = w.text
  | _, _, .null | _, _, .undefined | _, _, .boolean _ | _, _, .string _ => rfl
  | _, _, .number equal => by rw [Value.text, Value.text, Binary64.text_eq_of_equals equal]
  | _, _, .array equal => by rw [Value.text, Value.text, equal.splicedTexts]
  | _, _, .object _ => by rw [Value.text, Value.text]

theorem EqualItems.splicedTexts : ∀ {items others : List Value}, EqualItems items others →
    Value.splicedTexts items = Value.splicedTexts others
  | _, _, .nil => rfl
  | _, _, .cons first rest => by
    rw [Value.splicedTexts, Value.splicedTexts, first.isMissing, first.text, rest.splicedTexts]

end

theorem Equal.splicedText {v w : Value} (equal : Equal v w) : v.splicedText = w.splicedText := by
  rw [Value.splicedText, Value.splicedText, equal.isMissing, equal.text]

theorem Equal.isTruthy {v w : Value} (equal : Equal v w) : v.isTruthy = w.isTruthy := by
  cases equal with
  | number equal =>
    rcases Binary64.eq_or_zeros_of_equals equal with rfl | ⟨s, t, rfl, rfl⟩ <;> rfl
  | _ => rfl

/-- Equal values count as numbers that agree. -/
theorem Equal.toNumber {v w : Value} (equal : Equal v w) : v.toNumber.Agrees w.toNumber := by
  cases equal with
  | number equal => exact .inl equal
  | array equal =>
    cases equal with
    | nil => exact Binary64.agrees_self _
    | cons first rest =>
      cases rest with
      | nil =>
        rw [Value.toNumber, Value.toNumber, first.splicedText]
        exact Binary64.agrees_self _
      | cons second rest => exact Binary64.agrees_self _
  | _ => exact Binary64.agrees_self _

theorem Equal.toPrimitive {v w : Value} (equal : Equal v w) :
    Equal v.toPrimitive w.toPrimitive := by
  cases equal with
  | array items =>
    rw [Value.toPrimitive, Value.toPrimitive, (Equal.array items).text]
    exact .string _
  | object members =>
    rw [Value.toPrimitive, Value.toPrimitive, (Equal.object members).text]
    exact .string _
  | null => exact .null
  | undefined => exact .undefined
  | boolean b => exact .boolean b
  | number equal => exact .number equal
  | string s => exact .string s

theorem Equal.comparePrimitive? {v w : Value} (equal : Equal v w) (u : Value) :
    Value.comparePrimitive? v u = Value.comparePrimitive? w u := by
  by_cases text : ∃ s, v = Value.string s
  · obtain ⟨s, rfl⟩ := text
    cases equal
    rfl
  · have other : ¬∃ s, w = Value.string s := by
      rintro ⟨s, rfl⟩
      cases equal
      exact text ⟨s, rfl⟩
    rw [comparePrimitive?_of_not_strings fun s _ same _ => text ⟨s, same⟩,
      comparePrimitive?_of_not_strings fun s _ same _ => other ⟨s, same⟩,
      equal.toNumber.compare?_eq]

/-- Equal values compare alike with every value. -/
theorem Equal.compare? {v w : Value} (equal : Equal v w) (u : Value) :
    v.compare? u = w.compare? u :=
  equal.toPrimitive.comparePrimitive? u.toPrimitive

/-- Strictly equal values have the same text, leave the same in other text, are both true or both
not, count as numbers that agree, and compare alike with every value. Strict equality is symmetric
and transitive, and a value is strictly equal to itself unless what is not a number is in it, at any
depth. -/
theorem equal_interchangeable :
    (∀ v w : Value, v.strictEquals w = true →
      v.text = w.text ∧ v.splicedText = w.splicedText ∧ v.isTruthy = w.isTruthy ∧
      v.toNumber.Agrees w.toNumber ∧ ∀ u, v.compare? u = w.compare? u) ∧
    (∀ v w : Value, v.strictEquals w = w.strictEquals v) ∧
    (∀ u v w : Value, u.strictEquals v = true → v.strictEquals w = true →
      u.strictEquals w = true) ∧
    ∀ v : Value, v.strictEquals v = true ↔ ¬Within (number .nan) v := by
  refine ⟨?_, ?_, ?_, ?_⟩
  · intro v w same
    have equal := strictEquals_iff.mp same
    exact ⟨equal.text, equal.splicedText, equal.isTruthy, equal.toNumber, equal.compare?⟩
  · intro v w
    rw [Bool.eq_iff_iff, strictEquals_iff, strictEquals_iff]
    exact ⟨Equal.symm, Equal.symm⟩
  · intro u v w first second
    rw [strictEquals_iff] at *
    exact first.trans second
  · intro v
    rw [strictEquals_iff, equal_self_iff]

/-- The two zeros are interchangeable deep in a value, and what is not a number keeps an array from
being equal to itself. -/
theorem equal_interchangeable_zeros :
    ∃ v w : Value, v = array [object (.ofList [("k", number (.zero true))]), number (.zero false)] ∧
      w = array [object (.ofList [("k", number (.zero false))]), number (.zero true)] ∧
      v.strictEquals w = true ∧ v.text = w.text ∧ v.compare? null = w.compare? null ∧
      v.strictEquals v = true ∧ (array [v, number .nan]).strictEquals (array [v, number .nan]) = false
    := by
  obtain ⟨interchangeable, symmetric, transitive, itself⟩ := equal_interchangeable
  let v : Value := array [object (.ofList [("k", number (.zero true))]), number (.zero false)]
  let w : Value := array [object (.ofList [("k", number (.zero false))]), number (.zero true)]
  have zeros (s t : Bool) : Equal (number (.zero s)) (number (.zero t)) :=
    .number (by cases s <;> cases t <;> rfl)
  have equal : v.strictEquals w = true :=
    strictEquals_iff.mpr (.array (.cons (.object (.entry (zeros _ _) .empty))
      (.cons (zeros _ _) .nil)))
  obtain ⟨text, -, -, -, compare⟩ := interchangeable v w equal
  have back : w.strictEquals v = true := by rw [symmetric, equal]
  have nan : (array [v, number .nan]).strictEquals (array [v, number .nan]) ≠ true := by
    rw [ne_eq, itself]
    exact not_not_intro (.item (List.mem_cons_of_mem v List.mem_cons_self) .itself)
  exact ⟨v, w, rfl, rfl, equal, text, compare null, transitive v w v equal back,
    Bool.eq_false_iff.mpr nan⟩

end Inlay.Value
