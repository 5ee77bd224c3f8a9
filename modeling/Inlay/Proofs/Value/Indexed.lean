import Inlay.Proofs.Text.Units
import Inlay.Proofs.Value.Path
import Inlay.Value.Arithmetic

/-!
# Parts by their index

An array gives out its items and a text its units, each as a text of its own: both are `Indexed`.
The decimal text of an index in range leads to the part at that index, and of all other segments
only the length leads anywhere. The units of a text are texts of one unit, and the length of two
texts put together is the sum of their lengths.
-/

namespace Inlay.Value

open Number Text

/-- Whether a value gives out just these parts, each under the decimal text of its index. -/
structure Indexed (v : Value) (parts : List Value) : Prop where
  length : v.step "length" = ofCount parts.length
  inside : ∀ {i : Nat} {part : Value}, parts[i]? = some part → i < indexLimit →
    v.step (toString i) = part
  outside : ∀ {segment : String}, segment ≠ "length" →
    (∀ i < parts.length, i < indexLimit → segment ≠ toString i) → v.step segment = undefined

/-- An array gives out its items. -/
theorem array_indexed (items : List Value) : (array items).Indexed items where
  length := step_length rfl
  inside := by
    intro i part found small
    rw [step, follow_item items (toString_ne_length i), index?_toString small, Option.bind_some,
      found, Option.getD_some, follow_nil]
  outside := fun other outside => (Lacks.index rfl other outside).step_eq

/-- The units of a text, each as a text of its own. -/
def unitTexts (s : String) : List Value :=
  (units s).map (string <| ofUnit ·)

/-- The index of a unit leads to the text of that unit. -/
theorem step_toString {s : String} {i unit : Nat} (found : (units s)[i]? = some unit)
    (small : i < indexLimit) : (string s).step (toString i) = string (ofUnit unit) := by
  rw [step, follow_unit s (toString_ne_length i), index?_toString small, Option.bind_some, found,
    Option.map_some, Option.getD_some, follow_nil]

/-- A text gives out the texts of its units. -/
theorem string_indexed (s : String) : (string s).Indexed (unitTexts s) where
  length := by
    rw [unitTexts, List.length_map]
    exact step_length rfl
  inside := by
    intro i part found small
    rw [unitTexts, List.getElem?_map, Option.map_eq_some_iff] at found
    obtain ⟨unit, found, rfl⟩ := found
    exact step_toString found small
  outside := by
    intro segment other outside
    rw [unitTexts, List.length_map] at outside
    exact (Lacks.index rfl other outside).step_eq

/-- A segment that is no index leads to none of the parts. -/
theorem Indexed.step_of_notIndex {v : Value} {parts : List Value} (indexed : v.Indexed parts)
    {segment : String} (reason : NotIndex segment) (other : segment ≠ "length") :
    v.step segment = undefined := by
  apply indexed.outside other
  rintro i - small rfl
  rw [← index?_eq_none_iff, index?_toString small] at reason
  cases reason

/-- As long as numbers are exact, an index is in range where it is less than the length. -/
theorem Indexed.lt_length_iff {v : Value} {parts : List Value} (indexed : v.Indexed parts)
    (few : parts.length ≤ exactLimit) {i : Nat} (small : i ≤ exactLimit) :
    (ofCount i).compare? (v.step "length") = some .lt ↔ i < parts.length := by
  rw [indexed.length]
  exact Binary64.compare?_ofNat_eq_lt_iff small few

/-- The text of a unit has a length of one, and its only unit is itself. -/
theorem unit_step {s : String} {unit : Nat} (mem : unit ∈ units s) :
    (string (ofUnit unit)).step "length" = ofCount 1 ∧
      (string (ofUnit unit)).step "0" = string (ofUnit unit) := by
  obtain ⟨single, alone, same⟩ := units_ofUnit mem
  have count : (string (ofUnit unit)).count? = some 1 := by
    rw [count?, alone, List.length_singleton]
  have first : (units (ofUnit unit))[0]? = some single := by
    rw [alone, List.getElem?_cons_zero]
  exact ⟨step_length count, (step_toString first indexLimit_pos).trans (congrArg string same)⟩

/-- What the index of a unit leads to: the replacement character in place of a surrogate, and
otherwise the character that is the unit. -/
theorem unit_text {s : String} {unit : Nat} (mem : unit ∈ units s) :
    (IsSurrogate unit → ofUnit unit = "\ufffd") ∧
      (¬IsSurrogate unit → ∃ c ∈ s.toList, c.toNat = unit ∧ ofUnit unit = String.singleton c) := by
  refine ⟨ofUnit_of_isSurrogate, fun alone => ?_⟩
  rcases isSurrogate_or_basic mem with surrogate | ⟨c, there, -, rfl⟩
  · exact absurd surrogate alone
  · exact ⟨c, there, rfl, ofUnit_toNat c⟩

/-- The length of two texts put together is the number of the units of both. -/
theorem step_length_append (s t : String) :
    (string (s ++ t)).step "length" = ofCount ((units s).length + (units t).length) := by
  apply step_length
  rw [count?, units_append, List.length_append]

/-- Counts add up as numbers as long as these are exact. -/
theorem add_ofCount {m n : Nat} (few : m + n ≤ exactLimit) :
    (ofCount m).add (ofCount n) = ofCount (m + n) := by
  show number (.ofNat m + .ofNat n) = _
  rw [Binary64.ofNat_add few, ofCount]

/-- A text without characters of two units is put together again from what its indices lead to. -/
theorem join_steps {s : String} (basic : ∀ c ∈ s.toList, IsBasic c)
    (few : (units s).length ≤ indexLimit) :
    String.join ((List.range (units s).length).map fun i =>
      ((string s).step (toString i)).text) = s := by
  have each : ((List.range (units s).length).map fun i => ((string s).step (toString i)).text) =
      (units s).map ofUnit := by
    apply List.ext_getElem
    · rw [List.length_map, List.length_map, List.length_range]
    · intro i _ inside
      rw [List.length_map] at inside
      rw [List.getElem_map, List.getElem_map, List.getElem_range,
        step_toString (List.getElem?_eq_getElem inside) (Nat.lt_of_lt_of_le inside few), text]
  rw [each, join_ofUnit basic]

/-- Arrays and texts give out their parts by the decimal texts of their indices, and nothing under
any other segment but their length. As long as numbers are exact, an index is in range where it is
less than what the length leads to. Each unit of a text is given out as a text of one unit
whose first unit is itself: the replacement character for a surrogate, and otherwise the character
that is the unit. Lengths add up where texts are put together, and a text without characters of two
units is put together from its units. -/
theorem parts_by_index (items : List Value) (s t : String) :
    (array items).Indexed items ∧ (string s).Indexed (unitTexts s) ∧
    (∀ segment, NotIndex segment → segment ≠ "length" →
      (array items).step segment = undefined ∧ (string s).step segment = undefined) ∧
    (∀ v parts, Indexed v parts → parts.length ≤ exactLimit → ∀ i ≤ exactLimit,
      ((ofCount i).compare? (v.step "length") = some .lt ↔ i < parts.length)) ∧
    (∀ i unit, (units s)[i]? = some unit → i < indexLimit →
      ∃ part, (string s).step (toString i) = string part ∧
        (string part).step "length" = ofCount 1 ∧ (string part).step "0" = string part ∧
        (IsSurrogate unit → part = "\ufffd") ∧
        (¬IsSurrogate unit → ∃ c ∈ s.toList, c.toNat = unit ∧ part = String.singleton c)) ∧
    (string (s ++ t)).step "length" = ofCount ((units s).length + (units t).length) ∧
    ((units s).length + (units t).length ≤ exactLimit →
      (string (s ++ t)).step "length" =
        ((string s).step "length").add ((string t).step "length")) ∧
    ((∀ c ∈ s.toList, IsBasic c) → (units s).length ≤ indexLimit →
      String.join ((List.range (units s).length).map fun i =>
        ((string s).step (toString i)).text) = s) := by
  refine ⟨array_indexed items, string_indexed s, ?_, ?_, ?_, step_length_append s t, ?_,
    join_steps⟩
  · intro segment reason other
    exact ⟨(array_indexed items).step_of_notIndex reason other,
      (string_indexed s).step_of_notIndex reason other⟩
  · intro v parts indexed few i small
    exact indexed.lt_length_iff few small
  · intro i unit found small
    have mem := List.mem_of_getElem? found
    obtain ⟨length, first⟩ := unit_step mem
    exact ⟨ofUnit unit, step_toString found small, length, first, unit_text mem⟩
  · intro few
    rw [step_length_append, ← add_ofCount few, step_length rfl, step_length rfl]

/-- A character above U+FFFF counts twice, and neither of its units is a character. -/
theorem parts_by_index_of_pair :
    (string "é😀").step "length" = ofCount 3 ∧
      (string "é😀").step "2" = string "\ufffd" ∧
      (string "é😀").step "3" = undefined ∧
      (array [null, string "né"]).step "+1" = undefined ∧
      (ofCount 1).compare? ((array [null, string "né"]).step "length") = some .lt ∧
      (string ("né" ++ "é😀")).step "length" =
        ((string "né").step "length").add ((string "é😀").step "length") ∧
      String.join ((List.range 2).map fun i => ((string "né").step (toString i)).text) = "né" := by
  have pair : units "é😀" = [0xE9, 0xD83D, 0xDE00] := by decide +kernel
  have single : units "né" = [0x6E, 0xE9] := by decide +kernel
  have count : (unitTexts "é😀").length = 3 := by rw [unitTexts, List.length_map, pair]; rfl
  have index : 2 < indexLimit := by decide +kernel
  have number : 5 ≤ exactLimit := by decide +kernel
  have two : 2 ≤ exactLimit := by omega
  obtain ⟨-, texts, -, -, unit, -⟩ := parts_by_index [] "é😀" ""
  obtain ⟨items, -, refused, less, -, -, sum, whole⟩ :=
    parts_by_index [null, string "né"] "né" "é😀"
  refine ⟨?_, ?_, ?_, ?_, ?_, ?_, ?_⟩
  · rw [texts.length, count]
  · obtain ⟨part, leads, -, -, surrogate, -⟩ := unit 2 0xDE00 (by rw [pair]; rfl) index
    rw [surrogate (by unfold IsSurrogate; decide)] at leads
    exact leads
  · refine texts.outside (by decide) fun i inside _ => ?_
    rw [count] at inside
    revert i
    decide +kernel
  · exact (refused "+1" (.character (c := '+') (by decide) rfl) (by decide)).1
  · exact (less _ _ items two 1 (by omega)).mpr (by decide)
  · apply sum
    rw [single, pair]
    exact number
  · rw [single] at whole
    refine whole (fun c there => ?_) (Nat.le_of_lt index)
    have letter : c = 'n' ∨ c = 'é' := by simpa using there
    unfold IsBasic
    rcases letter with rfl | rfl
    · decide
    · decide

end Inlay.Value
