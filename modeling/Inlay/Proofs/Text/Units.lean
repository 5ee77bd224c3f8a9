import Inlay.Text.Utf16

/-!
# What a unit of a text stands for

A unit of a text is a character of it that needs no more than one unit, or else a surrogate
(`isSurrogate_or_basic`). As a text of its own the former is that character, and the latter is the
replacement character; either way it is a text of one unit that stands for itself again. A text
without characters of two units is put together from its units.
-/

namespace Inlay.Text

/-- Whether a unit is one of a pair, and no character alone. -/
def IsSurrogate (unit : Nat) : Prop :=
  surrogateStart ≤ unit ∧ unit < surrogateEnd

/-- Whether a character is a single unit. -/
def IsBasic (c : Char) : Prop :=
  c.toNat < 0x10000

theorem charUnits_of_isBasic {c : Char} (basic : IsBasic c) : charUnits c = [c.toNat] :=
  if_pos basic

/-- No character is a surrogate. -/
theorem not_isSurrogate (c : Char) : ¬IsSurrogate c.toNat := by
  intro ⟨start, stop⟩
  unfold surrogateStart at start
  unfold surrogateEnd at stop
  have valid : c.toNat < 0xD800 ∨ 0xDFFF < c.toNat ∧ c.toNat < 0x110000 := c.valid
  omega

/-- The units of a character that is not a single one are surrogates. -/
theorem isSurrogate_of_mem_charUnits {c : Char} (pair : ¬IsBasic c) {unit : Nat}
    (mem : unit ∈ charUnits c) : IsSurrogate unit := by
  have valid : c.toNat < 0xD800 ∨ 0xDFFF < c.toNat ∧ c.toNat < 0x110000 := c.valid
  unfold IsBasic at pair
  unfold IsSurrogate
  rw [charUnits, if_neg pair] at mem
  simp only [surrogateStart, surrogateEnd, List.mem_cons, List.not_mem_nil, or_false] at mem ⊢
  omega

/-- A unit of a text is a surrogate or a character of the text. -/
theorem isSurrogate_or_basic {text : String} {unit : Nat} (mem : unit ∈ units text) :
    IsSurrogate unit ∨ ∃ c ∈ text.toList, IsBasic c ∧ c.toNat = unit := by
  obtain ⟨c, there, part⟩ := List.mem_flatMap.mp mem
  by_cases basic : IsBasic c
  · rw [charUnits_of_isBasic basic, List.mem_singleton] at part
    exact .inr ⟨c, there, basic, part.symm⟩
  · exact .inl (isSurrogate_of_mem_charUnits basic part)

theorem ofUnit_of_isSurrogate {unit : Nat} (surrogate : IsSurrogate unit) :
    ofUnit unit = "\ufffd" :=
  if_pos surrogate

@[simp] theorem ofUnit_toNat (c : Char) : ofUnit c.toNat = String.singleton c := by
  have alone := not_isSurrogate c
  unfold IsSurrogate at alone
  rw [ofUnit, if_neg alone, Char.ofNat_toNat]

@[simp] theorem units_singleton (c : Char) : units (String.singleton c) = charUnits c := by
  simp [units]

/-- A unit of a text is, as a text of its own, a single unit that stands for the same text. -/
theorem units_ofUnit {text : String} {unit : Nat} (mem : unit ∈ units text) :
    ∃ single, units (ofUnit unit) = [single] ∧ ofUnit single = ofUnit unit := by
  rcases isSurrogate_or_basic mem with surrogate | ⟨c, -, basic, rfl⟩
  · rw [ofUnit_of_isSurrogate surrogate]
    exact ⟨0xFFFD, rfl, rfl⟩
  · exact ⟨c.toNat, by rw [ofUnit_toNat, units_singleton, charUnits_of_isBasic basic], rfl⟩

theorem units_of_isBasic {text : String} (basic : ∀ c ∈ text.toList, IsBasic c) :
    units text = text.toList.map Char.toNat := by
  rw [units, List.flatMap_def,
    List.map_congr_left fun c mem => charUnits_of_isBasic (basic c mem), ← List.flatMap_def,
    ← List.map_eq_flatMap]

/-- A text without characters of two units is the texts of its units, one after the other. -/
theorem join_ofUnit {text : String} (basic : ∀ c ∈ text.toList, IsBasic c) :
    String.join ((units text).map ofUnit) = text := by
  rw [units_of_isBasic basic, List.map_map, ← String.toList_inj, String.toList_join,
    List.flatMap_map]
  simp only [Function.comp_apply, ofUnit_toNat, String.toList_singleton, List.flatMap_singleton']

end Inlay.Text
