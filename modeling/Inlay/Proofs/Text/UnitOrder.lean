import Inlay.Proofs.Text.Units

/-!
# The order of texts by their units

A text is known from its units: a unit that is no surrogate is a character, and two surrogates are
one (`units_injective`). So the lexicographic order of units is a total order of texts, in which two
texts are equal only if they are the same.
-/

namespace Inlay.Text

theorem charUnits_ne_nil (c : Char) : charUnits c ≠ [] := by
  unfold charUnits
  split <;> nofun

/-- With what the units of a pair begin is no character alone. -/
theorem toNat_ne_charUnits {c d : Char} (pair : ¬IsBasic d) (rest after : List Nat) :
    c.toNat :: rest ≠ charUnits d ++ after := by
  intro same
  cases parts : charUnits d with
  | nil => exact charUnits_ne_nil d parts
  | cons unit others =>
    rw [parts, List.cons_append, List.cons.injEq] at same
    apply not_isSurrogate c
    rw [same.1]
    exact isSurrogate_of_mem_charUnits pair (parts ▸ List.mem_cons_self)

/-- The units of a character are not those of another one, and begin no others. -/
theorem charUnits_append_inj {c d : Char} {rest after : List Nat}
    (same : charUnits c ++ rest = charUnits d ++ after) : c = d ∧ rest = after := by
  by_cases basic : IsBasic c <;> by_cases basic' : IsBasic d
  · rw [charUnits_of_isBasic basic, charUnits_of_isBasic basic', List.singleton_append,
      List.singleton_append, List.cons.injEq] at same
    exact ⟨Char.toNat_inj.mp same.1, same.2⟩
  · rw [charUnits_of_isBasic basic, List.singleton_append] at same
    exact absurd same (toNat_ne_charUnits basic' rest after)
  · rw [charUnits_of_isBasic basic', List.singleton_append] at same
    exact absurd same.symm (toNat_ne_charUnits basic after rest)
  · unfold IsBasic at basic basic'
    simp only [charUnits, if_neg basic, if_neg basic', List.cons_append, List.nil_append,
      List.cons.injEq] at same
    obtain ⟨high, low, behind⟩ := same
    refine ⟨Char.toNat_inj.mp ?_, behind⟩
    omega

theorem flatMap_charUnits_injective {cs ds : List Char}
    (same : cs.flatMap charUnits = ds.flatMap charUnits) : cs = ds := by
  induction cs generalizing ds with
  | nil =>
    cases ds with
    | nil => rfl
    | cons d ds =>
      have none := (List.append_eq_nil_iff.mp same.symm).1
      exact absurd none (charUnits_ne_nil d)
  | cons c cs ih =>
    cases ds with
    | nil =>
      have none := (List.append_eq_nil_iff.mp same).1
      exact absurd none (charUnits_ne_nil c)
    | cons d ds =>
      obtain ⟨rfl, others⟩ := charUnits_append_inj same
      rw [ih others]

/-- Two texts of the same units are the same text. -/
theorem units_injective {s t : String} (same : units s = units t) : s = t :=
  String.toList_inj.mp (flatMap_charUnits_injective same)

/-! ## The order -/

theorem compareUnits_eq_iff {s t : String} : compareUnits s t = .eq ↔ s = t := by
  rw [compareUnits, Std.compare_eq_iff_eq]
  exact ⟨units_injective, congrArg units⟩

/-- Turned around, the order of two texts is the reverse. -/
theorem compareUnits_swap (s t : String) : compareUnits t s = (compareUnits s t).swap :=
  Std.OrientedOrd.eq_swap

theorem compareUnits_isLE_trans {s t u : String} (first : (compareUnits s t).isLE = true)
    (second : (compareUnits t u).isLE = true) : (compareUnits s u).isLE = true :=
  Std.TransOrd.isLE_trans first second

theorem compare_eq_lt_iff_lex {first second : List Nat} :
    compare first second = .lt ↔ List.Lex (· < ·) first second := by
  induction first generalizing second with
  | nil => cases second <;> simp
  | cons unit rest ih =>
    cases second with
    | nil => simp
    | cons unit' rest' =>
      rw [List.compare_cons_cons, Ordering.then_eq_lt, ih, Nat.compare_eq_lt, Nat.compare_eq_eq,
        List.cons_lex_cons_iff]

/-- A text is less than another one where its units are lexicographically less. -/
theorem compareUnits_eq_lt_iff {s t : String} :
    compareUnits s t = .lt ↔ List.Lex (· < ·) (units s) (units t) :=
  compare_eq_lt_iff_lex

end Inlay.Text
