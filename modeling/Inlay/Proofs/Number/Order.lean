import Inlay.Number.Text

/-!
# The order of numbers

A number stands at a place among the others, and not a number at none. What the order says of two
numbers it says of their places: turned around it is the reverse, and it says nothing exactly where
one of them is not a number. Equal numbers are those at one place, which are the same number or two
zeros (`eq_or_zeros_of_equals`), so that nothing the language asks of numbers tells them apart.
-/

namespace Inlay.Binary64

open Number

theorem rank?_eq_none_iff {x : Binary64} : x.rank? = none ↔ x = nan := by
  cases x with
  | nan => exact ⟨fun _ => rfl, fun _ => rfl⟩
  | infinite => exact ⟨nofun, nofun⟩
  | finite => exact ⟨nofun, nofun⟩

/-- The order of two numbers is that of their places. -/
theorem compare?_of_rank? {x y : Binary64} {place place' : Int} (at_x : x.rank? = some place)
    (at_y : y.rank? = some place') : x.compare? y = some (compare place place') := by
  rw [compare?, at_x, at_y]
  rfl

/-- The order says nothing exactly where one side is not a number. -/
theorem compare?_eq_none_iff {x y : Binary64} : x.compare? y = none ↔ x = nan ∨ y = nan := by
  rw [← rank?_eq_none_iff, ← rank?_eq_none_iff, compare?]
  cases x.rank? <;> cases y.rank? <;> simp

/-- Turned around, the order is the reverse. -/
theorem compare?_swap (x y : Binary64) : y.compare? x = (x.compare? y).map Ordering.swap := by
  rw [compare?, compare?]
  cases x.rank? with
  | none => cases y.rank? <;> rfl
  | some place =>
    cases y.rank? with
    | none => rfl
    | some place' => exact congrArg some Std.OrientedOrd.eq_swap

/-! ## Equal numbers -/

/-- Numbers are equal when they stand at one place. -/
theorem equals_iff {x y : Binary64} :
    x.equals y = true ↔ ∃ place, x.rank? = some place ∧ y.rank? = some place := by
  rw [equals, beq_iff_eq]
  constructor
  · intro same
    cases at_x : x.rank? with
    | none =>
      rw [compare?_eq_none_iff.mpr (.inl (rank?_eq_none_iff.mp at_x))] at same
      cases same
    | some place =>
      cases at_y : y.rank? with
      | none =>
        rw [compare?_eq_none_iff.mpr (.inr (rank?_eq_none_iff.mp at_y))] at same
        cases same
      | some place' =>
        rw [compare?_of_rank? at_x at_y, Option.some.injEq] at same
        exact ⟨place, rfl, congrArg some (Std.LawfulEqOrd.eq_of_compare same).symm⟩
  · intro ⟨place, at_x, at_y⟩
    rw [compare?_of_rank? at_x at_y, Std.compare_eq_iff_eq.mpr rfl]

theorem equals_comm (x y : Binary64) : x.equals y = y.equals x := by
  rw [Bool.eq_iff_iff, equals_iff, equals_iff]
  exact exists_congr fun _ => and_comm

theorem equals_trans {x y z : Binary64} (first : x.equals y = true) (second : y.equals z = true) :
    x.equals z = true := by
  rw [equals_iff] at *
  obtain ⟨place, at_x, at_y⟩ := first
  obtain ⟨place', at_y', at_z⟩ := second
  rw [at_y, Option.some.injEq] at at_y'
  subst at_y'
  exact ⟨place, at_x, at_z⟩

/-- Equal numbers compare alike with every number. -/
theorem compare?_eq_of_equals {x y : Binary64} (equal : x.equals y = true) (z : Binary64) :
    x.compare? z = y.compare? z := by
  obtain ⟨place, at_x, at_y⟩ := equals_iff.mp equal
  rw [compare?, compare?, at_x, at_y]

/-- A finite number lies between the places of the infinities. -/
theorem signed_between (negative : Bool) (magnitude : Magnitude) :
    -(unitLimit : Int) < signed negative magnitude ∧ signed negative magnitude < unitLimit := by
  have bounded := magnitude.bounded
  cases negative <;> simp only [signed, if_true, Bool.false_eq_true, if_false] <;> omega

/-- Two finite numbers of one place have the same sign and magnitude, or are both zero. -/
theorem eq_or_units_of_signed_eq {s t : Bool} {a b : Magnitude} (same : signed s a = signed t b) :
    s = t ∧ a = b ∨ a.units = 0 ∧ b.units = 0 := by
  obtain ⟨units, bounded, significant⟩ := a
  obtain ⟨units', bounded', significant'⟩ := b
  rw [Magnitude.mk.injEq]
  cases s <;> cases t <;>
    simp only [signed, if_true, Bool.false_eq_true, if_false, true_and, reduceCtorEq, false_and,
      false_or] at same ⊢ <;> omega

/-- Equal numbers are the same number, or both are zero. -/
theorem eq_or_zeros_of_equals {x y : Binary64} (equal : x.equals y = true) :
    x = y ∨ ∃ s t, x = zero s ∧ y = zero t := by
  obtain ⟨place, at_x, at_y⟩ := equals_iff.mp equal
  have limit : 0 < unitLimit := twoPow_pos 2098
  have apart (s t : Bool) (magnitude : Magnitude) :
      (if s then -(unitLimit : Int) else unitLimit) ≠ signed t magnitude := by
    have between := signed_between t magnitude
    cases s <;> simp only [if_true, Bool.false_eq_true, if_false] <;> omega
  cases x with
  | nan => cases at_x
  | infinite s =>
    cases y with
    | nan => cases at_y
    | infinite t =>
      left
      rw [← at_y, rank?, rank?, Option.some.injEq] at at_x
      cases s <;> cases t <;>
        simp only [if_true, Bool.false_eq_true, if_false] at at_x ⊢ <;> omega
    | finite t b =>
      rw [← at_y, rank?, rank?, Option.some.injEq] at at_x
      exact absurd at_x (apart s t b)
  | finite s a =>
    cases y with
    | nan => cases at_y
    | infinite t =>
      rw [← at_y, rank?, rank?, Option.some.injEq] at at_x
      exact absurd at_x.symm (apart t s a)
    | finite t b =>
      rw [← at_y, rank?, rank?, Option.some.injEq] at at_x
      rcases eq_or_units_of_signed_eq at_x with ⟨rfl, rfl⟩ | ⟨none, none'⟩
      · exact .inl rfl
      · exact .inr ⟨s, t, finite_eq_zero none s, finite_eq_zero none' t⟩

/-- A zero of either sign is written as one digit. -/
theorem text_of_units_eq_zero {magnitude : Magnitude} (none : magnitude.units = 0)
    (negative : Bool) : text (finite negative magnitude) = "0" :=
  congrArg String.ofList (if_pos none)

/-- Equal numbers have the same text. -/
theorem text_eq_of_equals {x y : Binary64} (equal : x.equals y = true) : text x = text y := by
  rcases eq_or_zeros_of_equals equal with rfl | ⟨s, t, rfl, rfl⟩
  · rfl
  · rw [zero, zero, text_of_units_eq_zero rfl, text_of_units_eq_zero rfl]

/-! ## Numbers that agree -/

/-- Whether two numbers are equal, or neither is a number. -/
def Agrees (x y : Binary64) : Prop :=
  x.equals y = true ∨ x = nan ∧ y = nan

theorem agrees_self (x : Binary64) : x.Agrees x := by
  by_cases isNaN : x = nan
  · exact .inr ⟨isNaN, isNaN⟩
  · exact .inl (equals_self_iff.mpr isNaN)

theorem Agrees.symm {x y : Binary64} (agrees : x.Agrees y) : y.Agrees x := by
  rcases agrees with equal | ⟨rfl, rfl⟩
  · exact .inl (by rwa [equals_comm])
  · exact agrees_self nan

theorem Agrees.trans {x y z : Binary64} (first : x.Agrees y) (second : y.Agrees z) :
    x.Agrees z := by
  rcases first with equal | ⟨rfl, rfl⟩
  · rcases second with equal' | ⟨rfl, rfl⟩
    · exact .inl (equals_trans equal equal')
    · rw [equals_comm] at equal
      cases equal
  · exact second

/-- Numbers that agree compare alike with every number. -/
theorem Agrees.compare?_eq {x y : Binary64} (agrees : x.Agrees y) (z : Binary64) :
    x.compare? z = y.compare? z := by
  rcases agrees with equal | ⟨rfl, rfl⟩
  · exact compare?_eq_of_equals equal z
  · rfl

end Inlay.Binary64
