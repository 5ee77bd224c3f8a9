import Inlay.Number.Shortest
import Inlay.Proofs.Number.Order

/-!
# The number nearest to a decimal

The number nearest to a decimal is one rounding of its exact quotient (`nearest_eq_round`): where
the exponent is cut down, the exact quotient is out of the range of finite numbers all the same, or
below all of them but zero. So decimals of the same value have the same nearest number, in
particular those that differ in the zeros that end their digits.
-/

namespace Inlay

open Number

/-! ## Rounding a quotient -/

namespace Number

theorem tenPow_pos (n : Nat) : 0 < tenPow n :=
  Nat.pow_pos (by decide)

theorem tenPow_succ (n : Nat) : tenPow (n + 1) = tenPow n * 10 :=
  Nat.pow_succ 10 n

theorem tenPow_le_tenPow {m n : Nat} (h : m ≤ n) : tenPow m ≤ tenPow n :=
  Nat.pow_le_pow_right (by decide) h

theorem tenPow_add (m n : Nat) : tenPow (m + n) = tenPow m * tenPow n :=
  Nat.pow_add 10 m n

theorem twoPow_le_tenPow (n : Nat) : twoPow n ≤ tenPow n :=
  Nat.pow_le_pow_left (by decide) n

theorem le_log2_of_twoPow_le {m n : Nat} (h : twoPow m ≤ n) : m ≤ n.log2 :=
  (Nat.le_log2 (Nat.ne_of_gt (Nat.lt_of_lt_of_le (twoPow_pos m) h))).mpr h

theorem roundQuotient_scale {factor : Nat} (positive : 0 < factor) (num den : Nat) :
    roundQuotient (num * factor) (den * factor) = roundQuotient num den := by
  have twice : 2 * (num % den * factor) = 2 * (num % den) * factor := by rw [Nat.mul_assoc]
  simp only [roundQuotient, Nat.mul_div_mul_right _ _ positive, Nat.mul_mod_mul_right, twice,
    Nat.mul_lt_mul_right positive]

/-- A quotient rounds as it does when numerator and denominator have a factor more. -/
theorem roundSignificant_scale {factor : Nat} (positive : 0 < factor) (precision num den : Nat) :
    roundSignificant precision (num * factor) (den * factor) =
      roundSignificant precision num den := by
  have places : excessPlaces precision (num * factor) (den * factor) =
      excessPlaces precision num den := by
    rw [excessPlaces, Nat.mul_div_mul_right _ _ positive, excessPlaces]
  rw [roundSignificant, places, Nat.mul_right_comm, roundQuotient_scale positive, roundSignificant]

/-- Equal quotients round alike. -/
theorem roundSignificant_congr {num den num' den' : Nat} (positive : 0 < den)
    (positive' : 0 < den') (same : num * den' = num' * den) (precision : Nat) :
    roundSignificant precision num den = roundSignificant precision num' den' := by
  rw [← roundSignificant_scale positive', same, Nat.mul_comm den,
    roundSignificant_scale positive]

/-- What is less than half rounds to zero. -/
theorem roundSignificant_eq_zero {precision num den : Nat} (some : 0 < precision)
    (small : 2 * num < den) : roundSignificant precision num den = 0 := by
  have less : num < den := by omega
  have none : num / den = 0 := Nat.div_eq_of_lt less
  have places : excessPlaces precision num den = 0 := by
    rw [excessPlaces, none, Nat.log2_zero]
    omega
  have rest : num % den = num := Nat.mod_eq_of_lt less
  have one : twoPow 0 = 1 := rfl
  simp only [roundSignificant, places, one, Nat.mul_one, roundQuotient, none, rest, small, if_true]

/-- Rounding keeps the leading binary digit in its place, or takes it to a higher one. -/
theorem twoPow_log2_le_roundSignificant {precision num den : Nat} (some : 0 < precision)
    (whole : num / den ≠ 0) : twoPow (num / den).log2 ≤ roundSignificant precision num den := by
  have below : num / (den * twoPow (excessPlaces precision num den)) =
      num / den / twoPow (excessPlaces precision num den) :=
    (Nat.div_div_eq_div_mul num den _).symm
  have least : num / den / twoPow (excessPlaces precision num den) ≤
      roundQuotient num (den * twoPow (excessPlaces precision num den)) := by
    rcases roundQuotient_cases num (den * twoPow (excessPlaces precision num den)) with h | h <;>
      omega
  have leading : twoPow (num / den).log2 ≤ num / den := Nat.log2_self_le whole
  have few : excessPlaces precision num den ≤ (num / den).log2 := by
    rw [excessPlaces]
    omega
  simp only [roundSignificant]
  generalize excessPlaces precision num den = places at *
  calc
    twoPow (num / den).log2 = twoPow ((num / den).log2 - places) * twoPow places := by
      rw [← twoPow_add, Nat.sub_add_cancel few]
    _ ≤ roundQuotient num (den * twoPow places) * twoPow places := by
      apply Nat.mul_le_mul_right
      refine Nat.le_trans ?_ least
      rw [Nat.le_div_iff_mul_le (twoPow_pos places), ← twoPow_add, Nat.sub_add_cancel few]
      exact leading

end Number

namespace Binary64

/-- Equal quotients have the same nearest number. -/
theorem round_congr {num den num' den' : Nat} (positive : 0 < den) (positive' : 0 < den')
    (same : num * den' = num' * den) (negative : Bool) :
    round negative num den = round negative num' den' := by
  simp only [round, roundSignificant_congr positive positive' same]

/-- What reaches the limit is rounded to infinity. -/
theorem round_eq_infinite {num den : Nat} (large : unitLimit ≤ num / den) (negative : Bool) :
    round negative num den = infinite negative := by
  have whole : num / den ≠ 0 := Nat.ne_of_gt (Nat.lt_of_lt_of_le (twoPow_pos 2098) large)
  have leading : unitLimit ≤ twoPow (num / den).log2 :=
    twoPow_le_twoPow (le_log2_of_twoPow_le large)
  have rounded : twoPow (num / den).log2 ≤ roundSignificant precision num den :=
    twoPow_log2_le_roundSignificant (by decide) whole
  have enough : unitLimit ≤ roundSignificant precision num den := Nat.le_trans leading rounded
  rw [round, dif_neg (Nat.not_lt.mpr enough)]

/-- What is less than half a unit is rounded to zero. -/
theorem round_eq_zero {num den : Nat} (small : 2 * num < den) (negative : Bool) :
    round negative num den = zero negative := by
  have none : roundSignificant precision num den = 0 := roundSignificant_eq_zero (by decide) small
  have bounded : roundSignificant precision num den < unitLimit := by
    rw [none]
    exact twoPow_pos 2098
  rw [round, dif_pos bounded]
  exact finite_eq_zero none negative

end Binary64

/-! ## The exponent is cut down for nothing but speed -/

namespace Decimal

open Binary64

/-- From the limit on, powers of ten are out of the range of finite numbers. -/
theorem unitLimit_le {digits e : Nat} (some : digits ≠ 0) (large : exponentLimit ≤ e) :
    unitLimit ≤ digits * tenPow e * unitsPerOne := by
  have limit : unitLimit = twoPow 1024 * unitsPerOne := by
    rw [unitLimit, unitsPerOne, ← twoPow_add]
  have beyond : twoPow 1024 ≤ tenPow exponentLimit := by decide +kernel
  rw [limit]
  apply Nat.mul_le_mul_right
  calc
    twoPow 1024 ≤ tenPow e := Nat.le_trans beyond (tenPow_le_tenPow large)
    _ ≤ digits * tenPow e := Nat.le_mul_of_pos_left _ (Nat.pos_of_ne_zero some)

/-- Divided by a power of ten so many places beyond its own binary digits, a number of ones is less
than half a unit. -/
theorem lt_tenPow {digits e : Nat} (large : digits.log2 + exponentLimit ≤ e) :
    2 * (digits * unitsPerOne) < tenPow e := by
  have beyond : twoPow 1076 ≤ tenPow exponentLimit := by decide +kernel
  have twice : 2 * (digits * unitsPerOne) = digits * twoPow 1075 := by
    have two : twoPow 1 = 2 := rfl
    rw [Nat.mul_left_comm, unitsPerOne, ← two, ← twoPow_add]
  calc
    2 * (digits * unitsPerOne) < twoPow (digits.log2 + 1) * twoPow 1075 := by
      rw [twice]
      exact Nat.mul_lt_mul_of_pos_right (lt_twoPow_log2_succ digits) (twoPow_pos 1075)
    _ = twoPow digits.log2 * twoPow 1076 := by
      rw [← twoPow_add, ← twoPow_add, Nat.add_assoc]
    _ ≤ tenPow digits.log2 * tenPow exponentLimit :=
      Nat.mul_le_mul (twoPow_le_tenPow digits.log2) beyond
    _ ≤ tenPow e := by
      rw [← tenPow_add]
      exact tenPow_le_tenPow large

/-- The number nearest to a decimal is its exact quotient, rounded once. -/
theorem nearest_eq_round (negative : Bool) (digits : Nat) (exponent : Int) :
    (Decimal.mk negative digits exponent).nearest =
      round negative (decimalUnits digits exponent).1 (decimalUnits digits exponent).2 := by
  cases exponent with
  | ofNat e =>
    simp only [nearest, decimalUnits]
    rcases Nat.le_total e exponentLimit with small | large
    · rw [Nat.min_eq_left small]
    · rw [Nat.min_eq_right large]
      by_cases none : digits = 0
      · simp only [none, Nat.zero_mul]
      · rw [round_eq_infinite (by rw [Nat.div_one]; exact unitLimit_le none (Nat.le_refl _)),
          round_eq_infinite (by rw [Nat.div_one]; exact unitLimit_le none large)]
  | negSucc e =>
    simp only [nearest, decimalUnits]
    rcases Nat.le_total (e + 1) (digits.log2 + exponentLimit) with small | large
    · rw [Nat.min_eq_left small]
    · rw [Nat.min_eq_right large, round_eq_zero (lt_tenPow (Nat.le_refl _)),
        round_eq_zero (lt_tenPow large)]

theorem decimalUnits_pos (digits : Nat) (exponent : Int) : 0 < (decimalUnits digits exponent).2 := by
  cases exponent with
  | ofNat e => exact Nat.one_pos
  | negSucc e => exact tenPow_pos (e + 1)

/-- Decimals of the same sign and value have the same nearest number. -/
theorem nearest_congr {digits digits' : Nat} {exponent exponent' : Int}
    (same : (decimalUnits digits exponent).1 * (decimalUnits digits' exponent').2 =
      (decimalUnits digits' exponent').1 * (decimalUnits digits exponent).2) (negative : Bool) :
    (Decimal.mk negative digits exponent).nearest =
      (Decimal.mk negative digits' exponent').nearest := by
  rw [nearest_eq_round, nearest_eq_round,
    round_congr (decimalUnits_pos _ _) (decimalUnits_pos _ _) same]

/-- A zero behind the digits counts as a place of the exponent. -/
theorem nearest_mul_ten (negative : Bool) (digits : Nat) (exponent : Int) :
    (Decimal.mk negative (digits * 10) exponent).nearest =
      (Decimal.mk negative digits (exponent + 1)).nearest := by
  apply nearest_congr
  cases exponent with
  | ofNat e =>
    show digits * 10 * tenPow e * unitsPerOne * 1 = digits * tenPow (e + 1) * unitsPerOne * 1
    rw [tenPow_succ, Nat.mul_assoc digits, Nat.mul_comm 10]
  | negSucc e =>
    cases e with
    | zero =>
      have one : tenPow 0 = 1 := rfl
      have ten : tenPow 1 = 10 := rfl
      show digits * 10 * unitsPerOne * 1 = digits * tenPow 0 * unitsPerOne * tenPow 1
      rw [one, ten, Nat.mul_one, Nat.mul_one, Nat.mul_right_comm]
    | succ e =>
      show digits * 10 * unitsPerOne * tenPow (e + 1) = digits * unitsPerOne * tenPow (e + 1 + 1)
      rw [tenPow_succ (e + 1), Nat.mul_right_comm digits, Nat.mul_assoc (digits * unitsPerOne),
        Nat.mul_comm 10]

/-- Zeros behind the digits count as so many places of the exponent. -/
theorem nearest_mul_tenPow (negative : Bool) (digits zeros : Nat) (exponent : Int) :
    (Decimal.mk negative (digits * tenPow zeros) exponent).nearest =
      (Decimal.mk negative digits (exponent + zeros)).nearest := by
  induction zeros generalizing exponent with
  | zero =>
    have one : tenPow 0 = 1 := rfl
    rw [one, Nat.mul_one, Int.natCast_zero, Int.add_zero]
  | succ zeros ih =>
    have further : exponent + 1 + zeros = exponent + (zeros + 1 : Nat) := by omega
    rw [tenPow_succ, ← Nat.mul_assoc, nearest_mul_ten, ih, further]

theorem nearest_dropZeros (negative : Bool) (digits : Nat) (place : Int) :
    (Decimal.mk negative (dropZeros digits place).1 (dropZeros digits place).2).nearest =
      (Decimal.mk negative digits place).nearest := by
  fun_induction dropZeros digits place with
  | case1 digits place ends ih =>
    rw [ih, ← nearest_mul_ten, Nat.div_mul_cancel (Nat.dvd_of_mod_eq_zero ends.2)]
  | case2 => rfl

end Decimal

/-! ## The shortest decimal reads back -/

namespace Number

open Binary64 Decimal

/-- A decimal that was tried and found to read back as a magnitude has it as its nearest number,
with either sign. -/
theorem nearest_of_readsBack {magnitude : Magnitude} {digits : Nat} {place : Int}
    (reads : readsBack magnitude.units digits place = true) (negative : Bool) :
    (Decimal.mk negative digits place).nearest = .finite negative magnitude := by
  rw [readsBack, nearest_eq_round, Binary64.round] at reads
  rw [nearest_eq_round, Binary64.round]
  by_cases bounded : roundSignificant precision (decimalUnits digits place).1
      (decimalUnits digits place).2 < unitLimit
  · rw [dif_pos bounded] at reads
    have same : roundSignificant precision (decimalUnits digits place).1
        (decimalUnits digits place).2 = magnitude.units := beq_iff_eq.mp reads
    rw [dif_pos bounded]
    simp only [same]
  · rw [dif_neg bounded] at reads
    cases reads

/-- With as many powers of five in the numerator as there are powers of ten in the denominator, the
powers of two are what is left of these. -/
theorem round_mul_fivePow (negative : Bool) (units places : Nat) :
    round negative (units * Nat.pow 5 places * twoPow places) (tenPow places) =
      round negative units 1 := by
  apply round_congr (tenPow_pos places) Nat.one_pos
  have ten : Nat.pow 5 places * twoPow places = tenPow places := (Nat.mul_pow 5 2 places).symm
  rw [Nat.mul_one, Nat.mul_assoc, ten]

/-- The exact expansion of a magnitude reads back as it. -/
theorem nearest_expansion (magnitude : Magnitude) (negative : Bool) :
    (Decimal.mk negative (expansion magnitude.units).1 (expansion magnitude.units).2).nearest =
      .finite negative magnitude := by
  have place : (-1074 : Int) = .negSucc 1073 := rfl
  rw [nearest_eq_round]
  simp only [expansion, place, decimalUnits, unitsPerOne, Nat.reduceAdd]
  -- That the three exponents are one is all that counts: the powers themselves are not computed.
  generalize 1074 = places
  rw [round_mul_fivePow, round_units]

/-- Of the neighbours of a number on a grid one is taken only if it reads back. -/
theorem readsBack_of_neighbour? {units : Nat} {place : Int} {found : Nat × Int}
    (taken : neighbour? units place = some found) : readsBack units found.1 found.2 = true := by
  rw [neighbour?] at taken
  split at taken
  · rename_i below above
    obtain rfl := Option.some.inj taken
    split
    · exact below
    · exact above
  · rename_i below above
    obtain rfl := Option.some.inj taken
    exact below
  · rename_i below above
    obtain rfl := Option.some.inj taken
    exact above
  · cases taken

/-- The shortest decimal of a magnitude reads back as it. -/
theorem nearest_shortest (magnitude : Magnitude) (negative : Bool) :
    (Decimal.mk negative (shortest magnitude.units).1 (shortest magnitude.units).2).nearest =
      .finite negative magnitude := by
  simp only [shortest]
  rw [nearest_dropZeros]
  cases search : (List.range 17).findSome? fun (more : Nat) =>
      neighbour? magnitude.units (leadingPlace magnitude.units - more) with
  | none => exact nearest_expansion magnitude negative
  | some found =>
    obtain ⟨more, -, taken⟩ := List.exists_of_findSome?_eq_some search
    exact nearest_of_readsBack (readsBack_of_neighbour? taken) negative

end Number

end Inlay
