import Inlay.Proofs.Number.Nearest
import Mathlib.Data.Nat.Dist
import Mathlib.Algebra.Order.Field.Basic
import Mathlib.Tactic.Linarith
import Mathlib.Tactic.Ring
import Mathlib.Tactic.Positivity

/-!
# Rounding goes to the closest number

What `Binary64.round` is for: of all numbers of the format the one that it yields lies closest to
the exact quotient, and where two are equally close it is the one whose last binary digit is even.
`Binary64.NearestTo` says this with rational numbers and without a word about digits that are kept
or rounded off, and `Binary64.round_nearestTo` that rounding achieves it. An infinity takes part as
if it were the number that would come after the last finite one, which is how overflow is decided.

The proof goes up in three steps: to the integer that a quotient is rounded to, to numbers of so
many binary digits, and to the numbers of the format with the limit above them. In the second step
a competitor either stands on the same grid, or has fewer digits before the point than the quotient
and loses to the power of two between the two.
-/

namespace Inlay

namespace Number

/-! ## Integers and binary digits -/

/-- The first of two numbers is nearer to a place than the second, or as near and even in some
sense. -/
def Closer (place first second : Nat) (even : Prop) : Prop :=
  Nat.dist first place < Nat.dist second place ∨
    Nat.dist first place = Nat.dist second place ∧ even

/-- The integer to which a quotient is rounded is nearer to it than any other, or as near and
even. -/
theorem roundQuotient_closest {num den other : Nat} (positive : 0 < den)
    (differs : other ≠ roundQuotient num den) :
    Closer num (roundQuotient num den * den) (other * den) (roundQuotient num den % 2 = 0) := by
  have parts := Nat.div_add_mod' num den
  have rest := Nat.mod_lt num positive
  have next : (num / den + 1) * den = num / den * den + den := Nat.succ_mul _ _
  -- An integer that is not next to the quotient is a whole step farther off than one that is.
  have sides : other = num / den ∨ other = num / den + 1 ∨
      other * den + den ≤ num / den * den ∨ num / den * den + den + den ≤ other * den := by
    by_cases least : other < num / den
    · right; right; left
      rw [← Nat.succ_mul]
      exact Nat.mul_le_mul_right den least
    · by_cases most : num / den + 1 < other
      · right; right; right
        rw [← next, ← Nat.succ_mul]
        exact Nat.mul_le_mul_right den most
      · omega
  unfold Closer Nat.dist
  simp only [roundQuotient] at differs ⊢
  split at differs
  · rename_i below
    rw [if_pos below]
    rcases sides with same | rfl | sides
    · exact absurd same differs
    all_goals omega
  · rename_i half
    rw [if_neg half]
    split at differs
    · rename_i above
      rw [if_pos above, next]
      rcases sides with rfl | same | sides
      · omega
      · exact absurd same differs
      · omega
    · rename_i half'
      rw [if_neg half']
      rcases Nat.mod_two_eq_zero_or_one (num / den) with even | odd
      · rw [even, Nat.add_zero] at differs ⊢
        rcases sides with same | rfl | sides
        · exact absurd same differs
        all_goals omega
      · rw [odd] at differs ⊢
        rw [next]
        rcases sides with rfl | same | sides
        · omega
        · exact absurd same differs
        · omega

/-- Whether the last of the binary digits that are kept of a number is zero. -/
def LastEven (precision n : Nat) : Prop :=
  2 * twoPow (n.log2 + 1 - precision) ∣ n

theorem twoPow_succ (n : Nat) : twoPow (n + 1) = 2 * twoPow n := by
  rw [twoPow_add, Nat.mul_comm]
  rfl

/-- An even number of the last places that are kept has the last digit zero. -/
theorem lastEven_roundSignificant {precision num den : Nat} (some : 1 < precision)
    (even : roundQuotient num (den * twoPow (excessPlaces precision num den)) % 2 = 0) :
    LastEven precision (roundSignificant precision num den) := by
  simp only [roundSignificant, LastEven]
  have below := @div_lt_twoPow precision num den
  have step := @roundQuotient_le num (den * twoPow (excessPlaces precision num den))
  generalize roundQuotient num (den * twoPow (excessPlaces precision num den)) = kept at *
  generalize excessPlaces precision num den = places at *
  by_cases full : kept = twoPow precision
  · rw [full, ← twoPow_add, log2_twoPow, ← twoPow_succ]
    exact twoPow_dvd_twoPow (by omega)
  · have short : kept < twoPow precision := by omega
    have last := @log2_mul_twoPow_le _ _ places (Nat.lt_of_succ_lt some) short
    exact Nat.mul_dvd_mul (Nat.dvd_of_mod_eq_zero even) (twoPow_dvd_twoPow last)

/-- A quotient with places in excess reaches the power of two of its leading digit. -/
theorem twoPow_mul_le {precision num den : Nat} (some : 0 < precision)
    (long : excessPlaces precision num den ≠ 0) :
    twoPow (precision - 1 + excessPlaces precision num den) * den ≤ num := by
  unfold excessPlaces at long ⊢
  have whole : num / den ≠ 0 := by
    intro zero
    rw [zero, Nat.log2_zero] at long
    omega
  have length : precision - 1 + ((num / den).log2 + 1 - precision) = (num / den).log2 := by omega
  have leading : twoPow (num / den).log2 ≤ num / den := Nat.log2_self_le whole
  rw [length]
  exact Nat.le_trans (Nat.mul_le_mul_right den leading) (Nat.div_mul_le_self num den)

/-- A rounded quotient is nearer to it than any other number of so many binary digits, or as near
and its last digit is even. -/
theorem roundSignificant_closest {precision num den other : Nat} (some : 1 < precision)
    (positive : 0 < den) (significant : twoPow (other.log2 + 1 - precision) ∣ other)
    (differs : other ≠ roundSignificant precision num den) :
    Closer num (roundSignificant precision num den * den) (other * den)
      (LastEven precision (roundSignificant precision num den)) := by
  have even := @lastEven_roundSignificant precision num den some
  have reaches := @twoPow_mul_le precision num den (Nat.lt_of_succ_lt some)
  simp only [roundSignificant] at *
  generalize excessPlaces precision num den = places at *
  have unit : 0 < den * twoPow places := Nat.mul_pos positive (twoPow_pos places)
  have swap (n : Nat) : n * twoPow places * den = n * (den * twoPow places) := by
    rw [Nat.mul_assoc, Nat.mul_comm den]
  rw [swap]
  by_cases onGrid : twoPow places ∣ other
  · obtain ⟨kept, rfl⟩ := onGrid
    rw [Nat.mul_comm (twoPow places)] at differs ⊢
    rw [swap]
    rcases roundQuotient_closest unit fun same => differs (congrArg (· * twoPow places) same) with
      nearer | ⟨equal, isEven⟩
    · exact .inl nearer
    · exact .inr ⟨equal, even isEven⟩
  · -- A number with digits beyond the last place that is kept has fewer digits than the quotient.
    have fewer : other.log2 + 1 - precision < places := by
      by_contra beyond
      exact onGrid (Nat.dvd_trans (twoPow_dvd_twoPow (by omega)) significant)
    have least : other < twoPow (precision - 1 + places) :=
      Nat.lt_of_lt_of_le (lt_twoPow_log2_succ other) (twoPow_le_twoPow (by omega))
    have leading : twoPow (precision - 1 + places) * den ≤ num := reaches (by omega)
    have farther : other * den < twoPow (precision - 1 + places) * den :=
      Nat.mul_lt_mul_of_pos_right least positive
    left
    rw [twoPow_add, swap] at leading farther
    by_cases same : twoPow (precision - 1) = roundQuotient num (den * twoPow places)
    · rw [same] at leading farther
      simp only [Nat.dist]
      omega
    · have nearest := roundQuotient_closest unit same
      simp only [Closer, Nat.dist] at nearest ⊢
      omega

end Number

/-! ## Numbers of the format -/

namespace Binary64

open Number

/-- A number of units at which a finite number stands, or the limit, at which infinity does. -/
def OnGrid (units : Nat) : Prop :=
  units ≤ unitLimit ∧ twoPow (units.log2 + 1 - precision) ∣ units

theorem onGrid_unitLimit : OnGrid unitLimit := by
  refine ⟨Nat.le_refl _, ?_⟩
  rw [unitLimit, log2_twoPow]
  exact twoPow_dvd_twoPow (by decide)

/-- Numbers stand on the grid. -/
theorem onGrid_of_rank? {x : Binary64} {place : Int} (stands : x.rank? = some place) :
    OnGrid place.natAbs := by
  cases x with
  | nan => cases stands
  | infinite negative =>
    obtain rfl := Option.some.inj stands
    have limit :
        (if negative = true then -(unitLimit : Int) else unitLimit).natAbs = unitLimit := by
      cases negative with
      | false => rw [if_neg Bool.false_ne_true, Int.natAbs_natCast]
      | true => rw [if_pos rfl, Int.natAbs_neg, Int.natAbs_natCast]
    rw [limit]
    exact onGrid_unitLimit
  | finite negative magnitude =>
    obtain rfl := Option.some.inj stands
    have size : (signed negative magnitude).natAbs = magnitude.units := by
      cases negative <;> simp [signed]
    rw [size]
    exact ⟨Nat.le_of_lt magnitude.bounded, magnitude.significant⟩

/-- The number of units to which a quotient is rounded, at most the limit, is nearer to it than any
other on the grid, or as near and its last digit is even. -/
theorem min_roundSignificant_closest {num den other : Nat} (positive : 0 < den)
    (onGrid : OnGrid other)
    (differs : other ≠ min (roundSignificant precision num den) unitLimit) :
    Closer num (min (roundSignificant precision num den) unitLimit * den) (other * den)
      (LastEven precision (min (roundSignificant precision num den) unitLimit)) := by
  rcases Nat.lt_or_ge unitLimit (roundSignificant precision num den) with beyond | within
  · -- What is rounded to more than the limit is itself no less than the limit.
    rw [Nat.min_eq_right (Nat.le_of_lt beyond)] at differs ⊢
    have nearest := @roundSignificant_closest precision num den unitLimit (by decide) positive
      onGrid_unitLimit.2 (Nat.ne_of_lt beyond)
    have farther := Nat.mul_lt_mul_of_pos_right beyond positive
    have less := Nat.mul_lt_mul_of_pos_right (Nat.lt_of_le_of_ne onGrid.1 differs) positive
    left
    simp only [Closer, Nat.dist] at nearest ⊢
    omega
  · rw [Nat.min_eq_left within] at differs ⊢
    exact roundSignificant_closest (by decide) positive onGrid.2 differs

/-- Where a rounded quotient stands. -/
theorem rank?_round (negative : Bool) (num den : Nat) :
    (round negative num den).rank? =
      some (if negative then -↑(min (roundSignificant precision num den) unitLimit)
        else ↑(min (roundSignificant precision num den) unitLimit)) := by
  rw [round]
  split
  · rename_i bounded
    rw [Nat.min_eq_left (Nat.le_of_lt bounded)]
    cases negative <;> rfl
  · rename_i unbounded
    rw [Nat.min_eq_right (Nat.le_of_not_lt unbounded)]
    cases negative <;> rfl

/-- A number is the nearest to a rational number: all others are farther off, or as far and its own
last binary digit is even. The infinities count as if the next numbers after the last finite ones
were there. -/
def NearestTo (x : Binary64) (q : ℚ) : Prop :=
  ∃ place, x.rank? = some place ∧ ∀ (y : Binary64) (other : Int), y.rank? = some other →
    other ≠ place →
      |(place : ℚ) - q * unitsPerOne| < |(other : ℚ) - q * unitsPerOne| ∨
        |(place : ℚ) - q * unitsPerOne| = |(other : ℚ) - q * unitsPerOne| ∧
          LastEven precision place.natAbs

/-- The distance of a natural number from a quotient. -/
theorem abs_sub_div {num den : Nat} (positive : 0 < den) (n : Nat) :
    |(n : ℚ) - num / den| = (Nat.dist (n * den) num : ℚ) / den := by
  have positive' : (0 : ℚ) < den := Nat.cast_pos.mpr positive
  have whole : (n : ℚ) - num / den = (n * den - num) / den := by
    rw [sub_div, mul_div_cancel_right₀ _ positive'.ne']
  rw [whole, abs_div, abs_of_pos positive', Nat.dist]
  congr 1
  rcases Nat.le_total (n * den) num with less | more
  · have cast : (n : ℚ) * den ≤ num := by exact_mod_cast less
    rw [Nat.sub_eq_zero_of_le less, Nat.zero_add, Nat.cast_sub less, abs_of_nonpos (by linarith)]
    push_cast
    ring
  · have cast : (num : ℚ) ≤ n * den := by exact_mod_cast more
    rw [Nat.sub_eq_zero_of_le more, Nat.add_zero, Nat.cast_sub more, abs_of_nonneg (by linarith)]
    push_cast
    ring

/-- No place on the grid, on either side of zero, is nearer to a quotient than the one to which it
is rounded. -/
theorem abs_sub_closest {num den units : Nat} {other : Int} (positive : 0 < den)
    (rounded : units = min (roundSignificant precision num den) unitLimit)
    (onGrid : OnGrid other.natAbs) (differs : other ≠ units) :
    |(units : ℚ) - num / den| < |(other : ℚ) - num / den| ∨
      |(units : ℚ) - num / den| = |(other : ℚ) - num / den| ∧ LastEven precision units := by
  have positive' : (0 : ℚ) < den := Nat.cast_pos.mpr positive
  have natural {n : Nat} (onGrid : OnGrid n) (differs : n ≠ units) :
      |(units : ℚ) - num / den| < |(n : ℚ) - num / den| ∨
        |(units : ℚ) - num / den| = |(n : ℚ) - num / den| ∧ LastEven precision units := by
    rw [abs_sub_div positive, abs_sub_div positive, div_lt_div_iff_of_pos_right positive',
      div_left_inj' positive'.ne', Nat.cast_lt, Nat.cast_inj]
    subst rounded
    exact min_roundSignificant_closest positive onGrid differs
  rcases Int.lt_or_le other 0 with negative | notNegative
  · -- Below zero everything is farther off than zero is.
    left
    have quotient : (0 : ℚ) ≤ num / den := by positivity
    have below : (other : ℚ) < 0 := by exact_mod_cast negative
    have farther : (num : ℚ) / den < |(other : ℚ) - num / den| := by
      rw [abs_of_neg (by linarith)]
      linarith
    refine lt_of_le_of_lt ?_ farther
    by_cases zero : 0 = units
    · rw [← zero, Nat.cast_zero, zero_sub, abs_neg, abs_of_nonneg quotient]
    · have grid : OnGrid 0 := ⟨Nat.zero_le _, Nat.dvd_zero _⟩
      have near := natural grid zero
      rw [Nat.cast_zero, zero_sub, abs_neg, abs_of_nonneg quotient] at near
      exact near.elim le_of_lt fun equal => le_of_eq equal.1
  · obtain ⟨n, rfl⟩ := Int.eq_ofNat_of_zero_le notNegative
    exact natural onGrid fun same => differs (congrArg Nat.cast same)

/-- A rounded quotient of units is the number nearest to it. -/
theorem round_nearestTo {num den : Nat} {q : ℚ} {negative : Bool} (positive : 0 < den)
    (value : q * unitsPerOne = if negative then -(num / den : ℚ) else num / den) :
    (round negative num den).NearestTo q := by
  refine ⟨_, rank?_round negative num den, ?_⟩
  generalize rounded : min (roundSignificant precision num den) unitLimit = units
  intro y other stands differs
  rw [value]
  have onGrid := onGrid_of_rank? stands
  cases negative with
  | false => exact abs_sub_closest positive rounded.symm onGrid differs
  | true =>
    have mirrored : OnGrid (-other).natAbs := by rwa [Int.natAbs_neg]
    have apart : -other ≠ units := fun same => differs (by simp [← same])
    have near := abs_sub_closest positive rounded.symm mirrored apart
    have flip (a b : ℚ) : |a - -b| = |-a - b| := by
      rw [← abs_neg]
      congr 1
      ring
    simp only [if_true, flip, Int.cast_neg, Int.cast_natCast, neg_neg, Int.natAbs_neg,
      Int.natAbs_natCast] at near ⊢
    exact near

/-- The number of a natural number is the nearest to it. -/
theorem ofNat_nearestTo (n : Nat) : (ofNat n).NearestTo n := by
  refine round_nearestTo Nat.one_pos ?_
  rw [if_neg Bool.false_ne_true, Nat.cast_one, div_one, Nat.cast_mul]

end Binary64

/-! ## Decimals -/

namespace Decimal

open Number

/-- The rational number that a decimal stands for. -/
def value (d : Decimal) : ℚ :=
  if d.negative then -(d.digits * 10 ^ d.exponent) else d.digits * 10 ^ d.exponent

/-- The quotient of units for a decimal without its sign. -/
theorem decimalUnits_div (digits : Nat) (exponent : Int) :
    ((decimalUnits digits exponent).1 / (decimalUnits digits exponent).2 : ℚ) =
      digits * 10 ^ exponent * unitsPerOne := by
  have ten (n : Nat) : (tenPow n : ℚ) = 10 ^ n := by
    rw [tenPow]
    exact Nat.cast_pow 10 n
  cases exponent with
  | ofNat e =>
    rw [decimalUnits, Nat.cast_mul, Nat.cast_mul, ten, Nat.cast_one, div_one, Int.ofNat_eq_natCast,
      zpow_natCast]
  | negSucc e =>
    rw [decimalUnits, Nat.cast_mul, ten, zpow_negSucc]
    ring

/-- What the reader takes for the number of a decimal is the nearest to it. -/
theorem nearest_nearestTo (d : Decimal) : d.nearest.NearestTo d.value := by
  obtain ⟨negative, digits, exponent⟩ := d
  rw [nearest_eq_round]
  refine Binary64.round_nearestTo (decimalUnits_pos digits exponent) ?_
  rw [decimalUnits_div, value]
  cases negative with
  | false => rfl
  | true => exact neg_mul _ _

end Decimal

end Inlay
