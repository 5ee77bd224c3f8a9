import Inlay.Number.Decimal
import Mathlib.Data.List.Basic

/-!
# Natural numbers, written and as numbers

A natural number has one text of decimal digits without a zero in front, and `toDigits_digitsValue`
finds it again from its value. As double-precision numbers the natural numbers are exact up to two
to the power of the digits that are kept (`Binary64.ofNat_eq`), and so are their sums.
-/

namespace Inlay

/-! ## Decimal digits -/

namespace Decimal

theorem digitChar_of_isDigit {c : Char} (digit : c.isDigit = true) :
    c.toNat - '0'.toNat < 10 ∧ Nat.digitChar (c.toNat - '0'.toNat) = c := by
  have range := Char.isDigit_iff_toNat.mp digit
  have zero : '0'.toNat = 48 := rfl
  have nine : '9'.toNat = 57 := rfl
  have small : c.toNat - '0'.toNat < 10 := by omega
  refine ⟨small, Char.toNat_inj.mp ?_⟩
  rw [Nat.toNat_digitChar_of_lt_ten small]
  omega

/-- Digits behind those of a positive number are the last digits of what they are together. -/
theorem toDigits_ofDigitChars {n : Nat} (positive : 0 < n) {cs : List Char}
    (all : ∀ c ∈ cs, c.isDigit = true) :
    Nat.toDigits 10 (Nat.ofDigitChars 10 cs n) = Nat.toDigits 10 n ++ cs := by
  induction cs generalizing n with
  | nil => rw [Nat.ofDigitChars_nil, List.append_nil]
  | cons c cs ih =>
    obtain ⟨digit, others⟩ := List.forall_mem_cons.mp all
    obtain ⟨small, same⟩ := digitChar_of_isDigit digit
    have longer : 0 < 10 * n + (c.toNat - '0'.toNat) := by omega
    rw [Nat.ofDigitChars_cons, ih longer others,
      ← Nat.toDigits_append_toDigits (by decide) positive small, Nat.toDigits_of_lt_base small,
      same, List.append_assoc, List.singleton_append]

/-- Digits without a zero in front are those of their value. -/
theorem toDigits_digitsValue {cs : List Char} (digits : isDigits cs = true)
    (leading : cs.head? ≠ some '0') : Nat.toDigits 10 (digitsValue cs) = cs := by
  obtain ⟨notEmpty, all⟩ := isDigits_iff.mp digits
  cases cs with
  | nil => exact absurd rfl notEmpty
  | cons c cs =>
    obtain ⟨digit, others⟩ := List.forall_mem_cons.mp all
    obtain ⟨small, same⟩ := digitChar_of_isDigit digit
    have positive : 0 < c.toNat - '0'.toNat := by
      apply Nat.pos_of_ne_zero
      intro zero
      rw [zero] at same
      exact leading (congrArg some same.symm)
    rw [digitsValue, Nat.ofDigitChars_cons, Nat.mul_zero, Nat.zero_add,
      toDigits_ofDigitChars positive others, Nat.toDigits_of_lt_base small, same,
      List.singleton_append]

theorem isDigit_of_mem_toDigits {n : Nat} {c : Char} (mem : c ∈ Nat.toDigits 10 n) :
    c.isDigit = true :=
  Nat.isDigit_of_mem_toDigits (by decide) (by decide) mem

theorem isDigits_toDigits (n : Nat) : isDigits (Nat.toDigits 10 n) = true :=
  isDigits_iff.mpr ⟨Nat.toDigits_ne_nil, fun _ => isDigit_of_mem_toDigits⟩

/-- The digits of a number have it as their value. -/
theorem digitsValue_toDigits (n : Nat) : digitsValue (Nat.toDigits 10 n) = n :=
  Nat.ofDigitChars_ten_toDigits

/-- Only zero is written with a zero in front. -/
theorem head?_toDigits {n : Nat} (positive : 0 < n) : (Nat.toDigits 10 n).head? ≠ some '0' := by
  induction n using Nat.strongRecOn with
  | ind n ih =>
    by_cases small : n < 10
    · rw [Nat.toDigits_of_lt_base small, List.head?_cons, ne_eq, Option.some.injEq,
        Nat.digitChar_eq_zero]
      omega
    · rw [Nat.toDigits_of_base_le (by decide) (by omega),
        List.head?_append_of_ne_nil _ Nat.toDigits_ne_nil]
      exact ih (n / 10) (by omega) (by omega)

end Decimal

/-! ## Exact numbers -/

namespace Number

/-- The natural numbers up to this one are double-precision numbers. -/
def exactLimit : Nat := twoPow precision

theorem exactLimit_mul_unitsPerOne : exactLimit * unitsPerOne = twoPow (precision + 1074) := by
  rw [exactLimit, unitsPerOne, twoPow_add]

/-- Up to the limit no significant digit is lost. -/
theorem significant_of_le {n : Nat} (small : n ≤ exactLimit) :
    twoPow ((n * unitsPerOne).log2 + 1 - precision) ∣ n * unitsPerOne := by
  rcases Nat.eq_or_lt_of_le small with rfl | below
  · rw [exactLimit_mul_unitsPerOne, log2_twoPow]
    exact twoPow_dvd_twoPow (by decide)
  · by_cases zero : n * unitsPerOne = 0
    · rw [zero]
      exact Nat.dvd_zero _
    · have short : n * unitsPerOne < twoPow (precision + 1074) := by
        rw [← exactLimit_mul_unitsPerOne]
        exact Nat.mul_lt_mul_of_pos_right below (twoPow_pos 1074)
      have length := log2_lt_of_lt_twoPow zero short
      have places : twoPow ((n * unitsPerOne).log2 + 1 - precision) ∣ unitsPerOne :=
        twoPow_dvd_twoPow (by omega)
      exact Nat.dvd_mul_left_of_dvd places n

theorem lt_unitLimit_of_le {n : Nat} (small : n ≤ exactLimit) : n * unitsPerOne < unitLimit := by
  have most : n * unitsPerOne ≤ exactLimit * unitsPerOne := Nat.mul_le_mul_right _ small
  have limit : exactLimit * unitsPerOne < unitLimit := by
    rw [exactLimit_mul_unitsPerOne]
    exact twoPow_lt_twoPow (by decide)
  exact Nat.lt_of_le_of_lt most limit

end Number

open Number

/-- A natural number up to the limit as a magnitude. -/
def Magnitude.whole (n : Nat) (small : n ≤ exactLimit) : Magnitude :=
  ⟨n * unitsPerOne, lt_unitLimit_of_le small, significant_of_le small⟩

namespace Binary64

/-- A natural number up to the limit is a number exactly. -/
theorem ofNat_eq {n : Nat} (small : n ≤ exactLimit) : ofNat n = finite false (.whole n small) :=
  round_units false (.whole n small)

theorem finite_add (a b : Magnitude) :
    finite false a + finite false b = ofUnits false (a.units + b.units : Nat) := rfl

/-- A sum of units that is not below zero is rounded as it is. -/
theorem ofUnits_natCast (units : Nat) : ofUnits false units = round false units 1 := by
  rw [ofUnits]
  by_cases none : units = 0
  · rw [if_pos (Int.natCast_eq_zero.mpr none), none]
    exact (round_units false default).symm
  · rw [if_neg (mt Int.natCast_eq_zero.mp none), Int.natAbs_natCast, decide_eq_false (by omega)]

/-- The sum of natural numbers up to the limit is exact. -/
theorem ofNat_add {m n : Nat} (small : m + n ≤ exactLimit) : ofNat m + ofNat n = ofNat (m + n) := by
  rw [ofNat_eq (Nat.le_trans (Nat.le_add_right m n) small),
    ofNat_eq (Nat.le_trans (Nat.le_add_left n m) small), finite_add, ofUnits_natCast, ofNat,
    Nat.add_mul]
  rfl

theorem compare?_finite (a b : Magnitude) :
    (finite false a).compare? (finite false b) = some (compare (a.units : Int) b.units) := rfl

/-- Of natural numbers up to the limit the lesser one is the lesser number. -/
theorem compare?_ofNat_eq_lt_iff {m n : Nat} (small : m ≤ exactLimit) (small' : n ≤ exactLimit) :
    (ofNat m).compare? (ofNat n) = some .lt ↔ m < n := by
  rw [ofNat_eq small, ofNat_eq small', compare?_finite, Option.some.injEq, Int.compare_eq_lt,
    Int.ofNat_lt]
  exact Nat.mul_lt_mul_right (twoPow_pos 1074)

end Binary64

end Inlay
