/-!
# Rounding a quotient

The only rounding of the library: a quotient of natural numbers goes to the nearest one, and from
the middle between two to the even one. `roundSignificant` does so after a number of leading binary
digits, which is what a floating-point format keeps; every sum, product, quotient and decimal text
reaches its nearest number through it.
-/

namespace Inlay.Number

/-- A power of two. -/
def twoPow (n : Nat) : Nat := Nat.pow 2 n

/-- A power of ten. -/
def tenPow (n : Nat) : Nat := Nat.pow 10 n

/-- The natural number nearest to a quotient. The middle between two goes to the even one. -/
def roundQuotient (num den : Nat) : Nat :=
  let whole := num / den
  let twice := 2 * (num % den)
  if twice < den then whole
  else if den < twice then whole + 1
  else whole + whole % 2

/-- How many binary places a quotient has beyond its leading `precision` binary digits. -/
def excessPlaces (precision num den : Nat) : Nat :=
  (num / den).log2 + 1 - precision

/-- A quotient with its leading `precision` binary digits kept and the rest rounded off. -/
def roundSignificant (precision num den : Nat) : Nat :=
  let places := excessPlaces precision num den
  roundQuotient num (den * twoPow places) * twoPow places

/-- Every power of two is positive. -/
theorem twoPow_pos (n : Nat) : 0 < twoPow n :=
  Nat.two_pow_pos n

/-- The product of two powers of two is the power of the sum. -/
theorem twoPow_add (m n : Nat) : twoPow (m + n) = twoPow m * twoPow n :=
  Nat.pow_add 2 m n

/-- A larger power of two is a multiple of a smaller one. -/
theorem twoPow_dvd_twoPow {m n : Nat} (h : m ≤ n) : twoPow m ∣ twoPow n :=
  Nat.pow_dvd_pow 2 h

/-- Powers of two grow with their exponent. -/
theorem twoPow_le_twoPow {m n : Nat} (h : m ≤ n) : twoPow m ≤ twoPow n :=
  Nat.pow_le_pow_right (by decide) h

theorem twoPow_lt_twoPow {m n : Nat} (h : m < n) : twoPow m < twoPow n :=
  Nat.pow_lt_pow_right (by decide) h

/-- The binary logarithm of a power of two is its exponent. -/
theorem log2_twoPow (n : Nat) : (twoPow n).log2 = n :=
  Nat.log2_two_pow

/-- A number is below the power of two after its binary logarithm. -/
theorem lt_twoPow_log2_succ (n : Nat) : n < twoPow (n.log2 + 1) :=
  Nat.lt_log2_self

/-- A positive number below a power of two has its binary logarithm below the exponent. -/
theorem log2_lt_of_lt_twoPow {n m : Nat} (positive : n ≠ 0) (h : n < twoPow m) : n.log2 < m :=
  (Nat.log2_lt positive).mpr h

/-- Rounding goes to one of the two neighbours of the quotient. -/
theorem roundQuotient_cases (num den : Nat) :
    roundQuotient num den = num / den ∨ roundQuotient num den = num / den + 1 := by
  simp only [roundQuotient]
  split
  · exact .inl rfl
  · split
    · exact .inr rfl
    · rcases Nat.mod_two_eq_zero_or_one (num / den) with h | h <;> simp [h]

/-- Rounding passes no integer. -/
theorem roundQuotient_le {num den : Nat} : roundQuotient num den ≤ num / den + 1 := by
  rcases roundQuotient_cases num den with h | h <;> omega

/-- A whole quotient is its own rounding. -/
theorem roundQuotient_of_mul {num den : Nat} (h : 0 < den) :
    roundQuotient (num * den) den = num := by
  simp [roundQuotient, Nat.mul_div_cancel _ h, h]

/-- Below the excess places a quotient has no more than `precision` binary digits. -/
theorem div_lt_twoPow {precision num den : Nat} :
    num / (den * twoPow (excessPlaces precision num den)) < twoPow precision := by
  rw [← Nat.div_div_eq_div_mul]
  apply Nat.div_lt_of_lt_mul
  rw [← twoPow_add]
  have below := lt_twoPow_log2_succ (num / den)
  have longer : twoPow ((num / den).log2 + 1) ≤
      twoPow (excessPlaces precision num den + precision) :=
    twoPow_le_twoPow (by unfold excessPlaces; omega)
  omega

/-- Digits that are few enough to be kept end at the place where they are put. -/
theorem log2_mul_twoPow_le {precision kept places : Nat} (some : 0 < precision)
    (short : kept < twoPow precision) : (kept * twoPow places).log2 + 1 - precision ≤ places := by
  by_cases zero : kept * twoPow places = 0
  · rw [zero, Nat.log2_zero]
    omega
  · have below : kept * twoPow places < twoPow (precision + places) := by
      rw [twoPow_add]
      exact Nat.mul_lt_mul_of_pos_right short (twoPow_pos places)
    have length := log2_lt_of_lt_twoPow zero below
    omega

/-- A rounded quotient has no more than `precision` significant binary digits: all places beyond
them are zero. -/
theorem twoPow_dvd_roundSignificant {precision : Nat} (some : 0 < precision) (num den : Nat) :
    twoPow ((roundSignificant precision num den).log2 + 1 - precision) ∣
      roundSignificant precision num den := by
  simp only [roundSignificant]
  have below := @div_lt_twoPow precision num den
  have step := @roundQuotient_le num (den * twoPow (excessPlaces precision num den))
  generalize roundQuotient num (den * twoPow (excessPlaces precision num den)) = kept at step
  generalize excessPlaces precision num den = places at *
  by_cases full : kept = twoPow precision
  · rw [full, ← twoPow_add, log2_twoPow]
    exact twoPow_dvd_twoPow (by omega)
  · have short : kept < twoPow precision := by omega
    exact Nat.dvd_trans (twoPow_dvd_twoPow (log2_mul_twoPow_le some short))
      (Nat.dvd_mul_left (twoPow places) kept)

/-- What has no more significant binary digits than are kept is its own rounding. -/
theorem roundSignificant_of_dvd {precision n : Nat}
    (significant : twoPow (n.log2 + 1 - precision) ∣ n) : roundSignificant precision n 1 = n := by
  have excess : excessPlaces precision n 1 = n.log2 + 1 - precision := by
    rw [excessPlaces, Nat.div_one]
  simp only [roundSignificant, excess, Nat.one_mul]
  generalize n.log2 + 1 - precision = places at significant
  obtain ⟨kept, rfl⟩ := significant
  rw [Nat.mul_comm (twoPow places), roundQuotient_of_mul (twoPow_pos places)]

end Inlay.Number
