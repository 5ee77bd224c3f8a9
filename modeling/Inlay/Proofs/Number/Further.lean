import Inlay.Proofs.Number.Nearest
import Inlay.Proofs.Number.Whole

/-!
# Digits behind a number

What putting further binary digits behind a number does to its rounding, where it already has more
of them than are kept. They make no difference, unless the number is in the middle between two and
would be rounded down to the even one: then anything but zeros behind it takes the rounded number up
by one place (`roundSignificant_append`). Behind a number that was rounded before there is no such
middle, so that digits read one after the other are lost without a trace once the number has reached
the limit of exact numbers (`Binary64.ofNat_timesPlus`).
-/

namespace Inlay

namespace Number

/-! ## Rounding with further digits -/

theorem excessPlaces_one (precision n : Nat) :
    excessPlaces precision n 1 = n.log2 + 1 - precision := by
  rw [excessPlaces, Nat.div_one]

/-- Digits behind a number move its leading digit up by as many places. -/
theorem log2_append {n rest places : Nat} (positive : n ≠ 0) (small : rest < twoPow places) :
    (n * twoPow places + rest).log2 = n.log2 + places := by
  have longer : n * twoPow places + rest ≠ 0 := by
    have some := Nat.mul_ne_zero positive (Nat.ne_of_gt (twoPow_pos places))
    omega
  apply (Nat.log2_eq_iff longer).mpr
  constructor
  · show twoPow (n.log2 + places) ≤ _
    rw [twoPow_add]
    exact Nat.le_add_right_of_le (Nat.mul_le_mul_right _ (Nat.log2_self_le positive))
  · show _ < twoPow (n.log2 + places + 1)
    calc
      n * twoPow places + rest < (n + 1) * twoPow places := by rw [Nat.succ_mul]; omega
      _ ≤ twoPow (n.log2 + 1) * twoPow places :=
        Nat.mul_le_mul_right _ (lt_twoPow_log2_succ n)
      _ = twoPow (n.log2 + places + 1) := by rw [← twoPow_add, Nat.add_right_comm]

/-- Whether a quotient is in the middle between two integers of which the lower one is even. -/
def Halfway (num den : Nat) : Prop :=
  2 * (num % den) = den ∧ num / den % 2 = 0

instance (num den : Nat) : Decidable (Halfway num den) :=
  inferInstanceAs (Decidable (_ ∧ _))

/-- What is put behind a numerator counts only if it decides where the middle goes. -/
theorem roundQuotient_append {num den factor rest : Nat} (even : den % 2 = 0)
    (small : rest < factor) :
    roundQuotient (num * factor + rest) (den * factor) = roundQuotient num den +
      if Halfway num den ∧ rest ≠ 0 then 1 else 0 := by
  have positive : 0 < factor := Nat.zero_lt_of_lt small
  have whole : (num * factor + rest) / (den * factor) = num / den := by
    rw [Nat.mul_comm den, ← Nat.div_div_eq_div_mul, Nat.add_comm,
      Nat.add_mul_div_right _ _ positive, Nat.div_eq_of_lt small, Nat.zero_add]
  have left : (num * factor + rest) % (den * factor) = num % den * factor + rest := by
    have parts := Nat.div_add_mod' (num * factor + rest) (den * factor)
    have parts' := congrArg (· * factor) (Nat.div_add_mod' num den)
    simp only [Nat.add_mul, Nat.mul_assoc] at parts'
    rw [whole] at parts
    omega
  have double : 2 * (num % den * factor + rest) = 2 * (num % den) * factor + 2 * rest := by
    rw [Nat.mul_add, Nat.mul_assoc]
  simp only [roundQuotient, whole, left, double]
  -- Half the denominator is whole, so what is off the middle is off it by more than the rest.
  rcases Nat.lt_trichotomy (2 * (num % den)) den with below | middle | above
  · have off : (2 * (num % den) + 2) * factor ≤ den * factor := Nat.mul_le_mul_right _ (by omega)
    rw [Nat.add_mul] at off
    have still : 2 * (num % den) * factor + 2 * rest < den * factor := by omega
    have apart : ¬Halfway num den := fun halfway => Nat.ne_of_lt below halfway.1
    simp [below, still, apart]
  · rcases Nat.eq_zero_or_pos rest with rfl | some
    · simp [middle]
    · rcases Nat.mod_two_eq_zero_or_one (num / den) with even | odd
      · have halfway : Halfway num den := ⟨middle, even⟩
        simp [middle, even, some, Nat.ne_of_gt some, halfway]
      · have apart : ¬Halfway num den := fun halfway => by rw [halfway.2] at odd; cases odd
        simp [middle, odd, some, apart]
  · have off : den * factor < 2 * (num % den) * factor :=
      Nat.mul_lt_mul_of_pos_right above positive
    have still : den * factor < 2 * (num % den) * factor + 2 * rest := by omega
    have apart : ¬Halfway num den := fun halfway => Nat.ne_of_gt above halfway.1
    simp [above, still, Nat.lt_asymm above, Nat.lt_asymm still, apart]

/-- Whether a number is in the middle between two with so many binary digits, of which the lower one
is even. -/
def Tied (precision n : Nat) : Prop :=
  Halfway n (twoPow (excessPlaces precision n 1))

instance (precision n : Nat) : Decidable (Tied precision n) :=
  inferInstanceAs (Decidable (Halfway _ _))

/-- Digits behind a number that has more than are kept take it up by one place if it is in the
middle between two and they are not all zero, and count as zeros otherwise. -/
theorem roundSignificant_append {precision n rest places : Nat} (long : twoPow precision ≤ n)
    (small : rest < twoPow places) :
    roundSignificant precision (n * twoPow places + rest) 1 =
      (roundSignificant precision n 1 + if Tied precision n ∧ rest ≠ 0
        then twoPow (excessPlaces precision n 1) else 0) * twoPow places := by
  have positive : n ≠ 0 := Nat.ne_of_gt (Nat.lt_of_lt_of_le (twoPow_pos precision) long)
  have digits := le_log2_of_twoPow_le long
  have further : excessPlaces precision (n * twoPow places + rest) 1 =
      excessPlaces precision n 1 + places := by
    rw [excessPlaces_one, excessPlaces_one, log2_append positive small]
    omega
  have even : twoPow (excessPlaces precision n 1) % 2 = 0 := by
    have some : 0 < excessPlaces precision n 1 := by rw [excessPlaces_one]; omega
    exact Nat.mod_eq_zero_of_dvd (twoPow_dvd_twoPow some)
  simp only [roundSignificant, further, twoPow_add, Nat.one_mul, roundQuotient_append even small]
  rw [← Nat.mul_assoc, Nat.add_mul]
  congr 2
  by_cases tied : Halfway n (twoPow (excessPlaces precision n 1)) ∧ rest ≠ 0
  · rw [if_pos tied, Nat.one_mul]
    exact (if_pos tied).symm
  · rw [if_neg tied, Nat.zero_mul]
    exact (if_neg tied).symm

/-- Zeros behind a number move its rounding up by as many places. -/
theorem roundSignificant_shift {precision n : Nat} (long : twoPow precision ≤ n) (places : Nat) :
    roundSignificant precision (n * twoPow places) 1 =
      roundSignificant precision n 1 * twoPow places := by
  have shifted := roundSignificant_append long (twoPow_pos places)
  rwa [if_neg fun tied => tied.2 rfl] at shifted

/-- A number without excess digits is not in the middle between two. -/
theorem not_tied_of_dvd {precision n : Nat}
    (significant : twoPow (n.log2 + 1 - precision) ∣ n) : ¬Tied precision n := by
  intro tied
  have middle := tied.1
  rw [excessPlaces_one, Nat.mod_eq_zero_of_dvd significant] at middle
  exact Nat.ne_of_lt (twoPow_pos _) middle

/-- A number with more digits than are kept has no fewer once it is rounded. -/
theorem le_roundSignificant {precision n : Nat} (some : 0 < precision)
    (long : twoPow precision ≤ n) : twoPow precision ≤ roundSignificant precision n 1 := by
  have digits := le_log2_of_twoPow_le long
  have positive : n / 1 ≠ 0 := by
    rw [Nat.div_one]
    exact Nat.ne_of_gt (Nat.lt_of_lt_of_le (twoPow_pos precision) long)
  refine Nat.le_trans (twoPow_le_twoPow ?_) (twoPow_log2_le_roundSignificant some positive)
  rwa [Nat.div_one]

end Number

namespace Binary64

open Number

/-! ## Digits behind a natural number -/

theorem isFinite_round {negative : Bool} {num den : Nat} :
    (round negative num den).isFinite = true ↔ roundSignificant precision num den < unitLimit := by
  rw [round]
  split
  · rename_i bounded
    exact iff_of_true rfl bounded
  · rename_i unbounded
    exact iff_of_false Bool.false_ne_true unbounded

/-- Quotients have the same nearest number if they are rounded to the same number of units, or both
beyond the limit. -/
theorem round_eq_round_iff {negative : Bool} {num den num' den' : Nat} :
    round negative num den = round negative num' den' ↔
      roundSignificant precision num den = roundSignificant precision num' den' ∨
        unitLimit ≤ roundSignificant precision num den ∧
          unitLimit ≤ roundSignificant precision num' den' := by
  simp only [round]
  split <;> split <;> simp <;> omega

theorem exactLimit_le_mul {n : Nat} (large : exactLimit ≤ n) (places : Nat) :
    exactLimit ≤ n * twoPow places :=
  Nat.le_trans large (Nat.le_mul_of_pos_right n (twoPow_pos places))

/-- From the limit of exact numbers on, a natural number is rounded as its units are. -/
theorem roundSignificant_units {n : Nat} (large : exactLimit ≤ n) :
    roundSignificant precision (n * unitsPerOne) 1 =
      roundSignificant precision n 1 * unitsPerOne :=
  roundSignificant_shift large 1074

/-- Digits behind a natural number that has reached the limit of exact numbers count as zeros,
unless the number is in the middle between two. -/
theorem ofNat_append_iff {n rest places : Nat} (large : exactLimit ≤ n)
    (small : rest < twoPow places) :
    ofNat (n * twoPow places) = ofNat (n * twoPow places + rest) ↔
      ¬(Tied precision n ∧ rest ≠ 0 ∧ (ofNat (n * twoPow places)).isFinite = true) := by
  have zeros := exactLimit_le_mul large places
  rw [ofNat, ofNat, isFinite_round, round_eq_round_iff, roundSignificant_units zeros,
    roundSignificant_units (Nat.le_add_right_of_le zeros), roundSignificant_shift large,
    roundSignificant_append large small]
  by_cases tied : Tied precision n ∧ rest ≠ 0
  · rw [if_pos tied]
    have more : 0 < twoPow (excessPlaces precision n 1) * twoPow places * unitsPerOne :=
      Nat.mul_pos (Nat.mul_pos (twoPow_pos _) (twoPow_pos _)) (twoPow_pos 1074)
    simp only [Nat.add_mul, tied.1, tied.2, ne_eq, not_false_eq_true, true_and]
    omega
  · rw [if_neg tied]
    exact iff_of_true (.inl rfl) fun all => tied ⟨all.1, all.2.1⟩

theorem timesPlus_finite (magnitude : Magnitude) (factor summand : Nat) :
    (finite false magnitude).timesPlus factor summand =
      round false (magnitude.units * factor + summand * unitsPerOne) 1 :=
  ofUnits_natCast _

/-- Up to the limit of exact numbers no digit is lost with the next one. -/
theorem ofNat_timesPlus {n : Nat} (small : n ≤ exactLimit) (factor summand : Nat) :
    (ofNat n).timesPlus factor summand = ofNat (n * factor + summand) := by
  rw [ofNat_eq small, timesPlus_finite, ofNat, Nat.add_mul, Nat.mul_right_comm]
  rfl

/-- From the limit of exact numbers on, every further digit counts as zero: the number is rounded
before the digit is added, and then it is no longer in the middle between two. -/
theorem ofNat_timesPlus_twoPow {n places summand : Nat} (large : exactLimit ≤ n)
    (small : summand < twoPow places) :
    (ofNat n).timesPlus (twoPow places) summand = ofNat (n * twoPow places) := by
  have zeros := exactLimit_le_mul large places
  have rounded := le_roundSignificant (by decide) large
  have significant := @twoPow_dvd_roundSignificant precision (by decide) n 1
  have same := roundSignificant_of_dvd significant
  have shifted : ofNat (roundSignificant precision n 1 * twoPow places) =
      ofNat (n * twoPow places) := by
    rw [ofNat, ofNat, round_eq_round_iff, roundSignificant_units (exactLimit_le_mul rounded places),
      roundSignificant_units zeros, roundSignificant_shift large, roundSignificant_shift rounded,
      same]
    exact .inl rfl
  have lost := (ofNat_append_iff rounded small).mpr fun tied => not_tied_of_dvd significant tied.1
  rw [← shifted]
  rw [ofNat, round]
  split
  · rw [timesPlus_finite, lost, ofNat, Nat.add_mul, Nat.mul_right_comm]
    simp only [roundSignificant_units large]
  · rename_i unbounded
    have beyond : ¬roundSignificant precision
        (roundSignificant precision n 1 * twoPow places * unitsPerOne) 1 < unitLimit := by
      rw [roundSignificant_units large] at unbounded
      rw [roundSignificant_units (exactLimit_le_mul rounded places), roundSignificant_shift rounded,
        same, Nat.mul_right_comm]
      have more := Nat.le_mul_of_pos_right
        (roundSignificant precision n 1 * unitsPerOne) (twoPow_pos places)
      omega
    rw [ofNat, round, dif_neg beyond]
    rfl

end Binary64

end Inlay
