import Inlay.Proofs.Number.Nearest
import Inlay.Proofs.Number.Numeral
import Inlay.Proofs.Number.Whole

/-!
# Numbers read back from their texts

A positive decimal is laid out positionally or with an exponent, and either way it is the text of a
decimal of the same value (`exists_written`). So the text of a number counts as that number again
(`ofText_text`).
-/

namespace Inlay

namespace Number

open Decimal

variable {negative : Bool} {sign : List Char}

theorem digitsValue_append_zeros (digits : List Char) (zeros : Nat) :
    digitsValue (digits ++ List.replicate zeros '0') = digitsValue digits * tenPow zeros := by
  rw [digitsValue, Nat.ofDigitChars_append, Nat.ofDigitChars_replicate_zero, Nat.mul_comm]
  rfl

theorem digitsValue_zeros_append (zeros : Nat) (digits : List Char) :
    digitsValue (List.replicate zeros '0' ++ digits) = digitsValue digits := by
  rw [digitsValue, Nat.ofDigitChars_append, Nat.ofDigitChars_replicate_zero, Nat.mul_zero,
    digitsValue]

theorem isDigit_of_mem_replicate {zeros : Nat} {c : Char} (mem : c ∈ List.replicate zeros '0') :
    c.isDigit = true := by
  obtain rfl := List.eq_of_mem_replicate mem
  rfl

/-- The exponent behind a decimal is written with its sign. -/
theorem exponent_exponentText (exponent : Int) : Exponent exponent (exponentText exponent) := by
  cases exponent with
  | ofNat e =>
    have whole := Exponent.marked (.inl rfl) .plus (isDigits_toDigits e)
    rwa [digitsValue_toDigits] at whole
  | negSucc e =>
    have whole := Exponent.marked (.inl rfl) .minus (isDigits_toDigits (e + 1))
    rwa [digitsValue_toDigits] at whole

/-- Behind the first digit stands a point with the others, if there are any. -/
theorem exists_fraction_pointed {first : Char} {rest : List Char}
    (all : ∀ c ∈ rest, c.isDigit = true) :
    ∃ behind, pointed (first :: rest) = first :: behind ∧ Fraction rest behind := by
  cases rest with
  | nil => exact ⟨[], rfl, .none⟩
  | cons second others => exact ⟨'.' :: second :: others, rfl, .point all⟩

/-- With an exponent, digits stand for the decimal with the place of the last of them. -/
theorem written_pointed (signed : Sign negative sign) (digits : Nat) (place : Int) :
    Written ⟨negative, digits, place⟩ (sign ++ (pointed (Nat.toDigits 10 digits) ++
      exponentText (place + (Nat.toDigits 10 digits).length - 1))) := by
  have all : ∀ c ∈ Nat.toDigits 10 digits, c.isDigit = true := fun c => isDigit_of_mem_toDigits
  have value := digitsValue_toDigits digits
  cases written : Nat.toDigits 10 digits with
  | nil => exact absurd written Nat.toDigits_ne_nil
  | cons first rest =>
    rw [written] at all value
    obtain ⟨one, others⟩ := List.forall_mem_cons.mp all
    obtain ⟨behind, same, fraction⟩ := exists_fraction_pointed others
    have run : ∀ c ∈ [first], c.isDigit = true := List.forall_mem_singleton.mpr one
    have whole := Written.parts signed run fraction (List.cons_ne_nil first rest)
      (exponent_exponentText (place + (first :: rest).length - 1))
    have last : place + (first :: rest).length - 1 - rest.length = place := by
      rw [List.length_cons]
      omega
    rw [List.singleton_append, value, last] at whole
    rw [same]
    exact whole

/-- Before the point stand all digits but so many as there are places, or else a zero. -/
theorem written_positional (signed : Sign negative sign) (digits e : Nat) :
    Written ⟨negative, digits, .negSucc e⟩
      (sign ++ positional (Nat.toDigits 10 digits) (.negSucc e)) := by
  have all : ∀ c ∈ Nat.toDigits 10 digits, c.isDigit = true := fun c => isDigit_of_mem_toDigits
  have value := digitsValue_toDigits digits
  have some : Nat.toDigits 10 digits ≠ [] := Nat.toDigits_ne_nil
  rw [positional]
  generalize Nat.toDigits 10 digits = written at *
  split
  · rename_i within
    have cut := List.take_append_drop (written.length - (e + 1)) written
    have places : (0 : Int) - (written.drop (written.length - (e + 1))).length = .negSucc e := by
      rw [List.length_drop]
      omega
    have whole := Written.parts signed (fun c mem => all c (List.mem_of_mem_take mem))
      (.point fun c mem => all c (List.mem_of_mem_drop mem)) (cut ▸ some) .none
    rwa [cut, value, places, List.append_nil] at whole
  · rename_i beyond
    have zeros : ∀ c ∈ List.replicate (e + 1 - written.length) '0' ++ written,
        c.isDigit = true :=
      List.forall_mem_append.mpr ⟨fun c => isDigit_of_mem_replicate, all⟩
    have places : (0 : Int) -
        (List.replicate (e + 1 - written.length) '0' ++ written).length = .negSucc e := by
      rw [List.length_append, List.length_replicate]
      omega
    have one : ∀ c ∈ ['0'], c.isDigit = true := List.forall_mem_singleton.mpr rfl
    have whole := Written.parts signed one (.point zeros) (List.cons_ne_nil _ _) .none
    have leading : digitsValue
        (['0'] ++ (List.replicate (e + 1 - written.length) '0' ++ written)) = digits := by
      rw [← List.append_assoc, ← List.replicate_one, List.replicate_append_replicate,
        digitsValue_zeros_append, value]
    rwa [leading, places, List.append_nil] at whole

/-- Digits with zeros behind them stand for the same number as the digits with the place of the
last of them. -/
theorem written_zeros (signed : Sign negative sign) (digits zeros : Nat) :
    Written ⟨negative, digits * tenPow zeros, 0⟩
      (sign ++ positional (Nat.toDigits 10 digits) (.ofNat zeros)) := by
  have run : ∀ c ∈ Nat.toDigits 10 digits ++ List.replicate zeros '0', c.isDigit = true :=
    List.forall_mem_append.mpr
      ⟨fun c => isDigit_of_mem_toDigits, fun c => isDigit_of_mem_replicate⟩
  have some : Nat.toDigits 10 digits ++ List.replicate zeros '0' ++ [] ≠ [] := by
    simp [Nat.toDigits_ne_nil]
  have whole := Written.parts signed run .none some .none
  rw [List.append_nil, digitsValue_append_zeros, digitsValue_toDigits, List.append_nil,
    List.append_nil] at whole
  exact whole

/-- Whichever way a decimal is laid out, its text is that of a decimal with the same nearest
number. -/
theorem exists_written (signed : Sign negative sign) (digits : Nat) (place : Int) :
    ∃ d : Decimal, Written d (sign ++ decimalText digits place) ∧
      d.nearest = (Decimal.mk negative digits place).nearest := by
  rw [decimalText]
  split
  · cases place with
    | ofNat zeros =>
      refine ⟨_, written_zeros signed digits zeros, ?_⟩
      rw [nearest_mul_tenPow, Int.zero_add]
      rfl
    | negSucc e => exact ⟨_, written_positional signed digits e, rfl⟩
  · exact ⟨_, written_pointed signed digits place, rfl⟩

end Number

namespace Binary64

open Number Decimal

/-- A number that is not zero is written as its sign and its shortest decimal. -/
theorem exists_chars_eq {magnitude : Magnitude} (some : magnitude.units ≠ 0) (negative : Bool) :
    ∃ sign, Sign negative sign ∧ chars (finite negative magnitude) =
      sign ++ decimalText (shortest magnitude.units).1 (shortest magnitude.units).2 := by
  have laid : chars (finite negative magnitude) =
      if negative then
        '-' :: decimalText (shortest magnitude.units).1 (shortest magnitude.units).2
      else decimalText (shortest magnitude.units).1 (shortest magnitude.units).2 :=
    if_neg some
  rw [laid]
  cases negative with
  | false => exact ⟨[], .none, rfl⟩
  | true => exact ⟨['-'], .minus, rfl⟩

/-- The text of a number that is finite and not zero counts as the number itself. -/
theorem ofText_text_finite {magnitude : Magnitude} (some : magnitude.units ≠ 0) (negative : Bool) :
    ofText (text (finite negative magnitude)) = finite negative magnitude := by
  obtain ⟨sign, signed, same⟩ := exists_chars_eq some negative
  obtain ⟨d, written, nearest⟩ :=
    exists_written signed (shortest magnitude.units).1 (shortest magnitude.units).2
  rw [text, same, ofText_of_written written, nearest, nearest_shortest]

/-- The text of a number counts as that number again, the sign of a zero apart. -/
theorem ofText_text (x : Binary64) : (ofText (text x)).Agrees x := by
  cases x with
  | nan => exact .inr ⟨by decide +kernel, rfl⟩
  | infinite negative =>
    have named : ofText (text (infinite negative)) = infinite negative := by
      cases negative <;> decide +kernel
    rw [named]
    exact agrees_self _
  | finite negative magnitude =>
    by_cases none : magnitude.units = 0
    · rw [text_of_units_eq_zero none, finite_eq_zero none]
      left
      cases negative <;> decide +kernel
    · rw [ofText_text_finite none]
      exact agrees_self _

end Binary64

end Inlay
