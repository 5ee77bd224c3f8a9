import Inlay.Number.Binary64

/-!
# Decimal numbers and their texts

A decimal is a whole number of some power of ten. `Decimal.read?` reads one from the text that
`Decimal` describes: an optional sign, digits with at most one point among or around them, and an
optional exponent. `Decimal.nearest` is the double-precision number nearest to it, rounded once.
-/

namespace Inlay

/-- A whole number of a power of ten, with a sign of its own. -/
structure Decimal where
  negative : Bool
  digits : Nat
  exponent : Int
  deriving DecidableEq, Repr

namespace Decimal

open Number

/-! ## The nearest number -/

/-- Beyond this power of ten, upwards or downwards, every decimal of few digits is out of the range
of finite numbers. -/
def exponentLimit : Nat := 400

/-- The double-precision number nearest to a decimal. An exponent so large that it alone decides
the result is cut down first, so that the powers stay small. -/
def nearest (d : Decimal) : Binary64 :=
  match d.exponent with
  | .ofNat e => .round d.negative (d.digits * tenPow (min e exponentLimit) * unitsPerOne) 1
  | .negSucc e =>
    .round d.negative (d.digits * unitsPerOne)
      (tenPow (min (e + 1) (d.digits.log2 + exponentLimit)))

theorem nearest_ne_nan (d : Decimal) : d.nearest ≠ .nan := by
  rw [nearest]
  split <;> exact Binary64.round_ne_nan _ _ _

/-! ## Reading -/

/-- The value of a run of decimal digits. -/
def digitsValue (cs : List Char) : Nat :=
  Nat.ofDigitChars 10 cs 0

/-- Whether a text is a run of at least one decimal digit. -/
def isDigits (cs : List Char) : Bool :=
  !cs.isEmpty && cs.all Char.isDigit

theorem isDigits_iff {cs : List Char} :
    isDigits cs = true ↔ cs ≠ [] ∧ ∀ c ∈ cs, c.isDigit = true := by
  simp [isDigits]

/-- A leading sign, true for minus, and what follows it. -/
def takeSign : List Char → Bool × List Char
  | '-' :: rest => (true, rest)
  | '+' :: rest => (false, rest)
  | cs => (false, cs)

/-- The digits after a leading point, and what follows them. -/
def takeFraction : List Char → List Char × List Char
  | '.' :: rest => (rest.takeWhile Char.isDigit, rest.dropWhile Char.isDigit)
  | cs => ([], cs)

/-- The exponent that ends a text: none at all, or a letter and an integer. -/
def readExponent? : List Char → Option Int
  | [] => some 0
  | c :: rest =>
    if c == 'e' || c == 'E' then
      let (negative, digits) := takeSign rest
      if isDigits digits then
        some (if negative then -digitsValue digits else digitsValue digits)
      else none
    else none

/-- Reads a decimal. The point may begin or end the digits, but there is at least one digit. -/
def read? (cs : List Char) : Option Decimal :=
  let (negative, unsigned) := takeSign cs
  let whole := unsigned.takeWhile Char.isDigit
  let (fraction, rest) := takeFraction (unsigned.dropWhile Char.isDigit)
  if whole.isEmpty && fraction.isEmpty then none
  else
    (readExponent? rest).map fun exponent =>
      ⟨negative, digitsValue (whole ++ fraction), exponent - fraction.length⟩

end Decimal

end Inlay
