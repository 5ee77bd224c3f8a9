import Inlay.Number.Decimal

/-!
# Single-precision numbers

Every number of the 32-bit binary format is a double-precision number. What is rounded to the
narrower format first may come out differently from what is rounded once.
-/

namespace Inlay.Number

/-- How many leading binary digits the 32-bit format keeps. -/
def singlePrecision : Nat := 24

/-- How many double-precision units make the smallest positive number of the 32-bit format. -/
def unitsPerSingle : Nat := twoPow 925

/-- The first power of two that is too large for the 32-bit format, in its own smallest numbers. -/
def singleLimit : Nat := twoPow 277

/-- The double-precision number that is a number of the smallest numbers of the 32-bit format,
rounded to that format. -/
def ofSingles (negative : Bool) (num den : Nat) : Binary64 :=
  let rounded := roundSignificant singlePrecision num den
  if rounded < singleLimit then .round negative (rounded * unitsPerSingle) 1 else .infinite negative

/-- The number of the 32-bit format nearest to a decimal. -/
def nearestSingle (d : Decimal) : Binary64 :=
  let perOne := unitsPerOne / unitsPerSingle
  match d.exponent with
  | .ofNat e => ofSingles d.negative (d.digits * tenPow (min e Decimal.exponentLimit) * perOne) 1
  | .negSucc e =>
    ofSingles d.negative (d.digits * perOne)
      (tenPow (min (e + 1) (d.digits.log2 + Decimal.exponentLimit)))

end Inlay.Number
