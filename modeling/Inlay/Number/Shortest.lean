import Inlay.Number.Decimal

/-!
# The shortest decimal of a number

The decimal that is written for a number is the shortest one that reads back as that number, and
among the shortest the nearest to it. For one digit, two digits, and so on, the search takes the
two neighbours of the number on the grid of that many digits and asks of each whether the reader
gives the number back: `Decimal.nearest` itself is the test, so that what is written is read back
by construction. Seventeen digits are enough for every number of the format; behind them stands
the exact expansion, which always reads back.
-/

namespace Inlay.Number

/-- The number of units in a power of ten times a whole number, over a common denominator. -/
def decimalUnits (digits : Nat) (place : Int) : Nat × Nat :=
  match place with
  | .ofNat e => (digits * tenPow e * unitsPerOne, 1)
  | .negSucc e => (digits * unitsPerOne, tenPow (e + 1))

/-- How many times a power of ten goes into a number of units. -/
def wholeTimes (units : Nat) (place : Int) : Nat :=
  match place with
  | .ofNat e => units / (tenPow e * unitsPerOne)
  | .negSucc e => units * tenPow (e + 1) / unitsPerOne

/-- The power of ten of the leading decimal digit of a positive number of units. The place of the
leading binary digit, times the decimal logarithm of two, gives it up to one. -/
def leadingPlace (units : Nat) : Int :=
  let near := ((units.log2 : Int) - 1074) * 30103 / 100000
  if 0 < wholeTimes units (near + 1) then near + 1
  else if 0 < wholeTimes units near then near
  else near - 1

/-- Whether a decimal reads back as a number of units. -/
def readsBack (units digits : Nat) (place : Int) : Bool :=
  match (Decimal.mk false digits place).nearest with
  | .finite _ magnitude => magnitude.units == units
  | _ => false

/-- Whether a number of units lies nearer to the grid point below it than to the one above. -/
def nearerBelow (units digits : Nat) (place : Int) : Bool :=
  let (twiceMiddle, den) := decimalUnits (2 * digits + 1) place
  2 * units * den < twiceMiddle

/-- The neighbour of a number on the grid of one place that reads back as it; of two the nearer,
and the upper one when both are equally near. -/
def neighbour? (units : Nat) (place : Int) : Option (Nat × Int) :=
  let below := wholeTimes units place
  match readsBack units below place, readsBack units (below + 1) place with
  | true, true => some (if nearerBelow units below place then below else below + 1, place)
  | true, false => some (below, place)
  | false, true => some (below + 1, place)
  | false, false => none

/-- The exact expansion of a number of units. -/
def expansion (units : Nat) : Nat × Int :=
  (units * Nat.pow 5 1074, -1074)

/-- A decimal without the zeros that end its digits. -/
def dropZeros (digits : Nat) (place : Int) : Nat × Int :=
  if digits ≠ 0 ∧ digits % 10 = 0 then dropZeros (digits / 10) (place + 1) else (digits, place)
termination_by digits
decreasing_by omega

/-- The shortest decimal that reads back as a positive number of units: its digits, the last of
them not zero, and the power of ten of the last digit. -/
def shortest (units : Nat) : Nat × Int :=
  let top := leadingPlace units
  let found := (List.range 17).findSome? fun (more : Nat) => neighbour? units (top - more)
  let (digits, place) := found.getD (expansion units)
  dropZeros digits place

end Inlay.Number
