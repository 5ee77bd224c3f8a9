import Inlay.Number.Rounding

/-!
# Double-precision numbers

The numbers of the language: not a number, the two infinities, and the finite numbers of the
64-bit binary format, each with a sign of its own, so that there are two zeros.

A finite magnitude is kept as the natural number of **units** that it holds, a unit being the
smallest positive magnitude of the format, two to the power -1074. Every finite number is a whole
number of units, so each operation computes its exact result on integers and rounds it once.

There are two equalities. `=` tells all numbers apart, the zeros included, and holds of not a
number with itself. The language compares by `compare?`, for which the two zeros are equal and not
a number is unordered.
-/

namespace Inlay

/-- How many units make one. -/
def Number.unitsPerOne : Nat := twoPow 1074

/-- The first power of two that is too large for a finite number, in units. -/
def Number.unitLimit : Nat := twoPow 2098

/-- How many leading binary digits a finite number keeps. -/
def Number.precision : Nat := 53

/-- The size of a finite number, in units. At most fifty-three leading binary digits differ from
zero. -/
structure Magnitude where
  units : Nat
  bounded : units < Number.unitLimit
  significant : Number.twoPow (units.log2 + 1 - Number.precision) ∣ units
  deriving DecidableEq

instance : Inhabited Magnitude := ⟨⟨0, by decide +kernel, by decide⟩⟩

/-- A number of the 64-bit binary format. -/
inductive Binary64
  | nan
  | infinite (negative : Bool)
  | finite (negative : Bool) (magnitude : Magnitude)
  deriving DecidableEq, Inhabited

namespace Binary64

open Number

/-- The number nearest to a quotient of units, with the given sign. A magnitude that rounds to
the limit or beyond it is infinite. -/
def round (negative : Bool) (num den : Nat) : Binary64 :=
  if h : roundSignificant precision num den < unitLimit then
    finite negative ⟨_, h, twoPow_dvd_roundSignificant (by decide) num den⟩
  else infinite negative

theorem round_ne_nan (negative : Bool) (num den : Nat) : round negative num den ≠ nan := by
  rw [round]
  split <;> nofun

/-- A magnitude is its own rounding. -/
theorem round_units (negative : Bool) (magnitude : Magnitude) :
    round negative magnitude.units 1 = finite negative magnitude := by
  have same := roundSignificant_of_dvd magnitude.significant
  have bounded : roundSignificant precision magnitude.units 1 < unitLimit := by
    rw [same]
    exact magnitude.bounded
  rw [round, dif_pos bounded]
  simp only [same]

/-- The zero of a sign. -/
def zero (negative : Bool) : Binary64 :=
  finite negative default

theorem finite_eq_zero {magnitude : Magnitude} (none : magnitude.units = 0) (negative : Bool) :
    finite negative magnitude = zero negative := by
  cases magnitude
  subst none
  rfl

/-- The number nearest to a natural number. -/
def ofNat (n : Nat) : Binary64 :=
  round false (n * unitsPerOne) 1

/-- The number nearest to an integer. -/
def ofInt (n : Int) : Binary64 :=
  round (n < 0) (n.natAbs * unitsPerOne) 1

instance (n : Nat) : OfNat Binary64 n := ⟨ofNat n⟩

/-- One for true and zero for false. -/
def ofBool (b : Bool) : Binary64 :=
  if b then 1 else 0

/-- Whether a number is neither infinite nor not a number. -/
def isFinite : Binary64 → Bool
  | finite .. => true
  | _ => false

/-! ## Order -/

/-- A magnitude with a sign, as an integer number of units. -/
def signed (negative : Bool) (magnitude : Magnitude) : Int :=
  if negative then -magnitude.units else magnitude.units

/-- Where a number stands among the others, in units; the infinities stand at the limit. There is
no place for not a number. -/
def rank? : Binary64 → Option Int
  | nan => none
  | infinite negative => some (if negative then -unitLimit else unitLimit)
  | finite negative magnitude => some (signed negative magnitude)

/-- How two numbers compare; none if one of them is not a number. The zeros are equal. -/
def compare? (x y : Binary64) : Option Ordering := do
  return compare (← x.rank?) (← y.rank?)

/-- Whether two numbers compare as equal. -/
def equals (x y : Binary64) : Bool :=
  x.compare? y == some .eq

/-- Every number but not a number compares as equal with itself. -/
theorem equals_self_iff {x : Binary64} : x.equals x = true ↔ x ≠ nan := by
  have same (place : Int) : (some (compare place place) == some Ordering.eq) = true := by
    have equal : compare place place = .eq := Std.ReflCmp.compare_self
    rw [equal, beq_self_eq_true]
  cases x with
  | nan => exact ⟨nofun, fun differ => absurd rfl differ⟩
  | infinite negative => exact ⟨fun _ => nofun, fun _ => same _⟩
  | finite negative magnitude => exact ⟨fun _ => nofun, fun _ => same _⟩

/-- Whether the first number is less than the second or equal to it. -/
def atMost (x y : Binary64) : Bool :=
  (x.compare? y).any Ordering.isLE

/-! ## Arithmetic -/

/-- A sum of units as a number. A sum of zero has the sign given for it. -/
def ofUnits (zeroNegative : Bool) (units : Int) : Binary64 :=
  if units = 0 then zero zeroNegative else round (units < 0) units.natAbs 1

/-- The number of the other sign. -/
def neg : Binary64 → Binary64
  | nan => nan
  | infinite negative => infinite (!negative)
  | finite negative magnitude => finite (!negative) magnitude

/-- The sum. Opposite numbers sum to the positive zero, and only two negative zeros to the
negative one. -/
def add : Binary64 → Binary64 → Binary64
  | nan, _ => nan
  | _, nan => nan
  | infinite s, infinite t => if s = t then infinite s else nan
  | infinite s, finite .. => infinite s
  | finite .., infinite t => infinite t
  | finite s a, finite t b => ofUnits (s && t) (signed s a + signed t b)

/-- The difference: the sum with the opposite of the second. -/
def sub (x y : Binary64) : Binary64 :=
  x.add y.neg

/-- The product. Infinity times zero is not a number. -/
def mul : Binary64 → Binary64 → Binary64
  | nan, _ => nan
  | _, nan => nan
  | infinite s, infinite t => infinite (s ^^ t)
  | infinite s, finite t b => if b.units = 0 then nan else infinite (s ^^ t)
  | finite s a, infinite t => if a.units = 0 then nan else infinite (s ^^ t)
  | finite s a, finite t b => round (s ^^ t) (a.units * b.units) unitsPerOne

/-- The quotient. What is not zero divided by zero is infinite, and zero by zero is not a
number. -/
def div : Binary64 → Binary64 → Binary64
  | nan, _ => nan
  | _, nan => nan
  | infinite _, infinite _ => nan
  | infinite s, finite t _ => infinite (s ^^ t)
  | finite s _, infinite t => zero (s ^^ t)
  | finite s a, finite t b =>
    if b.units = 0 then if a.units = 0 then nan else infinite (s ^^ t)
    else round (s ^^ t) (a.units * unitsPerOne) b.units

/-- What is left of the first number after taking away the second a whole number of times. It has
the sign of the first, and is exact: rounding does not change it. -/
def rem : Binary64 → Binary64 → Binary64
  | nan, _ => nan
  | _, nan => nan
  | infinite _, _ => nan
  | finite s a, infinite _ => finite s a
  | finite s a, finite _ b => if b.units = 0 then nan else round s (a.units % b.units) 1

/-- A number times a natural number plus another, rounded once. -/
def timesPlus (x : Binary64) (factor summand : Nat) : Binary64 :=
  match x with
  | nan => nan
  | infinite negative => infinite negative
  | finite negative magnitude =>
    ofUnits false (signed negative magnitude * factor + (summand * unitsPerOne : Nat))

/-- The number of whole ones in a magnitude. -/
def wholeOnes : Binary64 → Nat
  | finite _ magnitude => magnitude.units / unitsPerOne
  | _ => 0

instance : Neg Binary64 := ⟨neg⟩
instance : Add Binary64 := ⟨add⟩
instance : Sub Binary64 := ⟨sub⟩
instance : Mul Binary64 := ⟨mul⟩
instance : Div Binary64 := ⟨div⟩
instance : Mod Binary64 := ⟨rem⟩

end Binary64

end Inlay
