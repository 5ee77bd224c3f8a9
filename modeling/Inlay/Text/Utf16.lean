/-!
# Text as UTF-16 code units

The length of a text, its indices and its order count UTF-16 code units: a character up to U+FFFF
is one unit, and each character above is a pair of surrogates. The order of units differs from the
order of characters, because the surrogates lie below the last characters that need only one unit.
-/

namespace Inlay.Text

/-- The first surrogate. -/
def surrogateStart : Nat := 0xD800

/-- The first unit above the surrogates. -/
def surrogateEnd : Nat := 0xE000

/-- The units of a character. -/
def charUnits (c : Char) : List Nat :=
  if c.toNat < 0x10000 then [c.toNat]
  else
    [surrogateStart + (c.toNat - 0x10000) / 0x400, 0xDC00 + (c.toNat - 0x10000) % 0x400]

/-- The units of a text. -/
def units (text : String) : List Nat :=
  text.toList.flatMap charUnits

/-- The text of one unit. A surrogate alone is no character, and the replacement character stands
for it. -/
def ofUnit (unit : Nat) : String :=
  if surrogateStart ≤ unit ∧ unit < surrogateEnd then "\ufffd"
  else String.singleton (Char.ofNat unit)

/-- How two texts compare, unit by unit. -/
def compareUnits (first second : String) : Ordering :=
  compare (units first) (units second)

/-- The units of two texts put together are those of the one and then those of the other. -/
theorem units_append (first second : String) :
    units (first ++ second) = units first ++ units second := by
  simp [units]

end Inlay.Text
