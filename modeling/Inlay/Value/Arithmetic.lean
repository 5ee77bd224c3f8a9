import Inlay.Value.Basic

/-!
# Arithmetic on values

Every operation takes its operands as numbers, except that a sum with text on either side puts the
texts of both sides together.
-/

namespace Inlay.Value

/-- The sum of two values without parts. -/
def addPrimitive : Value → Value → Value
  | string s, w => string (s ++ w.text)
  | v, string t => string (v.text ++ t)
  | v, w => number (v.toNumber + w.toNumber)

/-- The sum: text if either side is text or gives way to it, and otherwise a number. -/
def add (v w : Value) : Value :=
  addPrimitive v.toPrimitive w.toPrimitive

/-- The difference of two values as numbers. -/
def subtract (v w : Value) : Value :=
  number (v.toNumber - w.toNumber)

/-- The product of two values as numbers. -/
def multiply (v w : Value) : Value :=
  number (v.toNumber * w.toNumber)

/-- The quotient of two values as numbers. -/
def divide (v w : Value) : Value :=
  number (v.toNumber / w.toNumber)

/-- The remainder of two values as numbers. -/
def remainder (v w : Value) : Value :=
  number (v.toNumber % w.toNumber)

end Inlay.Value
