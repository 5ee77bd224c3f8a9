import Inlay.Method
import Inlay.Number.Fixed

/-!
# The standard methods

The methods that an engine starts with: `string` and `number` coerce their argument, and `fixed`
writes a number with a count of decimal places.
-/

namespace Inlay.Methods

/-- The most decimal places that `fixed` writes. -/
def mostPlaces : Binary64 := 100

/-- What stands for the first argument inside other text. -/
def stringMethod : Method
  | [] => .string ""
  | v :: _ => .string v.splicedText

/-- The first argument as a number, zero without one. -/
def numberMethod : Method
  | [] => .number 0
  | v :: _ => .number v.toNumber

/-- The first argument as a number, written with as many decimal places as the second says, none
without it. A count that is not between zero and the most, and a number that is not finite, leave
the number its ordinary text. -/
def fixedMethod (arguments : List Value) : Value :=
  let x := (arguments[0]?.map Value.toNumber).getD .nan
  let places := (arguments[1]?.map Value.toNumber).getD 0
  if x.isFinite && (0 : Binary64).atMost places && places.atMost mostPlaces then
    .string (Number.fixedText x places.wholeOnes)
  else .string (Number.text x)

/-- The standard methods by name. -/
def standard : Methods :=
  .ofList [("string", stringMethod), ("number", numberMethod), ("fixed", fixedMethod)]

end Inlay.Methods
