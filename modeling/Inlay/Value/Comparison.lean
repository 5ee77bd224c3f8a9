import Inlay.Value.Basic
import Inlay.Text.Utf16

/-!
# Comparing values

Two comparisons. The order coerces: two texts are ordered unit by unit, and any other two values as
numbers, with no answer where one of them is not a number. Strict equality coerces nothing: kinds
must agree, arrays and objects are equal part by part, and numbers as the order has them, so that
the two zeros are equal and not a number is not equal to itself.
-/

namespace Inlay

namespace Value

/-- How two values without parts compare. -/
def comparePrimitive? : Value → Value → Option Ordering
  | string s, string t => some (Text.compareUnits s t)
  | v, w => v.toNumber.compare? w.toNumber

/-- How two values compare; none if they are unordered. -/
def compare? (v w : Value) : Option Ordering :=
  comparePrimitive? v.toPrimitive w.toPrimitive

mutual

/-- Whether two values are of one kind and equal. -/
def strictEquals : Value → Value → Bool
  | null, null => true
  | undefined, undefined => true
  | boolean b, boolean c => b == c
  | number x, number y => x.equals y
  | string s, string t => s == t
  | array items, array others => itemsEqual items others
  | object members, object others => membersEqual members others
  | _, _ => false

/-- Whether two lists have equal values in the same places. -/
def itemsEqual : List Value → List Value → Bool
  | [], [] => true
  | item :: items, other :: others => item.strictEquals other && itemsEqual items others
  | _, _ => false

/-- Whether two tables have equal values under the same keys. -/
def membersEqual {low other : Option String} : Entries Value low → Entries Value other → Bool
  | .empty, .empty => true
  | .entry key _ value rest, .entry key' _ value' rest' =>
    key == key' && value.strictEquals value' && membersEqual rest rest'
  | _, _ => false

end

end Value

/-- Whether two contexts bind the same names to equal values. -/
def Context.equals (first second : Context) : Bool :=
  Value.membersEqual first second

end Inlay
