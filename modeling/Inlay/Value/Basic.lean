import Inlay.Number.Text
import Inlay.Number.Numeral
import Inlay.Table

/-!
# Values

What an expression evaluates to and what a context binds names to. Values carry their kind with
them, and every operation accepts every kind: a value is coerced to a truth value, a number or a
text as the operation needs it.

There are two texts of a value. `text` is its own; `splicedText` is what stands for it inside other
text, where the two missing values, null and undefined, leave nothing behind.
-/

namespace Inlay

/-- A value. The keys of an object are in ascending order, by the type of its members. -/
inductive Value
  | null
  | undefined
  | boolean (b : Bool)
  | number (x : Binary64)
  | string (s : String)
  | array (items : List Value)
  | object (members : Entries Value none)

namespace Value

/-- A value that nothing was said about is undefined. -/
instance : Inhabited Value := ⟨.undefined⟩

/-- The number of some things. -/
def ofCount (count : Nat) : Value :=
  .number (.ofNat count)

/-- Whether a value is undefined. -/
def isUndefined : Value → Bool
  | undefined => true
  | _ => false

theorem isUndefined_iff {v : Value} : v.isUndefined = true ↔ v = undefined := by
  cases v <;> simp [isUndefined]

/-- Whether a value leaves nothing behind in other text. -/
def isMissing : Value → Bool
  | null | undefined => true
  | _ => false

/-- The number, if the value is one. -/
def asNumber? : Value → Option Binary64
  | number x => some x
  | _ => none

/-- The text, if the value is one. -/
def asString? : Value → Option String
  | string s => some s
  | _ => none

/-- The truth value, if the value is one. -/
def asBoolean? : Value → Option Bool
  | boolean b => some b
  | _ => none

/-! ## Coercion to text -/

mutual

/-- The text of a value. The items of an array are spliced with commas between them, and the
members of an object do not show. -/
def text : Value → String
  | null => "null"
  | undefined => "undefined"
  | boolean b => if b then "true" else "false"
  | number x => Number.text x
  | string s => s
  | array items => ",".intercalate (splicedTexts items)
  | object _ => "[object Object]"

/-- What stands for each of several values inside other text. -/
def splicedTexts : List Value → List String
  | [] => []
  | item :: items => (if item.isMissing then "" else item.text) :: splicedTexts items

end

/-- What stands for a value inside other text. -/
def splicedText (v : Value) : String :=
  if v.isMissing then "" else v.text

theorem splicedTexts_eq_map (items : List Value) : splicedTexts items = items.map splicedText := by
  induction items with
  | nil => rfl
  | cons item items ih => rw [splicedTexts, ih]; rfl

/-! ## Coercion to a truth value and to a number -/

/-- Whether a value counts as true: the missing values, false, the zeros, not a number and the
empty text do not. -/
def isTruthy : Value → Bool
  | null | undefined => false
  | boolean b => b
  | number .nan => false
  | number (.infinite _) => true
  | number (.finite _ magnitude) => magnitude.units != 0
  | string s => !s.isEmpty
  | array _ | object _ => true

/-- The number that a value counts as. An array of one item counts as the text of that item. -/
def toNumber : Value → Binary64
  | undefined | object _ => .nan
  | null => 0
  | boolean b => .ofBool b
  | number x => x
  | string s => Number.ofText s
  | array [] => 0
  | array [item] => Number.ofText item.splicedText
  | array (_ :: _ :: _) => .nan

/-- A value without parts: an array or an object gives way to its text. -/
def toPrimitive : Value → Value
  | array items => string (array items).text
  | object members => string (object members).text
  | v => v

end Value

/-- The names that an expression can read, with their values. -/
abbrev Context := Table Value

end Inlay
