import Inlay.Json.Basic
import Inlay.Value.Basic

/-!
# Values as documents

A value is written as the document of the same shape. What a document cannot hold, undefined and the
numbers that are not finite, becomes null; everything else is read back as it was. Every document is
a value.
-/

namespace Inlay

mutual

/-- The document of a value. -/
def Value.toJson : Value → Json
  | .null => .null
  | .undefined => .null
  | .boolean b => .boolean b
  | .number x => .ofNumber x
  | .string s => .string s
  | .array items => .array (itemsToJson items)
  | .object members => .object (membersToJson members)

/-- The documents of several values. -/
def itemsToJson : List Value → List Json
  | [] => []
  | item :: items => item.toJson :: itemsToJson items

/-- The documents of values under keys. -/
def membersToJson {low : Option String} : Entries Value low → Entries Json low
  | .empty => .empty
  | .entry key above value rest => .entry key above value.toJson (membersToJson rest)

end

mutual

/-- The value that a document holds. -/
def Json.toValue : Json → Value
  | .null => .null
  | .boolean b => .boolean b
  | .integer n => .number (.ofInt n)
  | .number x => .number x
  | .string s => .string s
  | .array items => .array (itemsToValue items)
  | .object members => .object (membersToValue members)

/-- The values that several documents hold. -/
def itemsToValue : List Json → List Value
  | [] => []
  | item :: items => item.toValue :: itemsToValue items

/-- The values that documents under keys hold. -/
def membersToValue {low : Option String} : Entries Json low → Entries Value low
  | .empty => .empty
  | .entry key above document rest => .entry key above document.toValue (membersToValue rest)

end

/-- The document of a context. -/
def Context.toJson (context : Context) : Json :=
  .object (membersToJson context)

/-- The context that a document holds, if it is an object. -/
def Json.toContext? : Json → Option Context
  | .object members => some (membersToValue members)
  | _ => none

end Inlay
