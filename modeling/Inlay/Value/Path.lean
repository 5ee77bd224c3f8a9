import Inlay.Value.Basic
import Inlay.Text.Utf16

/-!
# Paths into values

A path is a list of segments, each of which leads from a value to one of its parts: to the member of
an object under a key, to an item of an array or one unit of a text at an index, and to the length
of either. A segment without such a part makes the whole path lead to undefined, so that following a
path never fails.
-/

namespace Inlay

/-- How many indices there are: an index fits into a word of sixty-four bits. -/
def Value.indexLimit : Nat := Number.twoPow 64

/-- The index that a segment is the canonical decimal text of: digits only, no zero before others,
and below the limit. -/
def Value.index? (segment : String) : Option Nat :=
  match segment.toList with
  | ['0'] => some 0
  | '0' :: _ => none
  | digits =>
    if Decimal.isDigits digits && Decimal.digitsValue digits < indexLimit then
      some (Decimal.digitsValue digits)
    else none

/-- The value that a path leads to from another. The member of an object or the item of an array is
followed as it is; a length and a unit of a text are values made on the way. Where a segment leads
nowhere the rest of the path is not looked at. -/
def Value.follow (v : Value) : List String → Value
  | [] => v
  | segment :: rest =>
    match v with
    | .object members =>
      match members.find? segment with
      | some member => member.follow rest
      | none => .undefined
    | .array items =>
      if segment = "length" then (ofCount items.length).follow rest
      else
        match (index? segment).bind (items[·]?) with
        | some item => item.follow rest
        | none => .undefined
    | .string s =>
      if segment = "length" then (ofCount (Text.units s).length).follow rest
      else
        match (index? segment).bind ((Text.units s)[·]?) with
        | some unit => (string (Text.ofUnit unit)).follow rest
        | none => .undefined
    | .null | .undefined | .boolean _ | .number _ => .undefined

/-- The value that a path leads to from a name of a context. The path without any name leads to
undefined. -/
def Context.resolve (context : Context) : List String → Value
  | [] => .undefined
  | name :: path => ((context.find? name).getD .undefined).follow path

end Inlay
