import Inlay.Number.Binary64
import Inlay.Table

/-!
# Interchange documents

The documents that values, terms, templates and failures are written as and read from. They are
JSON with the two kinds of number told apart: integers, for places in a source, and
double-precision numbers for everything else. An object is a table, so that the order of its members
does not matter and no member stands twice.

A sum type is written with the name of its case: a case without content as the name alone, any
other as an object with the one member that the name names.
-/

namespace Inlay

/-- A document. -/
inductive Json
  | null
  | boolean (b : Bool)
  | integer (n : Int)
  | number (x : Binary64)
  | string (s : String)
  | array (items : List Json)
  | object (members : Entries Json none)
  deriving Inhabited

namespace Json

/-- A case with content. -/
def tagged (name : String) (content : Json) : Json :=
  object (.entry name .unbounded content .empty)

/-- An object with the given members. -/
def record (members : List (String × Json)) : Json :=
  object (.ofList members)

/-- The text, if a document is one. -/
def string? : Json → Option String
  | string s => some s
  | _ => none

/-- The truth value, if a document is one. -/
def boolean? : Json → Option Bool
  | boolean b => some b
  | _ => none

/-- The double-precision number, if a document is a number. -/
def number? : Json → Option Binary64
  | integer n => some (.ofInt n)
  | number x => some x
  | _ => none

/-- The largest count that a document can hold. -/
def countLimit : Nat := Number.twoPow 64

/-- The count, if a document is an integer that can be one. -/
def count? : Json → Option Nat
  | integer (.ofNat n) => if n < countLimit then some n else none
  | _ => none

/-- The texts, if a document is an array of them. -/
def strings? : Json → Option (List String)
  | array items => items.mapM string?
  | _ => none

/-- A double-precision number in a document. Those that are not finite have no form, and nothing
stands for them. -/
def ofNumber (x : Binary64) : Json :=
  if x.isFinite then number x else null

/-- The case without content that a document names, alone or over an empty content. -/
def caseName? : Json → Option String
  | string name => some name
  | object (.entry name _ null .empty) => some name
  | _ => none

end Json

end Inlay
