import Inlay.Json.Basic
import Inlay.Term.Basic

/-!
# Terms as documents

A term is written case by case. A number that is not finite has no form of its own, and a term that
holds one is written as something that is no term. Reading asks for every member but the statement
of an expression, which may be left out, and passes over members that it does not know.
-/

namespace Inlay

/-- The document of an operator. -/
def Operator.toJson (op : Operator) : Json :=
  .string op.name

/-- The operator that a document names. -/
def Json.operator? (document : Json) : Option Operator :=
  document.caseName?.bind Operator.ofName?

namespace Term

mutual

/-- The document of a term. -/
def toJson : Term → Json
  | concat parts => .tagged "Concat" (.record [("parts", .array (listToJson parts))])
  | expression none => .tagged "Expression" (.record [("statement", .null)])
  | expression (some t) => .tagged "Expression" (.record [("statement", t.toJson)])
  | number x => .tagged "Number" (.ofNumber x)
  | string s => .tagged "String" (.string s)
  | boolean b => .tagged "Boolean" (.boolean b)
  | reference path => .tagged "Variable" (.record [("path", .array (path.map .string))])
  | call name arguments =>
    .tagged "Function" (.record [("name", .string name), ("args", .array (listToJson arguments))])
  | binary op left right =>
    .tagged "BinaryOp"
      (.record [("operator", op.toJson), ("left", left.toJson), ("right", right.toJson)])

/-- The documents of several terms. -/
def listToJson : List Term → List Json
  | [] => []
  | t :: ts => t.toJson :: listToJson ts

end

mutual

/-- The term that a document holds. -/
def ofJson? : Json → Option Term
  | .object (.entry case _ content .empty) =>
    match case, content with
    | "Concat", .object members => (listAt? "parts" members).map concat
    | "Expression", .object members => (statementAt? members).map expression
    | "Number", content => content.number?.map number
    | "String", content => content.string?.map string
    | "Boolean", content => content.boolean?.map boolean
    | "Variable", .object members => ((members.find? "path").bind Json.strings?).map reference
    | "Function", .object members => do
      let name ← (members.find? "name").bind Json.string?
      return call name (← listAt? "args" members)
    | "BinaryOp", .object members => do
      let op ← (members.find? "operator").bind Json.operator?
      return binary op (← termAt? "left" members) (← termAt? "right" members)
    | _, _ => none
  | _ => none

/-- The terms that several documents hold. -/
def listOfJson? : List Json → Option (List Term)
  | [] => some []
  | item :: items => do return (← ofJson? item) :: (← listOfJson? items)

/-- The term under a key. -/
def termAt? (key : String) {low : Option String} : Entries Json low → Option Term
  | .empty => none
  | .entry k _ document rest => if k = key then ofJson? document else termAt? key rest

/-- The terms in the array under a key. -/
def listAt? (key : String) {low : Option String} : Entries Json low → Option (List Term)
  | .empty => none
  | .entry k _ document rest =>
    if k = key then
      match document with
      | .array items => listOfJson? items
      | _ => none
    else listAt? key rest

/-- The statement among the members of an expression, if there is one. -/
def statementAt? {low : Option String} : Entries Json low → Option (Option Term)
  | .empty => some none
  | .entry k _ document rest =>
    if k = "statement" then
      match document with
      | .null => some none
      | document => (ofJson? document).map some
    else statementAt? rest

end

end Term

end Inlay
