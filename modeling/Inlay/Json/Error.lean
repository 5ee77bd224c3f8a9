import Inlay.Error
import Inlay.Json.Basic

/-!
# Failures as documents

Failures are written case by case, and a place as the two counts that it consists of. What was read
is a failure like any other, whether or not some source causes it.
-/

namespace Inlay

/-- The document of a fault. -/
def ParseFault.toJson : ParseFault → Json
  | unexpectedToken token => .tagged "UnexpectedToken" (.record [("token", .string token)])
  | unexpectedRightOperand token =>
    .tagged "UnexpectedRightOperand" (.record [("token", .string token)])
  | missingLeftOperand operator =>
    .tagged "MissingLeftOperand" (.record [("operator", .string operator)])
  | missingRightOperand operator =>
    .tagged "MissingRightOperand" (.record [("operator", .string operator)])
  | unexpectedEnd => .string "UnexpectedEof"

/-- The text in the member of an object. -/
def Json.stringAt? (key : String) : Json → Option String
  | object members => (members.find? key).bind string?
  | _ => none

/-- The fault that a document holds. -/
def ParseFault.ofJson? (document : Json) : Option ParseFault :=
  if document.caseName? = some "UnexpectedEof" then some unexpectedEnd
  else
    match document with
    | .object (.entry "UnexpectedToken" _ content .empty) =>
      (content.stringAt? "token").map unexpectedToken
    | .object (.entry "UnexpectedRightOperand" _ content .empty) =>
      (content.stringAt? "token").map unexpectedRightOperand
    | .object (.entry "MissingLeftOperand" _ content .empty) =>
      (content.stringAt? "operator").map missingLeftOperand
    | .object (.entry "MissingRightOperand" _ content .empty) =>
      (content.stringAt? "operator").map missingRightOperand
    | _ => none

/-- The document of a refusal. -/
def ParseError.toJson (e : ParseError) : Json :=
  .record
    [("line", .integer e.position.line), ("column", .integer e.position.column),
      ("kind", e.fault.toJson)]

/-- The refusal that three documents hold: a line, a column and a fault. -/
def ParseError.ofParts? (line column fault : Json) : Option ParseError := do
  let line ← line.count?
  let column ← column.count?
  return ⟨⟨line, column⟩, ← ParseFault.ofJson? fault⟩

/-- The refusal that a document holds, with its parts named or in order. -/
def ParseError.ofJson? : Json → Option ParseError
  | .object members => do
    ofParts? (← members.find? "line") (← members.find? "column") (← members.find? "kind")
  | .array [line, column, fault] => ofParts? line column fault
  | _ => none

/-- The document of a failure. -/
def Error.toJson : Error → Json
  | parse error => .tagged "Parse" error.toJson
  | evaluation (.unknownMethod name) => .tagged "UnknownMethod" (.record [("name", .string name)])
  | evaluation (.invalidPipeTarget found) =>
    .tagged "InvalidPipeTarget" (.record [("found", .string found)])
  | templateExists name => .tagged "TemplateExists" (.record [("template_name", .string name)])
  | missingTemplate name => .tagged "MissingTemplate" (.record [("template_name", .string name)])

/-- The failure that a document holds. -/
def Error.ofJson? : Json → Option Error
  | .object (.entry "Parse" _ content .empty) => (ParseError.ofJson? content).map parse
  | .object (.entry "UnknownMethod" _ content .empty) =>
    (content.stringAt? "name").map (evaluation <| .unknownMethod ·)
  | .object (.entry "InvalidPipeTarget" _ content .empty) =>
    (content.stringAt? "found").map (evaluation <| .invalidPipeTarget ·)
  | .object (.entry "TemplateExists" _ content .empty) =>
    (content.stringAt? "template_name").map templateExists
  | .object (.entry "MissingTemplate" _ content .empty) =>
    (content.stringAt? "template_name").map missingTemplate
  | _ => none

end Inlay
