import Inlay.Json.Basic
import Inlay.Template

/-!
# Templates as documents

A template is written as its source and its mode. The term is not written: reading a template reads
its source again, and fails as that does.
-/

namespace Inlay

/-- Why a document is no template: it has another shape, or its source is refused. -/
inductive TemplateFault
  | shape
  | source (error : ParseError)
  deriving DecidableEq, Repr

/-- What is said of a document whose source is refused. -/
def TemplateFault.message? : TemplateFault → Option String
  | shape => none
  | source error => some ("Failed to parse template: " ++ error.message)

/-- The name of a mode. -/
def Parse.Mode.name : Parse.Mode → String
  | expression => "Expression"
  | concat => "Concat"

/-- The document of a mode. -/
def Parse.Mode.toJson (mode : Parse.Mode) : Json :=
  .string mode.name

/-- The mode that a document names. -/
def Parse.Mode.ofJson? (document : Json) : Option Parse.Mode :=
  match document.caseName? with
  | some "Expression" => some .expression
  | some "Concat" => some .concat
  | _ => none

namespace Template

/-- The document of a template. -/
def toJson (template : Template) : Json :=
  .record [("source", .string template.source), ("mode", template.mode.toJson)]

/-- The template of a source and a mode that documents hold. Without a mode the source is an
expression. -/
def ofParts (source : Json) (mode? : Option Json) : Except TemplateFault Template :=
  match source.string?, (mode?.getD (.string "Expression") |> Parse.Mode.ofJson?) with
  | some source, some mode => (compile mode source).mapError .source
  | _, _ => .error .shape

/-- The template that a document holds, with its source and mode named or in order. -/
def ofJson : Json → Except TemplateFault Template
  | .object members =>
    match members.find? "source" with
    | some source => ofParts source (members.find? "mode")
    | none => .error .shape
  | .array [source] => ofParts source none
  | .array [source, mode] => ofParts source (some mode)
  | _ => .error .shape

end Template

end Inlay
