import Inlay.Parse.Error

/-!
# What can go wrong

Every failure of the library, by its cause. A source may be refused, an evaluation may meet a name
that is no method or a pipe that leads to none, and a template may be stored twice or asked for in
vain. The wording of each cause stands in one place.
-/

namespace Inlay

/-- What can stop an evaluation. -/
inductive EvalError
  | unknownMethod (name : String)
  | invalidPipeTarget (found : String)
  deriving DecidableEq, Repr

/-- What stopped an evaluation, in words. -/
def EvalError.message : EvalError → String
  | unknownMethod name => "Unknown method: " ++ name
  | invalidPipeTarget found => "Invalid pipe right-hand side: " ++ found

/-- Any failure. -/
inductive Error
  | parse (error : ParseError)
  | evaluation (error : EvalError)
  | templateExists (name : String)
  | missingTemplate (name : String)
  deriving DecidableEq, Repr

namespace Error

/-- A failure in words. -/
def message : Error → String
  | parse error => error.message
  | evaluation error => error.message
  | templateExists name => "Template already exists: " ++ name
  | missingTemplate name => "Template not found: " ++ name

/-- The causes of a failure in words, each the cause of the one before. A refused source is a
failure because of the refusal, and that because of the fault. -/
def causes : Error → List String
  | parse error => [error.message, error.fault.message]
  | evaluation _ | templateExists _ | missingTemplate _ => []

end Error

end Inlay
