import Inlay.Evaluation.Basic
import Inlay.Parse.State
import Inlay.Term.Variables

/-!
# Templates

A template is a source together with the mode it is read in and the term it was read as. The term
is the one that reading gives, by the type of a template, so that a template never needs to be read
again and two templates of one source and mode are the same.
-/

namespace Inlay

/-- A source that was read. -/
structure Template where
  source : String
  mode : Parse.Mode
  term : Term
  parsed : parse mode (tokenize source) = .ok term

namespace Template

/-- Reads a source. -/
def compile (mode : Parse.Mode) (source : String) : Except ParseError Template :=
  match parsed : parse mode (tokenize source) with
  | .ok term => .ok ⟨source, mode, term, parsed⟩
  | .error error => .error error

/-- A source that is read as a term is the source of a template with that term. -/
theorem compile_of_parse {mode : Parse.Mode} {source : String} {t : Term}
    (parsed : parse mode (tokenize source) = .ok t) :
    compile mode source = .ok ⟨source, mode, t, parsed⟩ := by
  unfold compile
  split
  · rename_i u found
    cases parsed.symm.trans found
    rfl
  · rename_i found
    cases parsed.symm.trans found

/-- A source that is refused is refused as a template for the same reason. -/
theorem compile_of_refused {mode : Parse.Mode} {source : String} {error : ParseError}
    (refused : parse mode (tokenize source) = .error error) :
    compile mode source = .error error := by
  unfold compile
  split
  · rename_i found
    cases refused.symm.trans found
  · rename_i found
    cases refused.symm.trans found
    rfl

/-- The outcome of evaluating a template. -/
def evaluate (template : Template) (context : Context) (methods : Methods) : Outcome EvalError :=
  template.term.evaluate context methods

/-- The names that a template reads from a context. -/
def variableNames (template : Template) : List String :=
  template.term.variableNames

/-- Whether two templates have equal sources, modes and terms. -/
def equals (template other : Template) : Bool :=
  template.source == other.source && template.mode == other.mode && template.term.equals other.term

/-- Reads an expression and evaluates it without any methods. -/
def evaluateSource (source : String) (context : Context) : Except Error Value :=
  match compile .expression source with
  | .ok template => (template.evaluate context .empty).result.mapError .evaluation
  | .error error => .error (.parse error)

end Template

end Inlay
