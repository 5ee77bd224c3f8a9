import Inlay.Error
import Inlay.Method

/-!
# What an evaluation leaves behind

An evaluation ends with a value or a failure, and either way has made some calls of methods on the
way. The calls are part of the outcome: they show in which order methods ran, on which arguments,
and that nothing ran after a failure.
-/

namespace Inlay

/-- One call of a method: its name and the arguments it was given. -/
structure Call where
  name : String
  arguments : List Value

/-- How an evaluation ends, and the calls it made in order. -/
structure Outcome (ε : Type) where
  result : Except ε Value
  calls : List Call

/-- An outcome with its failure seen as one of another kind. -/
def Outcome.mapError {ε δ : Type} (f : ε → δ) (outcome : Outcome ε) : Outcome δ :=
  ⟨outcome.result.mapError f, outcome.calls⟩

/-- The outcome of failing before any call. -/
def Outcome.failed {ε : Type} (error : ε) : Outcome ε :=
  ⟨.error error, []⟩

/-- A computation that may fail and that records its calls. -/
abbrev Run (α : Type) := ExceptT EvalError (StateM (Array Call)) α

namespace Run

/-- The method of a name. -/
def method (methods : Methods) (name : String) : Run Method :=
  match methods.find? name with
  | some method => pure method
  | none => throw (.unknownMethod name)

/-- Calls a method and records the call. -/
def call (name : String) (method : Method) (arguments : List Value) : Run Value := do
  modify (·.push ⟨name, arguments⟩)
  return method arguments

/-- The outcome of a computation that starts without any call recorded. -/
def outcome (computation : Run Value) : Outcome EvalError :=
  let (result, calls) := computation.run.run #[]
  ⟨result, calls.toList⟩

end Run

end Inlay
