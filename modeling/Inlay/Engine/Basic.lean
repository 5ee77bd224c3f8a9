import Inlay.Engine.Standard
import Inlay.Template

/-!
# Engines

An engine keeps templates by name and the methods that they share. A name is given to a template
once: adding under a taken name fails before the source is looked at, and a source that is refused
leaves the engine as it was. A template is evaluated with the methods that the engine has when it
is rendered, whichever came first.
-/

namespace Inlay

/-- Templates by name and their methods. -/
structure Engine where
  templates : Table Template
  methods : Methods

namespace Engine

/-- The engine with nothing in it. -/
def empty : Engine := ⟨.empty, .empty⟩

/-- The engine without templates that has some methods. -/
def withMethods (methods : Methods) : Engine := ⟨.empty, methods⟩

/-- The engine without templates that has the standard methods. -/
def standard : Engine := withMethods .standard

instance : Inhabited Engine := ⟨.empty⟩

/-- Gives a name to a method, in place of one that has it already. -/
def register (engine : Engine) (name : String) (method : Method) : Engine :=
  { engine with methods := engine.methods.put name method }

/-- The template of a name. -/
def template? (engine : Engine) (name : String) : Option Template :=
  engine.templates.find? name

/-- Reads a source and gives the template a name, which must be free. -/
def addTemplate (engine : Engine) (name source : String) (mode : Parse.Mode) :
    Except Error Engine :=
  if engine.templates.contains name then .error (.templateExists name)
  else
    match Template.compile mode source with
    | .ok template => .ok { engine with templates := engine.templates.put name template }
    | .error error => .error (.parse error)

/-- The outcome of evaluating the template of a name. -/
def render (engine : Engine) (name : String) (context : Context) : Outcome Error :=
  match engine.template? name with
  | some template => (template.evaluate context engine.methods).mapError .evaluation
  | none => .failed (.missingTemplate name)

/-- The names that the template of a name reads and that lead to undefined in a context. Nothing is
missing where there is no template. -/
def missingVariables (engine : Engine) (name : String) (context : Context) : List String :=
  match engine.template? name with
  | some template =>
    template.variableNames.filter fun name => (context.resolve (segments name)).isUndefined
  | none => []

end Engine

end Inlay
