import Inlay.Engine.Basic
import Mathlib.Logic.Function.Basic

/-!
# Engines as ledgers

A session is a sequence of requests made to an engine, each of them answered before the next. What
an engine answers can be told from a ledger that holds far less than it does: by name the source and
mode of a template, never the term, and the methods. The ledger reads a source again whenever it is
asked about it, so that nothing in it can be out of date.

`Engine.session_eq_ledger` says that the two cannot be told apart: from one request to the next they
answer alike and stay in step, however long the session is and whichever requests in it fail. The
engine of a refused request is the engine before it; `Engine.respond` is where this is said.
-/

namespace Inlay

/-- Something asked of an engine. -/
inductive Request
  | register (name : String) (method : Method)
  | add (name source : String) (mode : Parse.Mode)
  | render (name : String) (context : Context)
  | missing (name : String) (context : Context)
  | template (name : String)

/-- What is answered. Of a template everything shows that it consists of. -/
inductive Answer
  | done
  | refused (error : Error)
  | rendered (outcome : Outcome Error)
  | missing (names : List String)
  | template (found : Option (String × Parse.Mode × Term))

/-! ## Sessions -/

namespace Session

variable {σ τ : Type}

/-- What something with a state does with a request: the state afterwards and the answer. -/
abbrev Responder (σ : Type) := σ → Request → σ × Answer

/-- Makes several requests one after the other: the state afterwards and the answers in order. -/
def run (respond : Responder σ) : σ → List Request → σ × List Answer
  | s, [] => (s, [])
  | s, request :: requests =>
    let next := respond s request
    let rest := run respond next.1 requests
    (rest.1, next.2 :: rest.2)

/-- The state after some requests. -/
def after (respond : Responder σ) (s : σ) (requests : List Request) : σ :=
  (run respond s requests).1

/-- The answers to some requests. -/
def answers (respond : Responder σ) (s : σ) (requests : List Request) : List Answer :=
  (run respond s requests).2

@[simp] theorem after_cons (respond : Responder σ) (s : σ) (request : Request)
    (requests : List Request) :
    after respond s (request :: requests) = after respond (respond s request).1 requests := rfl

@[simp] theorem answers_cons (respond : Responder σ) (s : σ) (request : Request)
    (requests : List Request) :
    answers respond s (request :: requests) =
      (respond s request).2 :: answers respond (respond s request).1 requests := rfl

theorem after_append (respond : Responder σ) (s : σ) (first second : List Request) :
    after respond s (first ++ second) = after respond (after respond s first) second := by
  induction first generalizing s with
  | nil => rfl
  | cons request first ih => exact ih (respond s request).1

theorem answers_append (respond : Responder σ) (s : σ) (first second : List Request) :
    answers respond s (first ++ second) =
      answers respond s first ++ answers respond (after respond s first) second := by
  induction first generalizing s with
  | nil => rfl
  | cons request first ih =>
    rw [List.cons_append, answers_cons, answers_cons, after_cons, ih, List.cons_append]

/-- A view of the state that is in step with every single request is in step with every session. -/
theorem run_of_respond {respond : Responder σ} {respond' : Responder τ} {view : σ → τ}
    (step : ∀ s request, respond' (view s) request = Prod.map view id (respond s request)) (s : σ)
    (requests : List Request) :
    run respond' (view s) requests = Prod.map view id (run respond s requests) := by
  induction requests generalizing s with
  | nil => rfl
  | cons request requests ih =>
    rw [run, step, Prod.map_fst, ih]
    rfl

/-- A property of the state that every single request keeps is kept by every session. -/
theorem after_of_respond {respond : Responder σ} {P : σ → Prop}
    (step : ∀ s request, P s → P (respond s request).1) {s : σ} (holds : P s)
    (requests : List Request) : P (after respond s requests) := by
  induction requests generalizing s with
  | nil => exact holds
  | cons request requests ih => exact ih (step s request holds)

end Session

open Session

/-! ## The engine -/

/-- What a template consists of. -/
def Template.parts (template : Template) : String × Parse.Mode × Term :=
  (template.source, template.mode, template.term)

/-- What an engine does with a request. A template that is refused leaves the engine as it was. -/
def Engine.respond (engine : Engine) : Request → Engine × Answer
  | .register name method => (engine.register name method, .done)
  | .add name source mode =>
    match engine.addTemplate name source mode with
    | .ok engine => (engine, .done)
    | .error error => (engine, .refused error)
  | .render name context => (engine, .rendered (engine.render name context))
  | .missing name context => (engine, .missing (engine.missingVariables name context))
  | .template name => (engine, .template ((engine.template? name).map Template.parts))

/-! ## The ledger -/

/-- What is to be remembered of the requests made to an engine. -/
structure Ledger where
  sources : String → Option (String × Parse.Mode)
  methods : Methods

namespace Ledger

/-- The ledger before the first request, with the methods that are there from the start. -/
def start (methods : Methods) : Ledger :=
  ⟨fun _ => none, methods⟩

/-- The source under a name, its mode and the term that it reads as. -/
def read? (ledger : Ledger) (name : String) : Option (String × Parse.Mode × Term) :=
  match ledger.sources name with
  | none => none
  | some (source, mode) =>
    match parse mode (tokenize source) with
    | .ok t => some (source, mode, t)
    | .error _ => none

/-- What a request does to a ledger, and the answer that can be read off it. A taken name is refused
whatever the source is, and any other source is refused if reading refuses it. -/
def respond (ledger : Ledger) : Request → Ledger × Answer
  | .register name method =>
    ({ ledger with methods := ledger.methods.put name method }, .done)
  | .add name source mode =>
    match ledger.sources name, parse mode (tokenize source) with
    | some _, _ => (ledger, .refused (.templateExists name))
    | none, .error error => (ledger, .refused (.parse error))
    | none, .ok _ =>
      ({ ledger with sources := Function.update ledger.sources name (some (source, mode)) }, .done)
  | .render name context =>
    match ledger.read? name with
    | none => (ledger, .rendered (.failed (.missingTemplate name)))
    | some (_, _, t) =>
      (ledger, .rendered ((t.evaluate context ledger.methods).mapError .evaluation))
  | .missing name context =>
    match ledger.read? name with
    | none => (ledger, .missing [])
    | some (_, _, t) =>
      let isMissing := fun name => (context.resolve (segments name)).isUndefined
      (ledger, .missing (t.variableNames.filter isMissing))
  | .template name => (ledger, .template (ledger.read? name))

end Ledger

/-! ## The two in step -/

namespace Engine

/-- The ledger of an engine. -/
def ledger (engine : Engine) : Ledger :=
  ⟨fun name => (engine.template? name).map fun template => (template.source, template.mode),
    engine.methods⟩

/-- A ledger reads what the engine holds. -/
theorem read?_ledger (engine : Engine) (name : String) :
    engine.ledger.read? name = (engine.template? name).map Template.parts := by
  cases found : engine.template? name with
  | none => simp [Ledger.read?, ledger, found]
  | some template => simp [Ledger.read?, ledger, found, template.parsed, Template.parts]

/-- Adding under a taken name fails. -/
theorem addTemplate_of_taken {engine : Engine} {name source : String} {mode : Parse.Mode}
    {template : Template} (taken : engine.template? name = some template) :
    engine.addTemplate name source mode = .error (.templateExists name) := by
  have contained : engine.templates.contains name = true := by
    rw [Entries.contains, ← template?, taken]
    rfl
  rw [addTemplate, if_pos contained]

/-- Adding a source that is refused under a free name fails as reading it does. -/
theorem addTemplate_of_refused {engine : Engine} {name source : String} {mode : Parse.Mode}
    {error : ParseError} (free : engine.template? name = none)
    (refused : parse mode (tokenize source) = .error error) :
    engine.addTemplate name source mode = .error (.parse error) := by
  have contained : ¬ engine.templates.contains name = true := by
    rw [Entries.contains, ← template?, free]
    exact Bool.false_ne_true
  rw [addTemplate, if_neg contained, Template.compile_of_refused refused]

/-- Adding a source that is read under a free name puts its template there. -/
theorem addTemplate_of_parse {engine : Engine} {name source : String} {mode : Parse.Mode}
    {t : Term} (free : engine.template? name = none)
    (parsed : parse mode (tokenize source) = .ok t) :
    engine.addTemplate name source mode =
      .ok { engine with templates := engine.templates.put name ⟨source, mode, t, parsed⟩ } := by
  have contained : ¬ engine.templates.contains name = true := by
    rw [Entries.contains, ← template?, free]
    exact Bool.false_ne_true
  rw [addTemplate, if_neg contained, Template.compile_of_parse parsed]

/-- A template put under a name is what the ledger then has there. -/
theorem ledger_put (engine : Engine) (name : String) (template : Template) :
    ledger { engine with templates := engine.templates.put name template } =
      { engine.ledger with
        sources := Function.update engine.ledger.sources name
          (some (template.source, template.mode)) } := by
  have sources : ∀ other,
      ((engine.templates.put name template).find? other).map (fun t => (t.source, t.mode)) =
        Function.update engine.ledger.sources name (some (template.source, template.mode))
          other := by
    intro other
    rw [Entries.find?_put]
    by_cases same : name = other
    · subst same
      rw [if_pos rfl, Function.update_self]
      rfl
    · rw [if_neg same, Function.update_of_ne (Ne.symm same)]
      rfl
  exact congrArg (Ledger.mk · engine.methods) (funext sources)

/-- An engine and its ledger answer a request alike, and are in step after it. -/
theorem respond_ledger (engine : Engine) (request : Request) :
    engine.ledger.respond request = Prod.map ledger id (engine.respond request) := by
  cases request with
  | register name method => rfl
  | add name source mode =>
    cases found : engine.template? name with
    | some template =>
      have taken : engine.ledger.sources name = some (template.source, template.mode) := by
        simp [ledger, found]
      simp only [respond, addTemplate_of_taken found, Ledger.respond, taken]
      rfl
    | none =>
      have free : engine.ledger.sources name = none := by simp [ledger, found]
      cases read : parse mode (tokenize source) with
      | error error =>
        simp only [respond, addTemplate_of_refused found read, Ledger.respond, free, read]
        rfl
      | ok t =>
        simp only [respond, addTemplate_of_parse found read, Ledger.respond, free, read]
        exact congrArg (·, Answer.done) (ledger_put engine name ⟨source, mode, t, read⟩).symm
  | render name context =>
    simp only [Ledger.respond, respond, render, read?_ledger]
    cases engine.template? name <;> rfl
  | missing name context =>
    simp only [Ledger.respond, respond, missingVariables, read?_ledger]
    cases engine.template? name <;> rfl
  | template name =>
    simp only [Ledger.respond, respond, read?_ledger]
    rfl

/-- An engine and its ledger answer every session alike, and are in step after it. -/
theorem session_eq_ledger (engine : Engine) (requests : List Request) :
    run Ledger.respond engine.ledger requests = Prod.map ledger id (run respond engine requests) :=
  run_of_respond respond_ledger engine requests

end Engine

end Inlay
