import Inlay.Proofs.Engine.Ledger

/-!
# What an engine remembers

What an engine holds can be read off the requests that were made to it, without running them. Under
a name it holds the first source that was added there and can be read, for good: no later addition
replaces it, and nothing removes it. Of the methods it holds the last one registered under a name,
also where a template that calls it was added before. A refused addition is as if it had not been
made.
-/

namespace Inlay

open Session

/-- How an engine is started: with the standard methods, without any, or with some of one's own. -/
inductive Start
  | standard
  | empty
  | withMethods (methods : Methods)

namespace Start

/-- The engine that is started. -/
def engine : Start → Engine
  | standard => .standard
  | empty => .empty
  | withMethods methods => .withMethods methods

/-- The methods that are there from the start. -/
def methods : Start → Methods
  | standard => .standard
  | empty => .empty
  | withMethods methods => methods

/-- The engine after some requests. -/
def engineAfter (start : Start) (requests : List Request) : Engine :=
  after Engine.respond start.engine requests

/-- The ledger after some requests. -/
def ledgerAfter (start : Start) (requests : List Request) : Ledger :=
  after Ledger.respond (.start start.methods) requests

/-- However an engine is started, it holds no template. -/
theorem ledger_engine (start : Start) : start.engine.ledger = .start start.methods := by
  cases start <;> rfl

theorem ledger_engineAfter (start : Start) (requests : List Request) :
    (start.engineAfter requests).ledger = start.ledgerAfter requests := by
  rw [ledgerAfter, ← ledger_engine, after, Engine.session_eq_ledger]
  rfl

end Start

/-! ## Requests made so far -/

namespace Request

/-- The source and mode that a request gives to a name: those of an addition under the name, if the
source can be read. -/
def source? (name : String) : Request → Option (String × Parse.Mode)
  | add other source mode =>
    if other = name ∧ (parse mode (tokenize source)).isOk then some (source, mode) else none
  | _ => none

/-- The method that a request gives to a name. -/
def method? (name : String) : Request → Option Method
  | register other method => if other = name then some method else none
  | _ => none

/-- The first source that can be read among those added under a name, with its mode. -/
def firstSource? (requests : List Request) (name : String) : Option (String × Parse.Mode) :=
  requests.findSome? (source? name)

/-- The last method registered under a name. -/
def lastMethod? (requests : List Request) (name : String) : Option Method :=
  requests.reverse.findSome? (method? name)

end Request

open Request

namespace Ledger

/-- A request gives a source only to a name that has none. -/
theorem sources_respond (ledger : Ledger) (request : Request) (name : String) :
    (ledger.respond request).1.sources name =
      (ledger.sources name).or (request.source? name) := by
  cases request with
  | register => simp [respond, source?]
  | add other source mode =>
    simp only [respond, source?]
    by_cases same : other = name
    · subst same
      cases held : ledger.sources other with
      | some pair => simp [held]
      | none =>
        cases parse mode (tokenize source) with
        | error error => simp [held, Except.isOk, Except.toBool]
        | ok t => simp [Except.isOk, Except.toBool]
    · have unchanged : Function.update ledger.sources other (some (source, mode)) name =
          ledger.sources name := Function.update_of_ne (Ne.symm same) _ _
      rw [if_neg fun both => same both.1, Option.or_none]
      split <;> first | rfl | exact unchanged
  | render other context | missing other context =>
    simp only [respond, source?, Option.or_none]
    split <;> rfl
  | template => simp [respond, source?]

/-- A request gives a method to a name whatever the name had before. -/
theorem find?_methods_respond (ledger : Ledger) (request : Request) (name : String) :
    (ledger.respond request).1.methods.find? name =
      (request.method? name).or (ledger.methods.find? name) := by
  cases request with
  | register other method =>
    simp only [respond, method?, Entries.find?_put]
    split <;> rfl
  | add other source mode | render other context | missing other context =>
    simp only [respond, method?, Option.none_or]
    split <;> rfl
  | template => rfl

/-- Under a name the source stays that was there, or else the first that can be read comes. -/
theorem sources_after (ledger : Ledger) (requests : List Request) (name : String) :
    (after respond ledger requests).sources name =
      (ledger.sources name).or (firstSource? requests name) := by
  induction requests generalizing ledger with
  | nil => exact Option.or_none.symm
  | cons request requests ih =>
    rw [after_cons, ih, sources_respond, Option.or_assoc, firstSource?, firstSource?,
      List.findSome?_cons]
    cases request.source? name <;> rfl

/-- Under a name the last method comes, or else the one stays that was there. -/
theorem find?_methods_after (ledger : Ledger) (requests : List Request) (name : String) :
    (after respond ledger requests).methods.find? name =
      (lastMethod? requests name).or (ledger.methods.find? name) := by
  induction requests generalizing ledger with
  | nil => rfl
  | cons request requests ih =>
    rw [after_cons, ih, find?_methods_respond, ← Option.or_assoc, lastMethod?, lastMethod?,
      List.reverse_cons, List.findSome?_append, List.findSome?_singleton]

end Ledger

namespace Engine

/-- A template stays under its name whatever is requested. -/
theorem template?_respond {engine : Engine} {name : String} {template : Template}
    (held : engine.template? name = some template) (request : Request) :
    (engine.respond request).1.template? name = some template := by
  cases request with
  | add other source mode =>
    cases found : engine.template? other with
    | some taken =>
      rw [respond, addTemplate_of_taken found]
      exact held
    | none =>
      have apart : other ≠ name := by
        rintro rfl
        cases found.symm.trans held
      cases read : parse mode (tokenize source) with
      | error error =>
        rw [respond, addTemplate_of_refused found read]
        exact held
      | ok t =>
        rw [respond, addTemplate_of_parse found read]
        exact (Entries.find?_insert_of_ne apart).trans held
  | _ => exact held

/-- A refused addition leaves the engine as it was. -/
theorem respond_of_refused {engine : Engine} {request : Request} {error : Error}
    (refused : (engine.respond request).2 = .refused error) :
    (engine.respond request).1 = engine := by
  cases request with
  | add name source mode =>
    rw [respond] at refused ⊢
    split at refused
    · cases refused
    · rfl
  | register => cases refused
  | _ => rfl

end Engine

namespace Start

variable (start : Start) (requests : List Request) (name : String)

/-- An engine holds the first source that was added under a name and can be read. -/
theorem template?_engineAfter :
    ((start.engineAfter requests).template? name).map (fun t => (t.source, t.mode)) =
      firstSource? requests name := by
  have held := Ledger.sources_after (.start start.methods) requests name
  rw [← ledgerAfter, ← ledger_engineAfter] at held
  exact held.trans (Option.none_or)

/-- An engine holds the last method that was registered under a name. -/
theorem find?_methods_engineAfter :
    (start.engineAfter requests).methods.find? name =
      (lastMethod? requests name).or (start.methods.find? name) := by
  have held := Ledger.find?_methods_after (.start start.methods) requests name
  rw [← ledgerAfter, ← ledger_engineAfter] at held
  exact held

/-- A template is rendered as the first source under its name reads, with the methods that are there
by then. Where there is none, the template is missing. -/
theorem render_engineAfter (context : Context) :
    (start.engineAfter requests).render name context =
      match firstSource? requests name with
      | none => .failed (.missingTemplate name)
      | some (source, mode) =>
        match parse mode (tokenize source) with
        | .ok t =>
          (t.evaluate context (start.ledgerAfter requests).methods).mapError .evaluation
        | .error error => .failed (.parse error) := by
  rw [Engine.render, ← template?_engineAfter start, ← ledger_engineAfter]
  cases (start.engineAfter requests).template? name with
  | none => rfl
  | some template =>
    simp only [Option.map_some, template.parsed]
    rfl

/-- Rendering fails for want of a template exactly under a name that has none. -/
theorem render_missing_iff (context : Context) :
    ((start.engineAfter requests).render name context).result = .error (.missingTemplate name) ↔
      firstSource? requests name = none := by
  rw [← template?_engineAfter start, Option.map_eq_none_iff, Engine.render]
  cases (start.engineAfter requests).template? name with
  | none => exact iff_of_true rfl rfl
  | some template =>
    have other : ∀ result : Except EvalError Value,
        result.mapError Error.evaluation ≠ .error (.missingTemplate name) := by
      intro result same
      cases result with
      | ok v => cases same
      | error error => cases same
    exact iff_of_false (other _) (Option.some_ne_none _)

/-- A name is refused where it is taken, whatever the source is, and a free one only for what is
wrong with the source. -/
theorem respond_add_engineAfter (source : String) (mode : Parse.Mode) :
    ((start.engineAfter requests).respond (.add name source mode)).2 =
      match firstSource? requests name, parse mode (tokenize source) with
      | some _, _ => .refused (.templateExists name)
      | none, .error error => .refused (.parse error)
      | none, .ok _ => .done := by
  have answered := congrArg Prod.snd
    ((start.engineAfter requests).respond_ledger (.add name source mode))
  have held : (start.engineAfter requests).ledger.sources name = firstSource? requests name :=
    template?_engineAfter start requests name
  rw [Prod.map_snd, id, Ledger.respond, held] at answered
  rw [← answered]
  cases firstSource? requests name <;> cases parse mode (tokenize source) <;> rfl

/-- In every session an engine answers as the ledger does that keeps under each name the first
source that was added there and can be read, and under each method's name the method that was
registered last. Adding is refused for a taken name before it is for a source, what is refused
changes no later answer, and a template stays as it is whatever follows. Rendering fails for want of
a template exactly where there is none, and is otherwise the evaluation of what the source reads as,
with the methods that are registered by then. -/
theorem session_remembers :
    answers Engine.respond start.engine requests =
      answers Ledger.respond (.start start.methods) requests ∧
    (∀ name, (start.ledgerAfter requests).sources name = firstSource? requests name ∧
      (start.ledgerAfter requests).methods.find? name =
        (lastMethod? requests name).or (start.methods.find? name)) ∧
    (∀ name source mode,
      ((start.engineAfter requests).respond (.add name source mode)).2 =
        match firstSource? requests name, parse mode (tokenize source) with
        | some _, _ => .refused (.templateExists name)
        | none, .error error => .refused (.parse error)
        | none, .ok _ => .done) ∧
    (∀ request error more, ((start.engineAfter requests).respond request).2 = .refused error →
      answers Engine.respond start.engine (requests ++ request :: more) =
        answers Engine.respond start.engine requests ++
          .refused error :: answers Engine.respond (start.engineAfter requests) more) ∧
    (∀ name template more, (start.engineAfter requests).template? name = some template →
      (start.engineAfter (requests ++ more)).template? name = some template) ∧
    ∀ name context,
      (((start.engineAfter requests).render name context).result =
        .error (.missingTemplate name) ↔ firstSource? requests name = none) ∧
      ∀ source mode, firstSource? requests name = some (source, mode) →
        ∃ t, parse mode (tokenize source) = .ok t ∧
          (start.engineAfter requests).render name context =
            (t.evaluate context (start.ledgerAfter requests).methods).mapError .evaluation := by
  refine ⟨?_, ?_, ?_, ?_, ?_, ?_⟩
  · have together := start.engine.session_eq_ledger requests
    rw [ledger_engine] at together
    exact (congrArg Prod.snd together).symm
  · intro name
    rw [← ledger_engineAfter]
    exact ⟨template?_engineAfter start requests name, find?_methods_engineAfter start requests name⟩
  · intro name source mode
    exact respond_add_engineAfter start requests name source mode
  · intro request error more refused
    rw [answers_append, answers_cons, ← engineAfter, refused, Engine.respond_of_refused refused]
  · intro name template more held
    rw [engineAfter, after_append]
    refine after_of_respond (P := fun engine : Engine => engine.template? name = some template) ?_
      held more
    intro engine request kept
    exact Engine.template?_respond kept request
  · intro name context
    refine ⟨render_missing_iff start requests name context, ?_⟩
    intro source mode first
    have held := template?_engineAfter start requests name
    have rendered := render_engineAfter start requests name context
    rw [first, Option.map_eq_some_iff] at held
    obtain ⟨template, -, parts⟩ := held
    cases parts
    rw [first] at rendered
    simp only [template.parsed] at rendered
    exact ⟨template.term, template.parsed, rendered⟩

/-- A method may be registered after the template that calls it, and adding a second source under
the name, though it cannot even be read, is refused for the name and changes nothing. -/
theorem session_remembers_late_method :
    ∃ requests, requests = [Request.add "a" "f(1)" .expression, .register "f" .array] ∧
      firstSource? requests "a" = some ("f(1)", .expression) ∧
      ((standard.engineAfter requests).respond (.add "a" ")" .expression)).2 =
        .refused (.templateExists "a") ∧
      (∀ more, answers Engine.respond standard.engine
          (requests ++ .add "a" ")" .expression :: more) =
        answers Engine.respond standard.engine requests ++
          .refused (.templateExists "a") ::
            answers Engine.respond (standard.engineAfter requests) more) ∧
      (∃ template, (standard.engineAfter requests).template? "a" = some template ∧
        ∀ more, (standard.engineAfter (requests ++ more)).template? "a" = some template) ∧
      ∃ t, parse .expression (tokenize "f(1)") = .ok t ∧ ∀ context,
        (standard.engineAfter requests).render "a" context =
          (t.evaluate context (standard.ledgerAfter requests).methods).mapError .evaluation := by
  refine ⟨_, rfl, ?_⟩
  have first : firstSource? [.add "a" "f(1)" .expression, .register "f" .array] "a" =
      some ("f(1)", .expression) := by decide +kernel
  obtain ⟨-, -, adding, refusing, keeping, rendering⟩ :=
    session_remembers standard [.add "a" "f(1)" .expression, .register "f" .array]
  have refused := adding "a" ")" .expression
  rw [first] at refused
  have held := template?_engineAfter standard
    [.add "a" "f(1)" .expression, .register "f" .array] "a"
  rw [first, Option.map_eq_some_iff] at held
  obtain ⟨template, held, -⟩ := held
  obtain ⟨t, parsed, -⟩ := (rendering "a" .empty).2 _ _ first
  refine ⟨first, refused, fun more => refusing _ _ more refused,
    ⟨template, held, fun more => keeping _ _ more held⟩, t, parsed, ?_⟩
  intro context
  obtain ⟨u, parsed', rendered⟩ := (rendering "a" context).2 _ _ first
  cases parsed.symm.trans parsed'
  exact rendered

end Start

end Inlay
