import Inlay.Proofs.Evaluation.Recursive
import Inlay.Proofs.Grammar.Separated

/-!
# Pipes are calls

Piping a value into a call is the call with the value put before its arguments, and piping it into a
bare name is the call of that name with the value alone. The two forms are written differently and
evaluated on two ways: a pipe evaluates its input before it looks the method up, a call looks it up
first. Where the method is there the order cannot be told.

`pipe_eq_call` says this of tokens: whatever expressions the input and the arguments are, both forms
are read, and they evaluate alike with the same calls in the same order.
-/

namespace Inlay

namespace Traced

variable {α β γ : Type}

/-- Nothing is left behind before what follows a value. -/
theorem value_andThen (a : α) (next : α → Traced β) : (value a).andThen next = next a := rfl

/-- Of three computations it does not matter which two are put together first. -/
theorem andThen_assoc (first : Traced α) (second : α → Traced β) (third : β → Traced γ) :
    (first.andThen second).andThen third = first.andThen fun a => (second a).andThen third := by
  obtain ⟨result, calls⟩ := first
  cases result with
  | error error => rfl
  | ok a =>
    simp only [andThen]
    cases (second a).result with
    | error error => rfl
    | ok b => simp only [List.append_assoc]

/-- A method that is registered is found without leaving anything behind. -/
theorem method_of_find? {methods : Methods} {name : String} {m : Method}
    (found : methods.find? name = some m) : method methods name = value m := by
  rw [method, found]

end Traced

/-- A pipe leaves its right operand alone and goes on with the target. -/
theorem Operator.continued_pipe (right : Traced Value) (target : Value → Traced Value) :
    pipe.continued right target = target := rfl

namespace Term

variable {context : Context} {methods : Methods} {name : String} {m : Method}

/-- A pipe into a call does what the call with the input before its arguments does. -/
theorem traced_pipe_call (found : methods.find? name = some m) (input : Term)
    (arguments : List Term) :
    traced context methods (binary .pipe input (call name arguments)) =
      traced context methods (call name (input :: arguments)) := by
  have looked := Traced.method_of_find? found
  calc traced context methods (binary .pipe input (call name arguments))
      = (traced context methods input).andThen fun v =>
          (tracedArguments context methods arguments).andThen fun values =>
            Traced.called name m (v :: values) := by
        simp only [traced, Operator.continued_pipe, tracedTarget, looked, Traced.value_andThen]
    _ = traced context methods (call name (input :: arguments)) := by
        simp only [traced, tracedArguments, looked, Traced.value_andThen, Traced.map,
          Traced.andThen_assoc]

/-- A pipe into a bare name does what the call of the name on the input alone does. -/
theorem traced_pipe_ofName (found : methods.find? name = some m) (input : Term) :
    traced context methods (binary .pipe input (ofName name)) =
      traced context methods (call name [input]) := by
  have looked := Traced.method_of_find? found
  simp only [traced, tracedArguments, tracedTarget, Operator.continued_pipe, ofName,
    dotted_segments, looked, Traced.value_andThen, Traced.map, Traced.andThen_assoc]

/-- An expression evaluates as its statement does. -/
theorem evaluate_expression (context : Context) (methods : Methods) (t : Term) :
    (expression (some t)).evaluate context methods = t.evaluate context methods := by
  rw [evaluate_eq_traced, evaluate_eq_traced, traced]

/-- Piping into a registered method evaluates as the call does, with the same calls. -/
theorem evaluate_pipe_call (registered : (methods.find? name).isSome = true) (input : Term)
    (arguments : List Term) :
    (binary .pipe input (call name arguments)).evaluate context methods =
      (call name (input :: arguments)).evaluate context methods := by
  obtain ⟨m, found⟩ := Option.isSome_iff_exists.mp registered
  rw [evaluate_eq_traced, evaluate_eq_traced, traced_pipe_call found]

theorem evaluate_pipe_ofName (registered : (methods.find? name).isSome = true) (input : Term) :
    (binary .pipe input (ofName name)).evaluate context methods =
      (call name [input]).evaluate context methods := by
  obtain ⟨m, found⟩ := Option.isSome_iff_exists.mp registered
  rw [evaluate_eq_traced, evaluate_eq_traced, traced_pipe_ofName found]

end Term

open Grammar

/-- Tokens of an input followed by a bar and a call, and tokens of the call with those of the input
before its arguments, are both read, the first with the whole of the input on the left of the pipe.
Where the name is that of a method the two evaluate alike, with the same calls in the same order.
The same holds of an input piped into the bare name and of the call of the name on the input. -/
theorem pipe_eq_call {name : String} (isName : IsName name) {ts : List Token} {input : Term}
    (accepted : Accepted ts input) {lists : List (List Token)} {arguments : List Term}
    (each : List.Forall₂ Accepted lists arguments) :
    (∀ (bar : Token) (us : List Token), bar.text = "|" → Called name lists us →
      parse .expression (ts ++ bar :: us) =
        .ok (.expression (some (.binary .pipe input (.call name arguments))))) ∧
    (∀ (bar sign : Token) (blanks : List Token), bar.text = "|" → Blanks blanks →
      sign.text = name → parse .expression (ts ++ bar :: (blanks ++ [sign])) =
        .ok (.expression (some (.binary .pipe input (.ofName name))))) ∧
    (∀ us : List Token, Called name (ts :: lists) us →
      parse .expression us = .ok (.expression (some (.call name (input :: arguments))))) ∧
    (∀ us : List Token, Called name [ts] us →
      parse .expression us = .ok (.expression (some (.call name [input])))) ∧
    ∀ (context : Context) (methods : Methods), (methods.find? name).isSome = true →
      (Term.expression (some (.binary .pipe input (.call name arguments)))).evaluate context
          methods =
        (Term.expression (some (.call name (input :: arguments)))).evaluate context methods ∧
      (Term.expression (some (.binary .pipe input (.ofName name)))).evaluate context methods =
        (Term.expression (some (.call name [input]))).evaluate context methods := by
  refine ⟨?_, ?_, ?_, ?_, ?_⟩
  · intro bar us isBar called
    exact accepted.pipe isBar (called.operand isName each)
  · intro bar sign blanks isBar blank same
    subst same
    exact accepted.pipe isBar (.name blank isName)
  · intro us called
    exact (called.operand isName (.cons accepted each)).accepted
  · intro us called
    exact (called.operand isName (.cons accepted .nil)).accepted
  · intro context methods registered
    simp only [Term.evaluate_expression]
    exact ⟨Term.evaluate_pipe_call registered input arguments,
      Term.evaluate_pipe_ofName registered input⟩

/-- A pipe is the input of another into a method with a dotted name, and a sum is the argument. -/
theorem pipe_eq_call_dotted :
    ∃ input argument : Term, input = .binary .pipe (.reference ["a"]) (.reference ["f"]) ∧
      argument = .binary .addition (.reference ["b"]) (.reference ["c"]) ∧
      parse .expression (["a", "|", "f", "|", " ", "g.h", "(", "b", "+", "c", ")"].map
          fun text => ⟨text, .start⟩) =
        .ok (.expression (some (.binary .pipe input (.call "g.h" [argument])))) ∧
      parse .expression (["g.h", "(", "a", "|", "f", ",", "b", "+", "c", ")"].map
          fun text => ⟨text, .start⟩) =
        .ok (.expression (some (.call "g.h" [input, argument]))) ∧
      ∀ (context : Context) (methods : Methods), methods = .ofList [("g.h", .array)] →
        (methods.find? "g.h").isSome = true ∧
        (Term.expression (some (.binary .pipe input (.call "g.h" [argument])))).evaluate context
            methods =
          (Term.expression (some (.call "g.h" [input, argument]))).evaluate context methods := by
  have accepted : Accepted [⟨"a", .start⟩, ⟨"|", .start⟩, ⟨"f", .start⟩]
      (.binary .pipe (.reference ["a"]) (.reference ["f"])) := by
    rw [Accepted]
    rfl
  have argued : Accepted [⟨"b", .start⟩, ⟨"+", .start⟩, ⟨"c", .start⟩]
      (.binary .addition (.reference ["b"]) (.reference ["c"])) := by
    rw [Accepted]
    rfl
  have isName : IsName "g.h" := ⟨rfl, by decide, by decide⟩
  have space : Blanks [⟨" ", .start⟩] := blanks_singleton (by decide)
  have alone : Called "g.h" _ ([⟨" ", .start⟩] ++ ⟨"g.h", .start⟩ :: ⟨"(", .start⟩ ::
      ([⟨"b", .start⟩, ⟨"+", .start⟩, ⟨"c", .start⟩] ++ [⟨")", .start⟩])) :=
    .mk space rfl rfl .first rfl
  have both : Called "g.h" _ ([] ++ ⟨"g.h", .start⟩ :: ⟨"(", .start⟩ ::
      (([⟨"a", .start⟩, ⟨"|", .start⟩, ⟨"f", .start⟩] ++ ⟨",", .start⟩ ::
        [⟨"b", .start⟩, ⟨"+", .start⟩, ⟨"c", .start⟩]) ++ [⟨")", .start⟩])) :=
    .mk blanks_nil rfl rfl (.next .first (List.cons_ne_nil _ _) rfl) rfl
  obtain ⟨pipe, -, call, -, same⟩ := pipe_eq_call isName accepted (.cons argued .nil)
  refine ⟨_, _, rfl, rfl, pipe ⟨"|", .start⟩ _ rfl alone, call _ both, ?_⟩
  intro context methods table
  subst table
  exact ⟨rfl, (same context _ rfl).1⟩

end Inlay
