import Inlay.Proofs.Evaluation.Recursive
import Inlay.Proofs.Term.Everywhere

/-!
# What an evaluation fails for

An evaluation fails for one of two things, and the term that fails holds it: a method that is not
registered, under a name that a call in the term goes by or that stands bare on the right of a pipe;
or a pipe whose right side is neither. Nothing else makes an evaluation fail, whatever the context
holds: a term in which neither of the two is found has a value.
-/

namespace Inlay

namespace Traced

variable {α β : Type} {error : EvalError}

/-- One computation and another after it fail as the first does, or as the second does on its
value. -/
theorem error_of_andThen {first : Traced α} {next : α → Traced β}
    (failed : (first.andThen next).result = .error error) :
    first.result = .error error ∨ ∃ a, (next a).result = .error error := by
  rw [result_andThen] at failed
  cases ended : first.result with
  | error other =>
    rw [ended] at failed
    cases failed
    exact .inl rfl
  | ok a =>
    rw [ended] at failed
    exact .inr ⟨a, failed⟩

theorem error_of_map {f : α → β} {first : Traced α}
    (failed : (first.map f).result = .error error) : first.result = .error error := by
  obtain ended | ⟨a, ⟨⟩⟩ := error_of_andThen failed
  exact ended

/-- Looking a method up fails only for a name without a method, and says the name. -/
theorem error_of_method {methods : Methods} {name : String}
    (failed : (method methods name).result = .error error) :
    methods.find? name = none ∧ error = .unknownMethod name := by
  rw [method] at failed
  cases found : methods.find? name with
  | some m =>
    rw [found] at failed
    cases failed
  | none =>
    rw [found] at failed
    cases failed
    exact ⟨rfl, rfl⟩

end Traced

/-- An operator fails as its right operand does, or as a pipe does if it is one. -/
theorem Operator.error_of_continued {op : Operator} {right : Traced Value}
    {target : Value → Traced Value} {v : Value} {error : EvalError}
    (failed : (op.continued right target v).result = .error error) :
    right.result = .error error ∨ op = .pipe ∧ (target v).result = .error error := by
  cases op with
  | pipe => exact .inr ⟨rfl, failed⟩
  | and | or =>
    simp only [continued] at failed
    split at failed
    all_goals first | exact .inl failed | cases failed
  | _ => exact .inl (Traced.error_of_map failed)

namespace Term

/-- Whether a term goes by the name of a method itself: a call of it, or a pipe into the bare
name. -/
def GoesBy (name : String) : Term → Prop
  | call callee _ => callee = name
  | binary .pipe _ (reference path) => dotted path = name
  | _ => False

/-- Whether a pipe can lead into a term: a bare name or a call. -/
def isTarget : Term → Bool
  | reference _ | call .. => true
  | _ => false

/-- Whether a term is a pipe into something that no pipe can lead into, of the given kind. -/
def Misleads (kind : String) : Term → Prop
  | binary .pipe _ target => target.isTarget = false ∧ target.kind = kind
  | _ => False

/-- Whether a term holds what an evaluation failed for. -/
def Explains (methods : Methods) (t : Term) : EvalError → Prop
  | .unknownMethod name => methods.find? name = none ∧ t.Somewhere (GoesBy name)
  | .invalidPipeTarget kind => t.Somewhere (Misleads kind)

variable {context : Context} {methods : Methods}

/-- What a part holds the whole holds. -/
theorem Explains.of_part {t part : Term} {error : EvalError}
    (within : ∀ P, part.Somewhere P → t.Somewhere P) (explained : part.Explains methods error) :
    t.Explains methods error := by
  cases error with
  | unknownMethod name => exact ⟨explained.1, within _ explained.2⟩
  | invalidPipeTarget kind => exact within _ explained

mutual

/-- A term that fails holds what it fails for. -/
theorem explains_of_traced : ∀ (t : Term) {error : EvalError},
    (traced context methods t).result = .error error → t.Explains methods error
  | concat parts, error, failed => by
    rw [traced] at failed
    obtain ⟨part, mem, explained⟩ := explains_of_tracedParts parts (Traced.error_of_map failed)
    exact explained.of_part fun _ => .part mem
  | expression (some t), error, failed => by
    rw [traced] at failed
    exact (explains_of_traced t failed).of_part fun _ => .statement
  | call name arguments, error, failed => by
    rw [traced] at failed
    obtain looking | ⟨method, after⟩ := Traced.error_of_andThen failed
    · obtain ⟨missing, rfl⟩ := Traced.error_of_method looking
      exact ⟨missing, .here rfl⟩
    · obtain arguing | ⟨values, ⟨⟩⟩ := Traced.error_of_andThen after
      obtain ⟨argument, mem, explained⟩ := explains_of_tracedArguments arguments arguing
      exact explained.of_part fun _ => .argument mem
  | binary op left right, error, failed => by
    rw [traced] at failed
    obtain first | ⟨v, next⟩ := Traced.error_of_andThen failed
    · exact (explains_of_traced left first).of_part fun _ => .left
    · obtain operand | ⟨rfl, piped⟩ := Operator.error_of_continued next
      · exact (explains_of_traced right operand).of_part fun _ => .right
      · exact explains_of_tracedTarget right piped left
  | expression none, _, failed | number _, _, failed | string _, _, failed | boolean _, _, failed
  | reference _, _, failed => by
    rw [traced] at failed
    cases failed

/-- A pipe that fails at its target holds what it fails for. -/
theorem explains_of_tracedTarget : ∀ (t : Term) {input : Value} {error : EvalError},
    (tracedTarget context methods t input).result = .error error →
    ∀ left : Term, (binary .pipe left t).Explains methods error
  | reference path, input, error, failed, left => by
    rw [tracedTarget] at failed
    obtain looking | ⟨method, ⟨⟩⟩ := Traced.error_of_andThen failed
    obtain ⟨missing, rfl⟩ := Traced.error_of_method looking
    exact ⟨missing, .here rfl⟩
  | call name arguments, input, error, failed, left => by
    rw [tracedTarget] at failed
    obtain looking | ⟨method, after⟩ := Traced.error_of_andThen failed
    · obtain ⟨missing, rfl⟩ := Traced.error_of_method looking
      exact ⟨missing, .right (.here rfl)⟩
    · obtain arguing | ⟨values, ⟨⟩⟩ := Traced.error_of_andThen after
      obtain ⟨argument, mem, explained⟩ := explains_of_tracedArguments arguments arguing
      exact explained.of_part fun _ somewhere => .right (.argument mem somewhere)
  | concat _, _, _, failed, _ | expression _, _, _, failed, _ | number _, _, _, failed, _
  | string _, _, _, failed, _ | boolean _, _, _, failed, _ | binary .., _, _, failed, _ => by
    rw [tracedTarget] at failed
    · cases failed
      exact .here ⟨rfl, rfl⟩
    all_goals nofun

theorem explains_of_tracedArguments : ∀ (ts : List Term) {error : EvalError},
    (tracedArguments context methods ts).result = .error error →
    ∃ t ∈ ts, t.Explains methods error
  | [], _, failed => by
    rw [tracedArguments] at failed
    cases failed
  | t :: ts, error, failed => by
    rw [tracedArguments] at failed
    obtain first | ⟨v, next⟩ := Traced.error_of_andThen failed
    · exact ⟨t, List.mem_cons_self, explains_of_traced t first⟩
    · obtain ⟨u, mem, explained⟩ := explains_of_tracedArguments ts (Traced.error_of_map next)
      exact ⟨u, List.mem_cons_of_mem t mem, explained⟩

theorem explains_of_tracedParts : ∀ (ts : List Term) {error : EvalError},
    (tracedParts context methods ts).result = .error error →
    ∃ t ∈ ts, t.Explains methods error
  | [], _, failed => by
    rw [tracedParts] at failed
    cases failed
  | t :: ts, error, failed => by
    rw [tracedParts] at failed
    obtain first | ⟨v, next⟩ := Traced.error_of_andThen failed
    · exact ⟨t, List.mem_cons_self, explains_of_traced t first⟩
    · obtain ⟨u, mem, explained⟩ := explains_of_tracedParts ts (Traced.error_of_map next)
      exact ⟨u, List.mem_cons_of_mem t mem, explained⟩

end

/-- A term whose evaluation fails holds what it fails for. -/
theorem explains_of_evaluate {t : Term} {error : EvalError}
    (failed : (t.evaluate context methods).result = .error error) : t.Explains methods error := by
  rw [evaluate_result] at failed
  exact explains_of_traced t failed

/-- A term that finds all its methods and pipes into nothing but names and calls has a value. -/
theorem exists_value_of_registered {t : Term}
    (registered : ∀ name, t.Somewhere (GoesBy name) → (methods.find? name).isSome = true)
    (leads : ∀ kind, ¬ t.Somewhere (Misleads kind)) (context : Context) :
    ∃ v, (t.evaluate context methods).result = .ok v := by
  cases ended : (t.evaluate context methods).result with
  | ok v => exact ⟨v, rfl⟩
  | error error =>
    have explained := explains_of_evaluate ended
    cases error with
    | unknownMethod name =>
      have found := registered name explained.2
      rw [explained.1] at found
      cases found
    | invalidPipeTarget kind => exact absurd explained (leads kind)

end Term

end Inlay
