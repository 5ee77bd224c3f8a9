import Inlay.Evaluation.Basic

/-!
# Evaluation by recursion

What a term means, said by recursion on the term: an operation evaluates its left operand to the
end, descends into it as deep as it is, and only then turns to the operator. `Traced` says what a
computation leaves behind, how it ends and which calls it made, and `Traced.andThen` is the one way
in which one computation follows another: a failure of the first is the failure of both, and then
the second makes no call.

`Term.evaluate` does not descend to the left but keeps what is still to be done in a list, and it
records calls in a log that it carries along. `run_eq_bind_settle` says that it comes to the same:
a term with pending steps first does what the term means and then takes the steps on its value.
-/

namespace Inlay

/-- How a computation ends, and the calls that it made in order. -/
structure Traced (α : Type) where
  result : Except EvalError α
  calls : List Call

namespace Traced

variable {α β : Type}

/-- No more than a value. -/
def value (a : α) : Traced α :=
  ⟨.ok a, []⟩

/-- No more than a failure. -/
def failed (error : EvalError) : Traced α :=
  ⟨.error error, []⟩

/-- One computation, and where it has a value another that is given the value. -/
def andThen (first : Traced α) (next : α → Traced β) : Traced β :=
  match first.result with
  | .ok a => ⟨(next a).result, first.calls ++ (next a).calls⟩
  | .error error => ⟨.error error, first.calls⟩

/-- A computation with its value seen as another. -/
def map (f : α → β) (first : Traced α) : Traced β :=
  first.andThen fun a => value (f a)

/-- The method of a name. -/
def method (methods : Methods) (name : String) : Traced Method :=
  match methods.find? name with
  | some method => value method
  | none => failed (.unknownMethod name)

/-- The outcome of a computation that makes no other calls than these. -/
def outcome (m : Traced Value) : Outcome EvalError :=
  ⟨m.result, m.calls⟩

/-- One call of a method. -/
def called (name : String) (method : Method) (arguments : List Value) : Traced Value :=
  ⟨.ok (method arguments), [⟨name, arguments⟩]⟩

end Traced

/-- What an operator leaves behind once its left operand has a value, given what its right operand
would leave behind and what piping a value into it would. The right operand of `&&` and `||` leaves
nothing behind where the left one decides. -/
def Operator.continued (op : Operator) (right : Traced Value) (target : Value → Traced Value)
    (v : Value) : Traced Value :=
  match op with
  | .pipe => target v
  | .and => if v.isTruthy then right else .value v
  | .or => if v.isTruthy then .value v else right
  | op => right.map fun w => op.apply v w

namespace Term

variable (context : Context) (methods : Methods)

mutual

/-- What evaluating a term leaves behind. -/
def traced : Term → Traced Value
  | concat parts => (tracedParts parts).map .string
  | expression none => .value .undefined
  | expression (some t) => traced t
  | number x => .value (.number x)
  | string s => .value (.string s)
  | boolean b => .value (.boolean b)
  | reference path => .value (context.resolve path)
  | call name arguments =>
    (Traced.method methods name).andThen fun method =>
      (tracedArguments arguments).andThen fun values => .called name method values
  | binary op left right =>
    (traced left).andThen (op.continued (traced right) (tracedTarget right))

/-- What piping a value into a term leaves behind. -/
def tracedTarget : Term → Value → Traced Value
  | reference path, input =>
    (Traced.method methods (dotted path)).andThen fun method =>
      .called (dotted path) method [input]
  | call name arguments, input =>
    (Traced.method methods name).andThen fun method =>
      (tracedArguments arguments).andThen fun values => .called name method (input :: values)
  | t, _ => .failed (.invalidPipeTarget t.kind)

/-- What evaluating arguments from the left leaves behind. -/
def tracedArguments : List Term → Traced (List Value)
  | [] => .value []
  | t :: ts => (traced t).andThen fun v => (tracedArguments ts).map fun values => v :: values

/-- What evaluating the parts of a text from the left leaves behind. -/
def tracedParts : List Term → Traced String
  | [] => .value ""
  | t :: ts => (traced t).andThen fun v => (tracedParts ts).map fun text => v.splicedText ++ text

end

end Term

/-! ## Computations with a log -/

namespace Traced

variable {α β : Type}

theorem result_andThen (first : Traced α) (next : α → Traced β) :
    (first.andThen next).result = first.result >>= fun a => (next a).result := by
  obtain ⟨result, calls⟩ := first
  cases result <;> rfl

theorem result_map (f : α → β) (first : Traced α) : (first.map f).result = first.result.map f := by
  obtain ⟨result, calls⟩ := first
  cases result <;> rfl

/-- The computation that leaves this behind: its calls are recorded after those before it. -/
def toRun (m : Traced α) : Run α :=
  ExceptT.mk fun log => (m.result, log ++ m.calls.toArray)

theorem toRun_value (a : α) : (value a).toRun = pure a := by
  funext log
  exact congrArg (Except.ok a, ·) (Array.append_empty)

theorem toRun_failed (error : EvalError) : (failed error : Traced α).toRun = throw error := by
  funext log
  exact congrArg (Except.error error, ·) (Array.append_empty)

/-- One computation after another records the calls of the first before those of the second. -/
theorem toRun_andThen (first : Traced α) (next : α → Traced β) :
    (first.andThen next).toRun = first.toRun >>= fun a => (next a).toRun := by
  obtain ⟨result, calls⟩ := first
  funext log
  cases result with
  | ok a =>
    have recorded : log ++ (calls ++ (next a).calls).toArray =
        log ++ calls.toArray ++ (next a).calls.toArray := by
      rw [← List.append_toArray, Array.append_assoc]
    exact congrArg ((next a).result, ·) recorded
  | error error => rfl

theorem toRun_map (f : α → β) (first : Traced α) :
    (first.map f).toRun = first.toRun >>= fun a => pure (f a) := by
  rw [map, toRun_andThen]
  exact bind_congr fun a => toRun_value (f a)

theorem toRun_method (methods : Methods) (name : String) :
    (method methods name).toRun = Run.method methods name := by
  rw [method, Run.method]
  cases methods.find? name with
  | some method => exact toRun_value method
  | none => exact toRun_failed _

theorem toRun_called (name : String) (method : Method) (arguments : List Value) :
    (called name method arguments).toRun = Run.call name method arguments := by
  funext log
  exact congrArg (Except.ok (method arguments), ·) Array.push_eq_append.symm

/-- A computation that starts without any call recorded leaves its own calls behind. -/
theorem outcome_toRun (m : Traced Value) : m.toRun.outcome = m.outcome := by
  have recorded : (#[] ++ m.calls.toArray).toList = m.calls := by rw [Array.empty_append]
  exact congrArg (Outcome.mk m.result) recorded

end Traced

theorem Operator.toRun_continued (op : Operator) (right : Traced Value)
    (target : Value → Traced Value) (v : Value) :
    (op.continued right target v).toRun =
      match op with
      | .pipe => (target v).toRun
      | .and => if v.isTruthy then right.toRun else pure v
      | .or => if v.isTruthy then pure v else right.toRun
      | op => do return op.apply v (← right.toRun) := by
  cases op with
  | pipe => rfl
  | and | or =>
    rw [← Traced.toRun_value v]
    exact apply_ite Traced.toRun _ _ _
  | _ => exact Traced.toRun_map _ right

theorem Run.settle_nil : settle [] = pure := rfl

theorem Run.settle_cons (step : Step) (pending : List Step) (v : Value) :
    settle (step :: pending) v = step v >>= settle pending := rfl

namespace Term

open Run

variable (context : Context) (methods : Methods)

mutual

/-- Evaluating a term with pending steps is doing what the term means and then taking the steps. -/
theorem run_eq_bind_settle : ∀ (t : Term) (pending : List Run.Step),
    run context methods t pending = (traced context methods t).toRun >>= settle pending
  | concat parts, pending => by
    rw [run, runParts_eq, traced, Traced.toRun_map, bind_assoc, bind_assoc]
    simp only [pure_bind, String.empty_append]
  | expression none, pending => by
    rw [run, traced, Traced.toRun_value, pure_bind]
  | expression (some t), pending => by
    rw [run, traced, run_eq_bind_settle t pending]
  | number x, pending => by rw [run, traced, Traced.toRun_value, pure_bind]
  | string s, pending => by rw [run, traced, Traced.toRun_value, pure_bind]
  | boolean b, pending => by rw [run, traced, Traced.toRun_value, pure_bind]
  | reference path, pending => by rw [run, traced, Traced.toRun_value, pure_bind]
  | call name arguments, pending => by
    rw [run, runArguments_eq arguments [], traced, Traced.toRun_andThen, Traced.toRun_method,
      bind_assoc]
    apply bind_congr
    intro method
    rw [Traced.toRun_andThen, bind_assoc, bind_assoc]
    apply bind_congr
    intro values
    rw [pure_bind, Traced.toRun_called]
    rfl
  | binary op left right, pending => by
    have ran : run context methods right [] = (traced context methods right).toRun := by
      rw [run_eq_bind_settle right [], settle_nil, bind_pure]
    have piped : ∀ v, runTarget context methods right v =
        (tracedTarget context methods right v).toRun := runTarget_eq right
    rw [run, run_eq_bind_settle left, traced, Traced.toRun_andThen, bind_assoc]
    apply bind_congr
    intro v
    rw [settle_cons, ran, piped]
    exact congrArg (· >>= settle pending) (Operator.toRun_continued op _ _ v).symm

theorem runTarget_eq : ∀ (t : Term) (input : Value),
    runTarget context methods t input = (tracedTarget context methods t input).toRun
  | reference path, input => by
    rw [runTarget, tracedTarget, Traced.toRun_andThen, Traced.toRun_method]
    exact bind_congr fun method => (Traced.toRun_called _ method _).symm
  | call name arguments, input => by
    rw [runTarget, runArguments_eq arguments [input], tracedTarget, Traced.toRun_andThen,
      Traced.toRun_method]
    apply bind_congr
    intro method
    rw [Traced.toRun_andThen, bind_assoc]
    apply bind_congr
    intro values
    rw [pure_bind, Traced.toRun_called]
    rfl
  | concat _, _ | expression _, _ | number _, _ | string _, _ | boolean _, _ | binary .., _ => by
    simp only [runTarget, tracedTarget, Traced.toRun_failed]

theorem runArguments_eq : ∀ (ts : List Term) (done : List Value),
    runArguments context methods ts done =
      (tracedArguments context methods ts).toRun >>= fun values => pure (done.reverse ++ values)
  | [], done => by
    rw [runArguments, tracedArguments, Traced.toRun_value, pure_bind, List.append_nil]
  | t :: ts, done => by
    rw [runArguments, run_eq_bind_settle t [], settle_nil, bind_pure, tracedArguments,
      Traced.toRun_andThen, bind_assoc]
    apply bind_congr
    intro v
    rw [runArguments_eq ts (v :: done), Traced.toRun_map, bind_assoc]
    simp only [pure_bind, List.reverse_cons, List.append_assoc, List.singleton_append]

theorem runParts_eq : ∀ (ts : List Term) (text : String),
    runParts context methods ts text =
      (tracedParts context methods ts).toRun >>= fun more => pure (text ++ more)
  | [], text => by
    rw [runParts, tracedParts, Traced.toRun_value, pure_bind, String.append_empty]
  | t :: ts, text => by
    rw [runParts, run_eq_bind_settle t [], settle_nil, bind_pure, tracedParts,
      Traced.toRun_andThen, bind_assoc]
    apply bind_congr
    intro v
    rw [runParts_eq ts, Traced.toRun_map, bind_assoc]
    simp only [pure_bind, String.append_assoc]

end

/-- Without pending steps a term does what it means. -/
theorem run_nil (t : Term) : run context methods t [] = (traced context methods t).toRun := by
  rw [run_eq_bind_settle, settle_nil, bind_pure]

/-- The result of a term is that of its meaning. -/
theorem evaluate_result (t : Term) :
    (t.evaluate context methods).result = (traced context methods t).result := by
  rw [evaluate, run_nil, Traced.outcome_toRun, Traced.outcome]

/-- Evaluation has the result that the recursion gives and makes the same calls on the same
arguments in the same order, whatever the term is and however it came about. -/
theorem evaluate_eq_traced (t : Term) :
    t.evaluate context methods = (traced context methods t).outcome := by
  rw [evaluate, run_nil, Traced.outcome_toRun]

end Term

end Inlay
