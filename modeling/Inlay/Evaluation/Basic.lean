import Inlay.Evaluation.Outcome
import Inlay.Term.Basic
import Inlay.Value.Arithmetic
import Inlay.Value.Comparison
import Inlay.Value.Path

/-!
# Evaluation

A term is evaluated against a context and methods. A chain of operators leans to the left and may be
as long as its source, so that evaluation does not descend into it: `run` walks down the left
operands and keeps what is still to be done with each result in a list of pending steps, which are
taken one after the other once the first operand has its value.

The right operand of `&&` and `||` is evaluated only where the left one leaves it to decide, and the
result is the deciding operand itself. A method is looked up before any of its own arguments is
evaluated, and in a pipe after the input was. The first failure ends everything.
-/

namespace Inlay

namespace Operator

/-- Whether an ordering is there and satisfies a test. -/
def orders (test : Ordering → Bool) (v w : Value) : Value :=
  .boolean ((v.compare? w).any test)

/-- The value of an operator on the values of both operands. -/
def apply : Operator → Value → Value → Value
  | multiplication, v, w => v.multiply w
  | division, v, w => v.divide w
  | modulo, v, w => v.remainder w
  | addition, v, w => v.add w
  | subtraction, v, w => v.subtract w
  | greaterThan, v, w => orders Ordering.isGT v w
  | greaterThanOrEqual, v, w => orders Ordering.isGE v w
  | lessThan, v, w => orders Ordering.isLT v w
  | lessThanOrEqual, v, w => orders Ordering.isLE v w
  | strictEqual, v, w => .boolean (v.strictEquals w)
  | strictNotEqual, v, w => .boolean (!v.strictEquals w)
  | and, v, w => if v.isTruthy then w else v
  | or, v, w => if v.isTruthy then v else w
  | pipe, _, w => w

end Operator

namespace Run

/-- Something still to be done with a value. -/
abbrev Step := Value → Run Value

/-- Takes pending steps one after the other, the first on the given value. -/
def settle (pending : List Step) (v : Value) : Run Value :=
  pending.foldlM (fun v step => step v) v

end Run

namespace Term

open Run

variable (context : Context) (methods : Methods)

mutual

/-- Evaluates a term and takes the pending steps on its value. -/
def run : Term → List Step → Run Value
  | concat parts, pending => do settle pending (.string (← runParts parts ""))
  | expression none, pending => settle pending .undefined
  | expression (some t), pending => run t pending
  | number x, pending => settle pending (.number x)
  | string s, pending => settle pending (.string s)
  | boolean b, pending => settle pending (.boolean b)
  | reference path, pending => settle pending (context.resolve path)
  | call name arguments, pending => do
    let method ← method methods name
    let arguments ← runArguments arguments []
    settle pending (← Run.call name method arguments)
  | binary op left right, pending =>
    run left ((fun v =>
      match op with
      | .pipe => runTarget right v
      | .and => if v.isTruthy then run right [] else pure v
      | .or => if v.isTruthy then pure v else run right []
      | op => do return op.apply v (← run right [])) :: pending)

/-- Pipes a value into what stands on the right of a pipe: a bare name or a call, which is given
the value as its first argument. -/
def runTarget : Term → Value → Run Value
  | reference path, input => do
    let method ← method methods (dotted path)
    Run.call (dotted path) method [input]
  | call name arguments, input => do
    let method ← method methods name
    let arguments ← runArguments arguments [input]
    Run.call name method arguments
  | t, _ => throw (.invalidPipeTarget t.kind)

/-- Evaluates arguments from the left, after those evaluated before, newest first. -/
def runArguments : List Term → List Value → Run (List Value)
  | [], done => pure done.reverse
  | t :: ts, done => do runArguments ts ((← run t []) :: done)

/-- Evaluates the parts of a text and puts what stands for them after the text so far. -/
def runParts : List Term → String → Run String
  | [], text => pure text
  | t :: ts, text => do runParts ts (text ++ (← run t []).splicedText)

end

/-- The outcome of evaluating a term against a context and methods. -/
def evaluate (t : Term) (context : Context) (methods : Methods) : Outcome EvalError :=
  (run context methods t []).outcome

end Term

end Inlay
