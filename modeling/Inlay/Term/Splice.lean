import Inlay.Term.Basic

/-!
# Growing a term at its right end

A statement is read from the left, one operator and operand at a time. Each time the statement that
stands already takes the new operator in: `splice` goes down its right side past every operator
that binds looser than the new one, and what it arrives at becomes the left operand. Operators of
the same precedence stop it, so that a chain of them leans to the left.

The last operand that was read is the last term of the right side, `rightLeaf`.
-/

namespace Inlay.Term

/-- A statement followed by an operator and its right operand. -/
def splice : Term → Operator → Term → Term
  | binary op left right, operator, operand =>
    if op.precedence < operator.precedence then binary op left (right.splice operator operand)
    else binary operator (binary op left right) operand
  | t, operator, operand => binary operator t operand

/-- The last operand of a statement. -/
def rightLeaf : Term → Term
  | binary _ _ right => right.rightLeaf
  | t => t

/-- A statement with another last operand. -/
def withRightLeaf : Term → Term → Term
  | binary op left right, operand => binary op left (right.withRightLeaf operand)
  | _, operand => operand

/-- The last operand that was put in is the last operand, where it is no operation itself. -/
theorem rightLeaf_withRightLeaf (t operand : Term) :
    (t.withRightLeaf operand).rightLeaf = operand.rightLeaf := by
  fun_induction withRightLeaf t operand with
  | case1 op left right operand ih => simpa [rightLeaf] using ih
  | case2 => rfl

/-- The operand after an operator is the last one. -/
theorem rightLeaf_splice (t : Term) (operator : Operator) (operand : Term) :
    (t.splice operator operand).rightLeaf = operand.rightLeaf := by
  fun_induction splice t operator operand with
  | case1 op left right operator operand looser ih => simpa [rightLeaf] using ih
  | case2 => rfl
  | case3 => rfl

end Inlay.Term
