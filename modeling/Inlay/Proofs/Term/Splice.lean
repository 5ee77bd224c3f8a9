import Inlay.Proofs.Term.Chain

/-!
# Splicing in place

Splicing can be done in a statement as it stands. The part that becomes the left operand is taken
out, something else keeps its place, and the operation is put there in the end. What kept the place
is gone then, because the way down to it is the way down to the part itself.
-/

namespace Inlay.Term

/-- The part of a statement that becomes the left operand of a further operator. -/
def splicePoint : Term → Operator → Term
  | binary op left right, operator =>
    if op.precedence < operator.precedence then right.splicePoint operator
    else binary op left right
  | t, _ => t

/-- A statement with something else in the place of that part. -/
def withSplicePoint : Term → Operator → Term → Term
  | binary op left right, operator, part =>
    if op.precedence < operator.precedence then
      binary op left (right.withSplicePoint operator part)
    else part
  | _, _, part => part

/-- An operand is wholly the part that a further operator takes. -/
theorem withSplicePoint_of_not_isBinary {t : Term} (single : t.isBinary = false)
    (operator : Operator) (part : Term) : t.withSplicePoint operator part = part := by
  cases t with
  | binary => cases single
  | _ => rfl

/-- Splicing puts an operation in the place of what becomes its left operand. -/
theorem splice_eq_withSplicePoint (t : Term) (operator : Operator) (operand : Term) :
    t.splice operator operand =
      t.withSplicePoint operator (.binary operator (t.splicePoint operator) operand) := by
  fun_induction splice t operator operand with
  | case1 op left right operator operand looser ih =>
    rw [withSplicePoint, if_pos looser, splicePoint, if_pos looser, ih]
  | case2 op left right operator operand tighter =>
    rw [withSplicePoint, if_neg tighter, splicePoint, if_neg tighter]
  | case3 t operator operand whole =>
    rw [withSplicePoint.eq_2 t operator _ whole, splicePoint.eq_2 t operator whole]

/-- Of two parts put in place of that part the later stays. -/
theorem withSplicePoint_withSplicePoint (t : Term) (operator : Operator) {keeper : Term}
    (single : keeper.isBinary = false) (part : Term) :
    (t.withSplicePoint operator keeper).withSplicePoint operator part =
      t.withSplicePoint operator part := by
  fun_induction withSplicePoint t operator keeper with
  | case1 op left right operator keeper looser ih =>
    rw [withSplicePoint, if_pos looser, ih single, withSplicePoint, if_pos looser]
  | case2 op left right operator keeper tighter =>
    rw [withSplicePoint_of_not_isBinary single, withSplicePoint, if_neg tighter]
  | case3 t operator keeper whole =>
    rw [withSplicePoint_of_not_isBinary single, withSplicePoint.eq_2 t operator part whole]

/-- Whatever kept the place while the operation was built, splicing ends with the operation there. -/
theorem splice_in_place (t : Term) (operator : Operator) {keeper : Term}
    (single : keeper.isBinary = false) (operand : Term) :
    (t.withSplicePoint operator keeper).withSplicePoint operator
      (.binary operator (t.splicePoint operator) operand) = t.splice operator operand := by
  rw [withSplicePoint_withSplicePoint t operator single, ← splice_eq_withSplicePoint]

end Inlay.Term
