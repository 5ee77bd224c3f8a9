import Inlay.Term.Splice

/-!
# Chains of operands, and how a term groups one

A statement is written as a chain: operands with operators between them. `Term.chain` reads a term
back as the chain that it was written as, from left to right. Many terms have the same chain. The
one that precedence singles out is `Grouped`: the left operand of an operator binds at least as
tight as the operator, and the right operand binds tighter.

Growing a term by `Term.splice` keeps both: the chain gets one more operator and operand at its
right end, and a grouped term stays grouped. An operand here is any term that is no operation
itself, so that a call counts as one whatever its arguments are.
-/

namespace Inlay

/-- Operands with operators between them, in the order in which they are written. -/
structure Chain where
  first : Term
  rest : List (Operator × Term)

namespace Chain

/-- A chain with one more operator and operand at its right end. -/
def snoc (c : Chain) (op : Operator) (operand : Term) : Chain :=
  ⟨c.first, c.rest ++ [(op, operand)]⟩

/-- Two chains with an operator between them. -/
def join (c : Chain) (op : Operator) (d : Chain) : Chain :=
  ⟨c.first, c.rest ++ (op, d.first) :: d.rest⟩

/-- The term that grows when a chain is taken in from the left, one operator and operand at a
time. -/
def spliced (c : Chain) : Term :=
  c.rest.foldl (fun t next => t.splice next.1 next.2) c.first

theorem spliced_snoc (c : Chain) (op : Operator) (operand : Term) :
    (c.snoc op operand).spliced = c.spliced.splice op operand := by
  rw [spliced, snoc, List.foldl_append]
  rfl

theorem join_snoc (c d : Chain) (op next : Operator) (operand : Term) :
    c.join op (d.snoc next operand) = (c.join op d).snoc next operand := by
  simp only [join, snoc, List.append_assoc, List.cons_append]

end Chain

namespace Term

/-- Whether a term is an operation. -/
def isBinary : Term → Bool
  | binary .. => true
  | _ => false

theorem isBinary_of_forall_ne {t : Term}
    (whole : ∀ op left right, t = binary op left right → False) : t.isBinary = false := by
  cases t with
  | binary op left right => exact absurd rfl (whole op left right)
  | _ => rfl

end Term

/-- Whether what stands between the operators is no operation itself. -/
def Chain.Single (c : Chain) : Prop :=
  c.first.isBinary = false ∧ ∀ next ∈ c.rest, next.2.isBinary = false

namespace Term

/-- The chain that a term is written as: its operators and operands in order. -/
def chain : Term → Chain
  | binary op left right => left.chain.join op right.chain
  | t => ⟨t, []⟩

/-- An operand is a chain by itself. -/
theorem chain_of_not_isBinary {t : Term} (operand : t.isBinary = false) : t.chain = ⟨t, []⟩ := by
  cases t with
  | binary => cases operand
  | _ => rfl

/-- Whether a term binds at least as tight as an operator of some precedence. Operands bind
tightest. -/
def AtLeast (precedence : Nat) : Term → Prop
  | binary op _ _ => precedence ≤ op.precedence
  | _ => True

theorem atLeast_of_not_isBinary {t : Term} (operand : t.isBinary = false) (precedence : Nat) :
    t.AtLeast precedence := by
  cases t with
  | binary => cases operand
  | _ => trivial

theorem atLeast_zero (t : Term) : t.AtLeast 0 := by
  cases t with
  | binary op left right => exact Nat.zero_le _
  | _ => trivial

theorem AtLeast.mono {t : Term} {low high : Nat} (tight : t.AtLeast high) (le : low ≤ high) :
    t.AtLeast low := by
  cases t with
  | binary op left right => exact Nat.le_trans le tight
  | _ => trivial

/-- The rule of precedence at one operation: its left operand binds at least as tight as itself, its
right operand tighter. -/
def Leans : Term → Prop
  | binary op left right => left.AtLeast op.precedence ∧ right.AtLeast (op.precedence + 1)
  | _ => True

/-- Whether all operations of a statement obey the rule of precedence. Arguments of calls are
statements of their own. -/
def Grouped : Term → Prop
  | binary op left right => (binary op left right).Leans ∧ left.Grouped ∧ right.Grouped
  | _ => True

theorem grouped_of_not_isBinary {t : Term} (operand : t.isBinary = false) : t.Grouped := by
  cases t with
  | binary => cases operand
  | _ => trivial

/-! ## Growing at the right end -/

/-- Splicing adds the operator and the operand at the right end of the chain. -/
theorem chain_splice (t : Term) (op : Operator) {operand : Term}
    (single : operand.isBinary = false) :
    (t.splice op operand).chain = t.chain.snoc op operand := by
  fun_induction splice t op operand with
  | case1 existing left right op operand looser ih =>
    rw [chain, ih single, Chain.join_snoc, chain]
  | case2 existing left right op operand tighter =>
    rw [chain, chain_of_not_isBinary single]
    rfl
  | case3 t op operand whole =>
    rw [chain, chain_of_not_isBinary (isBinary_of_forall_ne whole), chain_of_not_isBinary single]
    rfl

/-- A term binds as tight as both the term that stood and the operator that was spliced in. -/
theorem AtLeast.splice {t : Term} {op : Operator} {precedence : Nat}
    (tight : t.AtLeast precedence) (le : precedence ≤ op.precedence) (operand : Term) :
    (t.splice op operand).AtLeast precedence := by
  fun_cases Term.splice t op operand with
  | case1 => exact tight
  | case2 => exact le
  | case3 => exact le

/-- Splicing obeys the rule of precedence wherever the statement did: it stops at the first
operation on the right side that binds at least as tight as the new operator, so that what becomes
the left operand is tight enough and what stands above it is looser. -/
theorem Grouped.splice {t : Term} {op : Operator} {operand : Term} (grouped : t.Grouped)
    (single : operand.isBinary = false) : (t.splice op operand).Grouped := by
  fun_induction Term.splice t op operand with
  | case1 existing left right op operand looser ih =>
    obtain ⟨⟨leftTight, rightTight⟩, leftGrouped, rightGrouped⟩ := grouped
    exact ⟨⟨leftTight, rightTight.splice looser operand⟩, leftGrouped, ih rightGrouped single⟩
  | case2 existing left right op operand tighter =>
    have leftTight : (binary existing left right).AtLeast op.precedence := Nat.le_of_not_lt tighter
    exact ⟨⟨leftTight, atLeast_of_not_isBinary single _⟩, grouped, grouped_of_not_isBinary single⟩
  | case3 t op operand whole =>
    have leftTight : t.AtLeast op.precedence :=
      atLeast_of_not_isBinary (isBinary_of_forall_ne whole) _
    exact ⟨⟨leftTight, atLeast_of_not_isBinary single _⟩, grouped, grouped_of_not_isBinary single⟩

/-- An operand is its own last operand. -/
theorem withRightLeaf_of_not_isBinary {t : Term} (operand : Term) (single : t.isBinary = false) :
    t.withRightLeaf operand = operand := by
  cases t with
  | binary => cases single
  | _ => rfl

/-- Of two operands put in place of the last one the later stays. -/
theorem withRightLeaf_withRightLeaf (t : Term) {first : Term} (operand : Term)
    (single : first.isBinary = false) :
    (t.withRightLeaf first).withRightLeaf operand = t.withRightLeaf operand := by
  fun_induction withRightLeaf t first with
  | case1 op left right first ih => rw [withRightLeaf, ih single, withRightLeaf]
  | case2 t first whole =>
    rw [withRightLeaf_of_not_isBinary operand single,
      withRightLeaf_of_not_isBinary operand (isBinary_of_forall_ne whole)]

/-- The operand that was spliced in last is the one that gives way to another. -/
theorem withRightLeaf_splice (t : Term) (op : Operator) {last : Term} (operand : Term)
    (single : last.isBinary = false) :
    (t.splice op last).withRightLeaf operand = t.splice op operand := by
  have replaced := withRightLeaf_of_not_isBinary operand single
  fun_induction Term.splice t op last with
  | case1 existing left right op last looser ih =>
    rw [withRightLeaf, ih single replaced, Term.splice, if_pos looser]
  | case2 existing left right op last tighter =>
    rw [withRightLeaf, replaced, Term.splice, if_neg tighter]
  | case3 t op last whole =>
    rw [withRightLeaf, replaced, Term.splice.eq_2 t op operand whole]

/-! ## How deep a grouped statement gets on the right -/

/-- The number of operations on the way from a term down its right operands. -/
def rightDepth : Term → Nat
  | binary _ _ right => right.rightDepth + 1
  | _ => 0

end Term

/-- The precedences of the operators, each once, from the loosest. -/
def Operator.levels : List Nat := [1, 3, 4, 8, 9, 11, 12]

/-- Above each operator there is one level less than from it on. -/
theorem Operator.countP_levels (op : Operator) :
    levels.countP (op.precedence + 1 ≤ ·) + 1 = levels.countP (op.precedence ≤ ·) := by
  cases op <;> decide

/-- From a term on each operation to the right takes a level of its own, so that there are no more
than there are levels. -/
theorem Term.rightDepth_le_countP {t : Term} {precedence : Nat} (grouped : t.Grouped)
    (tight : t.AtLeast precedence) : t.rightDepth ≤ Operator.levels.countP (precedence ≤ ·) := by
  induction t using Term.chain.induct generalizing precedence with
  | case1 op left right _ ih =>
    have deeper : right.rightDepth ≤ Operator.levels.countP (op.precedence + 1 ≤ ·) :=
      ih grouped.2.2 grouped.1.2
    have fewer : Operator.levels.countP (op.precedence ≤ ·) ≤
        Operator.levels.countP (precedence ≤ ·) := by
      refine List.countP_mono_left fun level _ above => ?_
      have tight : precedence ≤ op.precedence := tight
      simp only [decide_eq_true_eq] at above ⊢
      exact Nat.le_trans tight above
    have one := op.countP_levels
    show right.rightDepth + 1 ≤ _
    omega
  | case2 t operand =>
    rw [rightDepth.eq_2 t operand]
    exact Nat.zero_le _

namespace Term.Grouped

theorem leans {t : Term} (grouped : t.Grouped) : t.Leans := by
  cases t with
  | binary op left right => exact grouped.1
  | _ => trivial

/-- A grouped term goes down its right operands at most once a level. -/
theorem rightDepth_le {t : Term} (grouped : t.Grouped) : t.rightDepth ≤ 7 :=
  t.rightDepth_le_countP grouped t.atLeast_zero

end Term.Grouped

end Inlay
