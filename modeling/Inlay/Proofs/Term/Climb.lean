import Inlay.Proofs.Term.Chain

/-!
# Precedence climbing

The usual way to read a chain of operands by precedence, with all operators associating to the left.
`climbFrom` is given what stands to the left and a limit, and takes operators in as long as they
bind at least as tight as the limit: the right operand of each is read by the same rule with a limit
just above the operator, and the operation that results is what stands to the left of the next.

Climbing takes a chain as a whole, while `Term.splice` grows a term by one operator and operand at a
time. Both arrive at the one grouped term that has the chain: `climb_chain` says that climbing finds
every grouped term in its chain, and `spliced_eq_climb` that splicing finds what climbing does.
-/

namespace Inlay

namespace Chain

/-- Precedence climbing, with the fact that it never gives back more than it was given. -/
def climbBounded (limit : Nat) (left : Term) :
    (rest : List (Operator × Term)) →
      Term × { after : List (Operator × Term) // after.length ≤ rest.length }
  | [] => (left, ⟨[], Nat.le_refl _⟩)
  | (op, operand) :: rest =>
    if limit ≤ op.precedence then
      let (right, ⟨between, shorter⟩) := climbBounded (op.precedence + 1) operand rest
      let (whole, ⟨after, shortest⟩) := climbBounded limit (.binary op left right) between
      (whole, ⟨after, Nat.le_trans shortest (Nat.le_succ_of_le shorter)⟩)
    else (left, ⟨(op, operand) :: rest, Nat.le_refl _⟩)
termination_by rest => rest.length
decreasing_by
  · exact Nat.lt_succ_self _
  · exact Nat.lt_succ_of_le shorter

/-- Reads on from what stands to the left as long as operators bind at least as tight as a limit,
and gives back what is left of the chain. -/
def climbFrom (limit : Nat) (left : Term) (rest : List (Operator × Term)) :
    Term × List (Operator × Term) :=
  let (whole, after) := climbBounded limit left rest
  (whole, after.val)

/-- The term that a chain means: precedence climbing without a limit. -/
def climb (c : Chain) : Term :=
  (climbFrom 0 c.first c.rest).1

theorem climbFrom_nil (limit : Nat) (left : Term) : climbFrom limit left [] = (left, []) := by
  simp only [climbFrom, climbBounded]

/-- An operator that is tight enough is taken in with the right operand that belongs to it. -/
theorem climbFrom_cons_of_le {limit : Nat} {op : Operator} (le : limit ≤ op.precedence)
    (left operand : Term) (rest : List (Operator × Term)) :
    climbFrom limit left ((op, operand) :: rest) =
      climbFrom limit (.binary op left (climbFrom (op.precedence + 1) operand rest).1)
        (climbFrom (op.precedence + 1) operand rest).2 := by
  simp only [climbFrom, climbBounded, if_pos le]

/-- Climbing stops before an operator that is too loose. -/
theorem climbFrom_of_lt {limit : Nat} {rest : List (Operator × Term)}
    (loose : ∀ next ∈ rest.head?, next.1.precedence < limit) (left : Term) :
    climbFrom limit left rest = (left, rest) := by
  cases rest with
  | nil => exact climbFrom_nil limit left
  | cons next rest =>
    obtain ⟨op, operand⟩ := next
    have below : ¬ limit ≤ op.precedence := Nat.not_le.mpr (loose (op, operand) rfl)
    simp only [climbFrom, climbBounded, if_neg below]

/-- Climbing through the chain of a grouped term arrives at the term, where what follows the chain
binds no tighter than the term does. By induction on the term: the left operand is arrived at under
the same limit, and the right operand under the limit of the operator, which what follows does not
reach. -/
theorem climbFrom_chain {t : Term} (grouped : t.Grouped) {limit : Nat} (tight : t.AtLeast limit)
    {after : List (Operator × Term)} (follows : ∀ next ∈ after.head?, t.AtLeast next.1.precedence) :
    climbFrom limit t.chain.first (t.chain.rest ++ after) = climbFrom limit t after := by
  induction t using Term.chain.induct generalizing limit after with
  | case1 op left right ihLeft ihRight =>
    obtain ⟨⟨leftTight, rightTight⟩, leftGrouped, rightGrouped⟩ := grouped
    have tight : limit ≤ op.precedence := tight
    have follows : ∀ next ∈ after.head?, next.1.precedence ≤ op.precedence := follows
    have rightRead : climbFrom (op.precedence + 1) right.chain.first (right.chain.rest ++ after) =
        (right, after) := by
      rw [ihRight rightGrouped rightTight fun next mem =>
        rightTight.mono (Nat.le_succ_of_le (follows next mem))]
      exact climbFrom_of_lt (fun next mem => Nat.lt_succ_of_le (follows next mem)) right
    let later := (op, right.chain.first) :: (right.chain.rest ++ after)
    have leftRead : climbFrom limit left.chain.first (left.chain.rest ++ later) =
        climbFrom limit left later :=
      ihLeft leftGrouped (leftTight.mono tight) fun next mem => by
        cases mem
        exact leftTight
    have split : (Term.binary op left right).chain.rest ++ after =
        left.chain.rest ++ later := by
      simp only [later, Term.chain, join, List.append_assoc, List.cons_append]
    calc climbFrom limit left.chain.first ((Term.binary op left right).chain.rest ++ after)
        = climbFrom limit left later := by rw [split, leftRead]
      _ = climbFrom limit (.binary op left right) after := by
          rw [climbFrom_cons_of_le tight, rightRead]
  | case2 t operand =>
    rw [Term.chain_of_not_isBinary (Term.isBinary_of_forall_ne operand), List.nil_append]

/-- Climbing finds every grouped term in its chain. -/
theorem climb_chain {t : Term} (grouped : t.Grouped) : t.chain.climb = t := by
  have read : climbFrom 0 t.chain.first (t.chain.rest ++ []) = climbFrom 0 t [] :=
    climbFrom_chain grouped t.atLeast_zero fun next mem => by cases mem
  rw [List.append_nil, climbFrom_nil] at read
  rw [climb, read]

end Chain

namespace Term

/-- A chain has no more than one grouped term. -/
theorem Grouped.eq_of_chain_eq {t u : Term} (grouped : t.Grouped) (grouped' : u.Grouped)
    (same : t.chain = u.chain) : t = u := by
  rw [← Chain.climb_chain grouped, same, Chain.climb_chain grouped']

/-- Splicing operators and operands into a grouped term one after the other leaves it grouped and
appends them to its chain. -/
theorem Grouped.foldl_splice {t : Term} (grouped : t.Grouped) {rest : List (Operator × Term)}
    (single : ∀ next ∈ rest, next.2.isBinary = false) :
    (rest.foldl (fun u next => u.splice next.1 next.2) t).Grouped ∧
      (rest.foldl (fun u next => u.splice next.1 next.2) t).chain =
        ⟨t.chain.first, t.chain.rest ++ rest⟩ := by
  induction rest generalizing t with
  | nil =>
    rw [List.append_nil]
    exact ⟨grouped, rfl⟩
  | cons next rest ih =>
    have operand := single next List.mem_cons_self
    obtain ⟨grown, read⟩ := ih (grouped.splice operand) fun other mem =>
      single other (List.mem_cons_of_mem next mem)
    refine ⟨grown, read.trans ?_⟩
    rw [chain_splice t next.1 operand, Chain.snoc, List.append_assoc, List.singleton_append]

end Term

namespace Chain

/-- Taking a chain in from the left makes a grouped term that has the chain. -/
theorem Single.spliced {c : Chain} (single : c.Single) :
    c.spliced.Grouped ∧ c.spliced.chain = c := by
  obtain ⟨grown, read⟩ := (Term.grouped_of_not_isBinary single.1).foldl_splice single.2
  rw [Term.chain_of_not_isBinary single.1, List.nil_append] at read
  exact ⟨grown, read⟩

/-- Taking a chain in from the left and precedence climbing make the same term of it. -/
theorem Single.spliced_eq_climb {c : Chain} (single : c.Single) : c.spliced = c.climb := by
  obtain ⟨grown, read⟩ := single.spliced
  rw [← climb_chain grown, read]

end Chain

end Inlay
