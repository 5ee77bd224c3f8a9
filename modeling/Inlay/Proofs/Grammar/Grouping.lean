import Inlay.Proofs.Grammar.Acceptance

/-!
# How accepted terms are grouped

An accepted term obeys the rule of precedence at each of its operations, wherever it stands. Each
statement is therefore the one that precedence climbing finds in the operands and operators as they
are written, and goes down its right operands no further than there are levels of precedence,
however long its source is.
-/

namespace Inlay.Grammar

open Parse (Mode)

/-- A written chain is read as the term that precedence climbing makes of it. -/
theorem parse_of_written {ts : List Token} {c : Chain} (written : Written ts c) :
    parse .expression ts = .ok (.expression (some c.climb)) := by
  have formed : Statement ts c.climb :=
    statement_iff.mpr ⟨c, written, written.single.spliced_eq_climb.symm⟩
  exact parse_expression_iff.mpr ⟨some c.climb, rfl, formed.expression⟩

/-- Everywhere in an accepted term the left operand of an operation binds at least as tight as the
operation and the right operand tighter, while operators and operands stay in the order of their
tokens. So each statement is what precedence climbing makes of it, whatever operators and operands
it is written with, and no more than seven operations follow each other on the right. -/
theorem parse_groups :
    (∀ (mode : Mode) (ts : List Token) (t : Term), parse mode ts = .ok t →
      t.Everywhere Term.Leans ∧
      t.spell.map some = Lexeme.scan (mode == .expression) ts ∧
      t.Everywhere (fun part => part = part.chain.climb) ∧
      t.Everywhere (fun part => part.rightDepth ≤ 7)) ∧
    (∀ c : Chain, c.Single → c.spliced = c.climb) ∧
    ∀ (ts : List Token) (c : Chain), Written ts c →
      parse .expression ts = .ok (.expression (some c.climb)) := by
  refine ⟨?_, ?_, ?_⟩
  · intro mode ts t accepted
    have formed : Source mode ts t := source_of_parse accepted
    have leans : t.Everywhere Term.Leans :=
      everywhere_of_source (fun part grouped => grouped.leans) formed
    have climbed : t.Everywhere fun part => part = part.chain.climb :=
      everywhere_of_source (fun part grouped => (Chain.climb_chain grouped).symm) formed
    have shallow : t.Everywhere fun part => part.rightDepth ≤ 7 :=
      everywhere_of_source (fun part grouped => grouped.rightDepth_le) formed
    exact ⟨leans, (scan_of_source formed).symm, climbed, shallow⟩
  · intro c single
    exact single.spliced_eq_climb
  · intro ts c written
    exact parse_of_written written

/-- A product on the right of a difference, and a sum after both. -/
theorem parse_groups_product_between :
    ∃ t, parse .expression
        (["a", "-", "b", "*", "c", "+", "d"].map fun text => ⟨text, .start⟩) = .ok t ∧
      t = .expression (some (.binary .addition
        (.binary .subtraction (.reference ["a"])
          (.binary .multiplication (.reference ["b"]) (.reference ["c"])))
        (.reference ["d"]))) ∧
      t.Everywhere Term.Leans ∧ t.Everywhere fun part => part = part.chain.climb := by
  have accepted : parse .expression
      (["a", "-", "b", "*", "c", "+", "d"].map fun text => ⟨text, .start⟩) =
      .ok (.expression (some (.binary .addition
        (.binary .subtraction (.reference ["a"])
          (.binary .multiplication (.reference ["b"]) (.reference ["c"])))
        (.reference ["d"])))) := rfl
  obtain ⟨leans, -, climbed, -⟩ := parse_groups.1 _ _ _ accepted
  exact ⟨_, accepted, rfl, leans, climbed⟩

end Inlay.Grammar
