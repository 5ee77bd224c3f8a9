import Inlay.Proofs.Grammar.Completeness
import Inlay.Proofs.Grammar.Shape
import Inlay.Proofs.Grammar.Soundness
import Inlay.Proofs.Grammar.Spelling

/-!
# What reading accepts

Reading accepts exactly what the grammar forms, and yields the term that the grammar forms of it. So
all that holds of the grammar holds of reading: an accepted term is spelled as its tokens, has the
whole of a text or of an expression nowhere but at its root and in its blocks, and is grouped by
precedence wherever it has operations.
-/

namespace Inlay.Grammar

open Parse (Mode)

/-- Reading and the grammar agree. -/
theorem parse_iff_source {mode : Mode} {ts : List Token} {t : Term} :
    parse mode ts = .ok t ↔ Source mode ts t :=
  ⟨source_of_parse, parse_of_source⟩

/-- Reading as one expression accepts the tokens of expressions. -/
theorem parse_expression_iff {ts : List Token} {t : Term} :
    parse .expression ts = .ok t ↔
      ∃ statement, t = .expression statement ∧ Expression ts statement := by
  rw [parse_iff_source]
  constructor
  · intro accepted
    cases accepted with
    | expression formed => exact ⟨_, rfl, formed⟩
  · rintro ⟨statement, rfl, formed⟩
    exact .expression formed

/-- Reading as text accepts the tokens of text. -/
theorem parse_concat_iff {ts : List Token} {t : Term} :
    parse .concat ts = .ok t ↔ ∃ parts, t = .concat parts ∧ Text ts parts := by
  rw [parse_iff_source]
  constructor
  · intro accepted
    cases accepted with
    | concat formed => exact ⟨_, rfl, formed⟩
  · rintro ⟨parts, rfl, formed⟩
    exact .concat formed

/-- What is not accepted is refused with a fault. -/
theorem parse_eq_error_iff {mode : Mode} {ts : List Token} :
    (∃ fault, parse mode ts = .error fault) ↔ ∀ t, parse mode ts ≠ .ok t := by
  cases parse mode ts with
  | error fault => exact ⟨fun _ t same => (by cases same), fun _ => ⟨fault, rfl⟩⟩
  | ok t =>
    constructor
    · rintro ⟨fault, same⟩
      cases same
    · exact fun never => absurd rfl (never t)

/-- No part of a statement is the whole of a text or of an expression. -/
theorem everywhere_isWhole_of_expression {ts : List Token} {statement : Option Term}
    (formed : Expression ts statement) :
    ∀ t ∈ statement, t.Everywhere fun part => part.isWhole = false := by
  cases formed with
  | empty => exact fun t mem => (by cases mem)
  | statement formed =>
    rintro t ⟨⟩
    exact everywhere_of_statement (fun _ _ _ inner _ => inner) formed List.infix_rfl

/-- As one expression exactly those tokens are accepted that the grammar forms an expression of, and
all others are refused. The term is that of the derivation: it is spelled as the tokens are, so that
nothing is lost, doubled or left open, and no part of its statement is a whole expression again. -/
theorem parse_expression_accepts (ts : List Token) :
    (∀ t, parse .expression ts = .ok t ↔
      ∃ statement, t = .expression statement ∧ Expression ts statement) ∧
    ((∃ fault, parse .expression ts = .error fault) ↔ ¬ ∃ statement, Expression ts statement) ∧
    ∀ statement, Expression ts statement →
      (Term.expression statement).spell.map some = Lexeme.scan true ts ∧
      ∀ t ∈ statement, t.Everywhere fun part => part.isWhole = false := by
  refine ⟨?_, ?_, ?_⟩
  · intro t
    exact parse_expression_iff
  · rw [parse_eq_error_iff]
    constructor
    · rintro refused ⟨statement, formed⟩
      exact refused _ (parse_expression_iff.mpr ⟨statement, rfl, formed⟩)
    · rintro never t accepted
      obtain ⟨statement, -, formed⟩ := parse_expression_iff.mp accepted
      exact never ⟨statement, formed⟩
  · intro statement formed
    have spelled := scan_of_source (.expression formed)
    exact ⟨spelled.symm, everywhere_isWhole_of_expression formed⟩

/-- A call on the right of an operator. -/
theorem parse_expression_accepts_call :
    ∃ statement, Expression
        [⟨"a", .start⟩, ⟨"+", .start⟩, ⟨"f", .start⟩, ⟨"(", .start⟩, ⟨"b", .start⟩, ⟨")", .start⟩]
        (some statement) ∧
      statement = .binary .addition (.reference ["a"]) (.call "f" [.reference ["b"]]) ∧
      statement.Everywhere fun part => part.isWhole = false := by
  obtain ⟨_, same, formed⟩ := ((parse_expression_accepts _).1 _).mp
    (rfl : parse .expression [⟨"a", .start⟩, ⟨"+", .start⟩, ⟨"f", .start⟩, ⟨"(", .start⟩,
      ⟨"b", .start⟩, ⟨")", .start⟩] = .ok (.expression (some
        (.binary .addition (.reference ["a"]) (.call "f" [.reference ["b"]])))))
  cases same
  exact ⟨_, formed, rfl, ((parse_expression_accepts _).2.2 _ formed).2 _ rfl⟩

end Inlay.Grammar
