import Inlay.Proofs.Grammar.Acceptance
import Mathlib.Data.List.Forall2

/-!
# Text and its blocks

Text is read piece by piece: a literal token by itself, and a block as the expression that its
inside is when it is read alone. So reading text and reading an expression agree about what an
expression is, a piece is read the same whatever stands around it, and text after text is read as
both one after the other.
-/

namespace Inlay.Grammar

open Parse (Mode blockStart blockEnd)

/-- Tokens that are one piece of text: a literal token, or a block whose inside is accepted as an
expression and holds no token that could close it earlier. -/
inductive Piece : List Token → Term → Prop
  | literal {t : Token} : t.text ≠ blockStart → Piece [t] (.string t.text)
  | block {inner : List Token} {opening closing : Token} {body : Term} :
      opening.text = blockStart → (∀ t ∈ inner, t.text ≠ blockEnd) → closing.text = blockEnd →
      parse .expression inner = .ok body → Piece (opening :: (inner ++ [closing])) body

/-- Text after text has the parts of both. -/
theorem Text.append {ts us : List Token} {parts others : List Term} (first : Text ts parts)
    (second : Text us others) : Text (ts ++ us) (parts ++ others) := by
  induction second with
  | empty => rwa [List.append_nil, List.append_nil]
  | literal _ literal ih =>
    rw [← List.append_assoc, ← List.append_assoc]
    exact .literal ih literal
  | block _ isOpening formed isClosing ih =>
    rw [← List.append_assoc, ← List.append_assoc]
    exact .block ih isOpening formed isClosing

/-- A piece is text by itself. -/
theorem Piece.text {ts : List Token} {part : Term} (piece : Piece ts part) : Text ts [part] := by
  cases piece with
  | literal literal => exact .literal .empty literal
  | block isOpening _ isClosing accepted =>
    obtain ⟨statement, rfl, formed⟩ := parse_expression_iff.mp accepted
    exact .block .empty isOpening formed isClosing

/-- Text is pieces one after the other, each with the part that it is. -/
theorem text_iff_pieces {ts : List Token} {parts : List Term} :
    Text ts parts ↔
      ∃ pieces : List (List Token), List.Forall₂ Piece pieces parts ∧ ts = pieces.flatten := by
  constructor
  · intro formed
    induction formed with
    | empty => exact ⟨[], .nil, rfl⟩
    | literal _ literal ih =>
      obtain ⟨pieces, each, rfl⟩ := ih
      refine ⟨pieces ++ [[_]], List.rel_append each (.cons (.literal literal) .nil), ?_⟩
      rw [List.flatten_append, List.flatten_singleton]
    | block _ isOpening formed isClosing ih =>
      obtain ⟨pieces, each, rfl⟩ := ih
      have closed := text_ne_blockEnd_of_expression formed
      have accepted := parse_expression_iff.mpr ⟨_, rfl, formed⟩
      have piece := Piece.block isOpening closed isClosing accepted
      refine ⟨pieces ++ [_], List.rel_append each (.cons piece .nil), ?_⟩
      rw [List.flatten_append, List.flatten_singleton]
  · rintro ⟨pieces, each, rfl⟩
    induction each with
    | nil => exact .empty
    | cons piece _ ih => exact piece.text.append ih

/-- Tokens none of which opens a block are literal. -/
theorem text_of_literals {ts : List Token} (literal : ∀ t ∈ ts, t.text ≠ blockStart) :
    Text ts (ts.map fun t => .string t.text) := by
  induction ts with
  | nil => exact .empty
  | cons t ts ih =>
    have first := (Piece.literal (literal t List.mem_cons_self)).text
    exact first.append (ih fun other mem => literal other (List.mem_cons_of_mem t mem))

end Inlay.Grammar
