import Inlay.Proofs.Grammar.Acceptance
import Mathlib.Data.List.Forall2

/-!
# Argument lists

A call is written as its name, a parenthesis that follows at once, expressions with commas between
them, and a closing parenthesis. `Separated` and `Called` say this of tokens without looking into
the expressions: each of them is tokens that stand for themselves, with the blanks that they begin
and end with. `Called.operand` says that such tokens are read as the call of the terms that its
expressions are read as, each by itself.
-/

namespace Inlay.Grammar

/-- Several lists of tokens with a comma between each two. -/
inductive Separated : List (List Token) → List Token → Prop
  | none : Separated [] []
  | first {ts : List Token} : Separated [ts] ts
  | next {lists : List (List Token)} {ts us : List Token} {comma : Token} : Separated lists ts →
      lists ≠ [] → comma.text = "," → Separated (lists ++ [us]) (ts ++ comma :: us)

/-- A call by its name and the tokens of its arguments. Blanks may stand before the name, and none
behind it. -/
inductive Called (name : String) (lists : List (List Token)) : List Token → Prop
  | mk {before inner : List Token} {sign opening closing : Token} : Blanks before →
      sign.text = name → opening.text = "(" → Separated lists inner → closing.text = ")" →
      Called name lists (before ++ sign :: opening :: (inner ++ [closing]))

/-- Tokens that are accepted as an expression that is not empty. -/
def Accepted (ts : List Token) (statement : Term) : Prop :=
  parse .expression ts = .ok (.expression (some statement))

theorem accepted_iff {ts : List Token} {t : Term} : Accepted ts t ↔ Expression ts (some t) := by
  rw [Accepted, parse_expression_iff]
  constructor
  · intro accepted
    obtain ⟨_, same, formed⟩ := accepted
    cases same
    exact formed
  · intro formed
    exact ⟨some t, rfl, formed⟩

/-- Statements with commas between them are arguments. The blanks at the end of the last one are not
part of it. -/
theorem Separated.arguments {lists : List (List Token)} {ts : List Token} {terms : List Term}
    (separated : Separated lists ts) (each : List.Forall₂ Accepted lists terms) :
    ∃ inner after, ts = inner ++ after ∧ Arguments inner terms ∧ Blanks after := by
  induction separated generalizing terms with
  | none =>
    cases each
    exact ⟨[], [], rfl, .none, blanks_nil⟩
  | first =>
    cases each with
    | cons accepted others =>
      cases others
      cases accepted_iff.mp accepted with
      | statement statement blanks => exact ⟨_, _, rfl, .first statement, blanks⟩
  | @next lists ts us comma _ some isComma ih =>
    have earlier := List.forall₂_take_append terms lists [us] each.flip
    have last := List.forall₂_drop_append terms lists [us] each.flip
    have whole := List.take_append_drop lists.length terms
    generalize terms.drop lists.length = ends at last whole
    cases last with
    | cons accepted others =>
      cases others
      obtain ⟨inner, after, rfl, formed, blanks⟩ := ih earlier.flip
      cases accepted_iff.mp accepted with
      | statement statement blanks' =>
        have filled : terms.take lists.length ≠ [] := by
          intro none
          rw [none] at earlier
          cases earlier
          exact some rfl
        have longer := Arguments.next formed filled blanks isComma statement
        rw [whole] at longer
        exact ⟨_, _, by simp only [List.append_assoc, List.cons_append], longer, blanks'⟩

/-- A call of accepted expressions is an operand. -/
theorem Called.operand {name : String} {lists : List (List Token)} {ts : List Token}
    {terms : List Term} (called : Called name lists ts) (isName : IsName name)
    (each : List.Forall₂ Accepted lists terms) : Operand ts (.call name terms) := by
  cases called with
  | mk blanks same isOpening separated isClosing =>
    subst same
    obtain ⟨inner, after, rfl, formed, blanks'⟩ := separated.arguments each
    rw [List.append_assoc]
    exact .call blanks isName isOpening formed blanks' isClosing

/-- An operand by itself is an expression. -/
theorem Operand.accepted {ts : List Token} {t : Term} (operand : Operand ts t) : Accepted ts t :=
  accepted_iff.mpr (Expression.operand (.empty blanks_nil) operand)

/-- An operator that binds loosest takes the whole of what stands before it as its left operand. -/
theorem Accepted.pipe {ts us : List Token} {t target : Term} {bar : Token}
    (accepted : Accepted ts t) (isBar : bar.text = "|") (operand : Operand us target) :
    Accepted (ts ++ bar :: us) (.binary .pipe t target) := by
  have symbol : bar.text = Operator.pipe.symbol := isBar
  have formed := (accepted_iff.mp accepted).splice symbol blanks_nil operand
  have whole : t.splice .pipe target = .binary .pipe t target := by
    cases t with
    | binary op left right =>
      have tight : ¬ op.precedence < Operator.pipe.precedence := by cases op <;> decide
      rw [Term.splice, if_neg tight]
    | _ => rfl
  rw [whole] at formed
  exact accepted_iff.mpr formed

end Inlay.Grammar
