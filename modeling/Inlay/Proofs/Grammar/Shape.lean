import Inlay.Proofs.Grammar.Basic
import Inlay.Proofs.Term.Everywhere

/-!
# The shape of what the grammar forms

A property that every grouped part of a statement has holds everywhere in what the grammar forms,
because the grammar groups each statement, be it that of an expression, of a block or of an
argument. The property may also rest on what a token spells: a reference or a call goes by a name
that a token can spell, the path of a reference is its name cut at the points, and a number is that
of some digits. And it may rest on where a part comes from: what is no operation stands in the
source with tokens of its own. Everything that is said about the shape of accepted terms follows
from this one fact.
-/

namespace Inlay

/-- What goes by a name goes by one that a token can spell. -/
def Term.Named : Term → Prop
  | reference path => ∃ name, IsName name ∧ path = segments name
  | call name _ => IsName name
  | _ => True

/-- What a token spells is as it can spell it: the name that something goes by, and the number of
its digits. -/
def Term.Spelled : Term → Prop
  | number x => ∃ text : String, Word.isNumber text.toList = true ∧ x = Word.numeral text
  | t => t.Named

theorem Term.Spelled.named {t : Term} (spelled : t.Spelled) : t.Named := by
  cases t with
  | number => trivial
  | _ => exact spelled

/-- What is spelled is a number that is equal to itself. -/
theorem Term.Spelled.equals_self {x : Binary64} (spelled : (number x).Spelled) :
    x.equals x = true := by
  obtain ⟨text, number, rfl⟩ := spelled
  exact Binary64.equals_self_iff.mpr (Word.numeral_ne_nan number)

/-- The path of a named reference can be told from its dotted form. -/
theorem Term.Named.segments_dotted {path : List String} (named : (reference path).Named) :
    segments (dotted path) = path := by
  obtain ⟨name, -, rfl⟩ := named
  rw [dotted_segments]

end Inlay

namespace Inlay.Grammar

open Term (Everywhere EverywhereIn)

/-- A part stands in a source with tokens of its own: those that form it as an operand, or one token
of literal text. Operations stand where their operands do, and the whole of a text or of an
expression is not looked at. -/
def Stands (all : List Token) (t : Term) : Prop :=
  t.isBinary = false → t.isWhole = false →
    ∃ own, own <:+: all ∧ (Operand own t ∨ ∃ token, own = [token] ∧ t = .string token.text)

theorem Operand.stands {ts all : List Token} {t : Term} (operand : Operand ts t)
    (within : ts <:+: all) : Stands all t :=
  fun _ _ => ⟨ts, within, .inl operand⟩

theorem stands_of_isWhole {all : List Token} {t : Term} (whole : t.isWhole = true) :
    Stands all t := by
  intro _ part
  rw [whole] at part
  cases part

/-- What stands first in a stretch of a source stands in the source. -/
theorem infix_first {ts us all : List Token} (within : ts ++ us <:+: all) : ts <:+: all :=
  (List.prefix_append ts us).isInfix.trans within

/-- What follows a separator stands in the source. -/
theorem infix_further {before between ts all : List Token} {separator : Token}
    (within : before ++ (between ++ separator :: ts) <:+: all) : ts <:+: all := by
  have parts : before ++ (between ++ separator :: ts) =
      (before ++ (between ++ [separator])) ++ ts := by
    simp
  rw [parts] at within
  exact (List.suffix_append _ ts).isInfix.trans within

/-- What stands between an opening and a closing token stands in the source. -/
theorem infix_inner {before inner after all : List Token} {opening : Token}
    (within : before ++ opening :: (inner ++ after) <:+: all) : inner <:+: all := by
  have parts : before ++ opening :: (inner ++ after) = (before ++ [opening]) ++ inner ++ after := by
    simp
  rw [parts] at within
  exact (List.infix_append (before ++ [opening]) inner after).trans within

variable {P : Term → Prop} {all : List Token}

/-- A property of grouped terms holds everywhere in a grouped term where it does in its operands. -/
theorem everywhere_of_chain
    (forming : ∀ t, t.Grouped → t.Spelled → t.isWhole = false → Stands all t → P t)
    {t : Term} (grouped : t.Grouped) (first : t.chain.first.Everywhere P)
    (rest : ∀ next ∈ t.chain.rest, next.2.Everywhere P) : t.Everywhere P := by
  induction t using Term.chain.induct with
  | case1 op left right ihLeft ihRight =>
    refine ⟨forming _ grouped trivial rfl fun operand => (by cases operand), ?_, ?_⟩
    · apply ihLeft grouped.2.1 first
      intro next mem
      exact rest next (List.mem_append_left _ mem)
    · refine ihRight grouped.2.2 ?_ fun next mem => ?_
      · exact rest (op, right.chain.first) (List.mem_append_right _ List.mem_cons_self)
      · exact rest next (List.mem_append_right _ (List.mem_cons_of_mem _ mem))
  | case2 t operand =>
    rwa [Term.chain_of_not_isBinary (Term.isBinary_of_forall_ne operand)] at first

mutual

theorem everywhere_of_operand
    (forming : ∀ t, t.Grouped → t.Spelled → t.isWhole = false → Stands all t → P t) :
    ∀ {ts : List Token} {t : Term}, Operand ts t → ts <:+: all → t.Everywhere P
  | _, _, .literal blanks value, within => by
    have stands := (Operand.literal blanks value).stands within
    cases value with
    | number isNumber => exact forming _ trivial ⟨_, isNumber, rfl⟩ rfl stands
    | quoted => exact forming _ trivial trivial rfl stands
    | truth => exact forming _ trivial trivial rfl stands
  | _, _, .name blanks isName, within =>
    forming _ trivial ⟨_, isName, rfl⟩ rfl ((Operand.name blanks isName).stands within)
  | _, _, .call blanks isName isOpening arguments blanks' isClosing, within => by
    have stands := (Operand.call blanks isName isOpening arguments blanks' isClosing).stands within
    rw [List.append_cons] at within
    exact ⟨forming _ trivial isName rfl stands,
      everywhere_of_arguments forming arguments (infix_inner within)⟩

theorem everywhere_of_written
    (forming : ∀ t, t.Grouped → t.Spelled → t.isWhole = false → Stands all t → P t) :
    ∀ {ts : List Token} {c : Chain}, Written ts c → ts <:+: all →
      c.first.Everywhere P ∧ ∀ next ∈ c.rest, next.2.Everywhere P
  | _, _, .first operand, within =>
    ⟨everywhere_of_operand forming operand within, fun _ mem => absurd mem List.not_mem_nil⟩
  | _, _, .next before _ _ operand, within => by
    obtain ⟨first, rest⟩ := everywhere_of_written forming before (infix_first within)
    refine ⟨first, ?_⟩
    intro next mem
    rcases List.mem_append.mp mem with earlier | last
    · exact rest next earlier
    · rw [List.mem_singleton.mp last]
      exact everywhere_of_operand forming operand (infix_further within)

/-- A property of grouped and spelled terms holds everywhere in a statement. -/
theorem everywhere_of_statement
    (forming : ∀ t, t.Grouped → t.Spelled → t.isWhole = false → Stands all t → P t) :
    ∀ {ts : List Token} {t : Term}, Statement ts t → ts <:+: all → t.Everywhere P
  | _, _, .mk written grouped, within => by
    obtain ⟨first, rest⟩ := everywhere_of_written forming written within
    exact everywhere_of_chain forming grouped first rest

theorem everywhere_of_arguments
    (forming : ∀ t, t.Grouped → t.Spelled → t.isWhole = false → Stands all t → P t) :
    ∀ {ts : List Token} {arguments : List Term}, Arguments ts arguments → ts <:+: all →
      EverywhereIn P arguments
  | _, _, .none, _ => trivial
  | _, _, .first statement, within => ⟨everywhere_of_statement forming statement within, trivial⟩
  | _, _, .next before _ _ _ statement, within =>
    (Term.everywhereIn_append P _ _).mpr
      ⟨everywhere_of_arguments forming before (infix_first within),
        everywhere_of_statement forming statement (infix_further within), trivial⟩

end

/-- A property of grouped and spelled terms holds everywhere in an expression. -/
theorem everywhere_of_expression (forming : ∀ t, t.Grouped → t.Spelled → Stands all t → P t)
    {ts : List Token} {statement : Option Term} (formed : Expression ts statement)
    (within : ts <:+: all) : (Term.expression statement).Everywhere P := by
  cases formed with
  | empty => exact forming _ trivial trivial (stands_of_isWhole rfl)
  | statement formed =>
    have inner := everywhere_of_statement (fun t grouped spelled _ => forming t grouped spelled)
      formed (infix_first within)
    exact ⟨forming _ trivial trivial (stands_of_isWhole rfl), inner⟩

/-- A property of grouped and spelled terms holds everywhere in the parts of a text. -/
theorem everywhere_of_text (forming : ∀ t, t.Grouped → t.Spelled → Stands all t → P t)
    {ts : List Token} {parts : List Term} (formed : Text ts parts) (within : ts <:+: all) :
    EverywhereIn P parts := by
  induction formed with
  | empty => trivial
  | @literal before t parts _ _ ih =>
    have stands : Stands all (.string t.text) := fun _ _ =>
      ⟨[t], (List.suffix_append _ _).isInfix.trans within, .inr ⟨t, rfl, rfl⟩⟩
    exact (Term.everywhereIn_append P _ _).mpr
      ⟨ih (infix_first within), forming _ trivial trivial stands, trivial⟩
  | block _ _ formed _ ih =>
    exact (Term.everywhereIn_append P _ _).mpr
      ⟨ih (infix_first within), everywhere_of_expression forming formed (infix_inner within),
        trivial⟩

/-- A property of grouped and spelled terms that stand in the source holds everywhere in a whole
source. -/
theorem everywhere_of_standing_source {mode : Parse.Mode} {ts : List Token} {t : Term}
    (forming : ∀ t, t.Grouped → t.Spelled → Stands ts t → P t) (formed : Source mode ts t) :
    t.Everywhere P := by
  cases formed with
  | expression formed => exact everywhere_of_expression forming formed List.infix_rfl
  | concat formed =>
    exact ⟨forming _ trivial trivial (stands_of_isWhole rfl),
      everywhere_of_text forming formed List.infix_rfl⟩

/-- A property of grouped and spelled terms holds everywhere in a whole source. -/
theorem everywhere_of_spelled_source (forming : ∀ t, t.Grouped → t.Spelled → P t)
    {mode : Parse.Mode} {ts : List Token} {t : Term} (formed : Source mode ts t) :
    t.Everywhere P :=
  everywhere_of_standing_source (fun part grouped spelled _ => forming part grouped spelled) formed

/-- A property of grouped terms holds everywhere in a whole source. -/
theorem everywhere_of_source (grouping : ∀ t, t.Grouped → P t) {mode : Parse.Mode}
    {ts : List Token} {t : Term} (formed : Source mode ts t) : t.Everywhere P :=
  everywhere_of_spelled_source (fun part grouped _ => grouping part grouped) formed

/-- Whatever goes by a name in what the grammar forms goes by one that a token can spell. -/
theorem everywhere_named_of_source {mode : Parse.Mode} {ts : List Token} {t : Term}
    (formed : Source mode ts t) : t.Everywhere Term.Named :=
  everywhere_of_spelled_source (fun _ _ spelled => spelled.named) formed

/-- What the grammar forms is equal to itself: no source spells what is not a number. -/
theorem equals_self_of_source {mode : Parse.Mode} {ts : List Token} {t : Term}
    (formed : Source mode ts t) : t.equals t = true :=
  Term.equals_self (fun _ spelled => spelled.equals_self)
    (everywhere_of_spelled_source (fun _ _ spelled => spelled) formed)

end Inlay.Grammar
