import Inlay.Parse.State
import Inlay.Proofs.Term.Climb
import Inlay.Proofs.Term.Word

/-!
# The grammar

Which tokens form what term, said without the state of reading:

* an expression is nothing or a statement;
* a statement is a chain of operands with operators between them, and its term is the grouped one;
* an operand is a literal, a name, or a name with arguments in parentheses;
* arguments are nothing or statements with commas between them;
* text is literal tokens and blocks, a block being an expression between doubled braces.

Blank tokens may stand before every token of an expression and at its end, with one exception: the
parenthesis that opens the arguments of a call follows the name at once. In text nothing is skipped.

Each relation ties tokens to the term that they form, so that a term comes with its derivation.
-/

namespace Inlay.Grammar

open Parse (Mode blockStart blockEnd)

/-- Tokens that are all blank. -/
def Blanks (ts : List Token) : Prop :=
  ∀ t ∈ ts, t.isBlank = true

theorem blanks_nil : Blanks [] := fun _ mem => absurd mem List.not_mem_nil

theorem Blanks.append {ts us : List Token} (first : Blanks ts) (second : Blanks us) :
    Blanks (ts ++ us) := fun t mem => (List.mem_append.mp mem).elim (first t) (second t)

theorem blanks_singleton {t : Token} (blank : t.isBlank = true) : Blanks [t] :=
  fun _ mem => List.mem_singleton.mp mem ▸ blank

mutual

/-- Tokens that form an operand. -/
inductive Operand : List Token → Term → Prop
  | literal {before : List Token} {t : Token} {value : Term} : Blanks before →
      Literal t.text value → Operand (before ++ [t]) value
  | name {before : List Token} {t : Token} : Blanks before → IsName t.text →
      Operand (before ++ [t]) (Term.ofName t.text)
  | call {before inner after : List Token} {name opening closing : Token} {arguments : List Term} :
      Blanks before → IsName name.text → opening.text = "(" → Arguments inner arguments →
      Blanks after → closing.text = ")" →
      Operand (before ++ name :: opening :: (inner ++ (after ++ [closing])))
        (.call name.text arguments)

/-- Tokens that form a chain of operands with operators between them. -/
inductive Written : List Token → Chain → Prop
  | first {ts : List Token} {t : Term} : Operand ts t → Written ts ⟨t, []⟩
  | next {before between ts : List Token} {sign : Token} {c : Chain} {op : Operator} {t : Term} :
      Written before c → Blanks between → sign.text = op.symbol → Operand ts t →
      Written (before ++ (between ++ sign :: ts)) (c.snoc op t)

/-- Tokens that form a statement: the grouped term of their chain. -/
inductive Statement : List Token → Term → Prop
  | mk {ts : List Token} {t : Term} : Written ts t.chain → t.Grouped → Statement ts t

/-- Tokens that form the arguments of a call. -/
inductive Arguments : List Token → List Term → Prop
  | none : Arguments [] []
  | first {ts : List Token} {t : Term} : Statement ts t → Arguments ts [t]
  | next {before between ts : List Token} {comma : Token} {arguments : List Term} {t : Term} :
      Arguments before arguments → arguments ≠ [] → Blanks between → comma.text = "," →
      Statement ts t → Arguments (before ++ (between ++ comma :: ts)) (arguments ++ [t])

end

/-- Tokens that form an expression, which may be empty. -/
inductive Expression : List Token → Option Term → Prop
  | empty {ts : List Token} : Blanks ts → Expression ts none
  | statement {ts after : List Token} {t : Term} : Statement ts t → Blanks after →
      Expression (ts ++ after) (some t)

/-- Tokens that form text, with its parts. -/
inductive Text : List Token → List Term → Prop
  | empty : Text [] []
  | literal {before : List Token} {t : Token} {parts : List Term} : Text before parts →
      t.text ≠ blockStart → Text (before ++ [t]) (parts ++ [.string t.text])
  | block {before inner : List Token} {opening closing : Token} {parts : List Term}
      {statement : Option Term} : Text before parts → opening.text = blockStart →
      Expression inner statement → closing.text = blockEnd →
      Text (before ++ opening :: (inner ++ [closing])) (parts ++ [.expression statement])

/-- Tokens that form a whole source, in one of the two modes. -/
inductive Source : Mode → List Token → Term → Prop
  | expression {ts : List Token} {statement : Option Term} : Expression ts statement →
      Source .expression ts (.expression statement)
  | concat {ts : List Token} {parts : List Term} : Text ts parts → Source .concat ts (.concat parts)

/-! ## What an operand can be -/

/-- An operand is no operation. -/
theorem Operand.isBinary {ts : List Token} {t : Term} (operand : Operand ts t) :
    t.isBinary = false := by
  cases operand with
  | literal _ value => cases value <;> rfl
  | name => rfl
  | call => rfl

/-- Blanks may stand before an operand. -/
theorem Operand.blanks_append {blanks ts : List Token} {t : Term} (blank : Blanks blanks)
    (operand : Operand ts t) : Operand (blanks ++ ts) t := by
  cases operand with
  | literal before value =>
    rw [← List.append_assoc]
    exact .literal (blank.append before) value
  | name before isName =>
    rw [← List.append_assoc]
    exact .name (blank.append before) isName
  | call before isName opening arguments after closing =>
    rw [← List.append_assoc]
    exact .call (blank.append before) isName opening arguments after closing

/-- A word is an operand by itself. -/
theorem operand_of_read? {t : Token} {w : Word} (read : Word.read? t.text = some w) :
    Operand [t] w.term := by
  rcases Word.literal_or_isName_of_read? read with ⟨value, rfl, literal⟩ | ⟨rfl, isName⟩
  · exact .literal blanks_nil literal
  · exact .name blanks_nil isName

/-- The operands of a written chain are no operations. -/
theorem Written.single : ∀ {ts : List Token} {c : Chain}, Written ts c → c.Single
  | _, _, .first operand => ⟨operand.isBinary, fun _ mem => absurd mem List.not_mem_nil⟩
  | _, _, .next before _ _ operand => by
    obtain ⟨first, rest⟩ := before.single
    refine ⟨first, ?_⟩
    intro next mem
    rcases List.mem_append.mp mem with earlier | last
    · exact rest next earlier
    · rw [List.mem_singleton.mp last]
      exact operand.isBinary

/-- The term of a statement is what becomes of its chain when it is taken in from the left. -/
theorem statement_iff {ts : List Token} {t : Term} :
    Statement ts t ↔ ∃ c, Written ts c ∧ t = c.spliced := by
  constructor
  · rintro ⟨written, grouped⟩
    obtain ⟨grown, read⟩ := written.single.spliced
    exact ⟨t.chain, written, grouped.eq_of_chain_eq grown read.symm⟩
  · rintro ⟨c, written, rfl⟩
    obtain ⟨grown, read⟩ := written.single.spliced
    exact .mk (read.symm ▸ written) grown

/-! ## How an expression goes on -/

theorem Statement.expression {ts : List Token} {t : Term} (statement : Statement ts t) :
    Expression ts (some t) := by
  have formed := Expression.statement statement blanks_nil
  rwa [List.append_nil] at formed

namespace Expression

/-- Blanks may stand at the end of an expression. -/
theorem append_blanks {ts blanks : List Token} {statement : Option Term}
    (formed : Expression ts statement) (blank : Blanks blanks) :
    Expression (ts ++ blanks) statement := by
  cases formed with
  | empty before => exact .empty (before.append blank)
  | statement formed before =>
    rw [List.append_assoc]
    exact .statement formed (before.append blank)

theorem blank {ts : List Token} {statement : Option Term} {t : Token}
    (formed : Expression ts statement) (blank : t.isBlank = true) :
    Expression (ts ++ [t]) statement :=
  formed.append_blanks (blanks_singleton blank)

/-- An operand begins an expression that was empty. -/
theorem operand {ts us : List Token} {t : Term} (formed : Expression ts none)
    (operand : Operand us t) : Expression (ts ++ us) (some t) := by
  cases formed with
  | empty blanks =>
    have written := Written.first (operand.blanks_append blanks)
    exact (statement_iff.mpr ⟨_, written, rfl⟩).expression

/-- An operator and an operand after a statement are spliced into it. -/
theorem splice {ts between us : List Token} {sign : Token} {op : Operator} {t operand : Term}
    (formed : Expression ts (some t)) (symbol : sign.text = op.symbol) (blanks : Blanks between)
    (formed' : Operand us operand) :
    Expression (ts ++ sign :: (between ++ us)) (some (t.splice op operand)) := by
  cases formed with
  | statement statement after =>
    obtain ⟨c, written, rfl⟩ := statement_iff.mp statement
    have longer := Written.next written after symbol (formed'.blanks_append blanks)
    rw [List.append_assoc, ← Chain.spliced_snoc]
    exact (statement_iff.mpr ⟨_, longer, rfl⟩).expression

end Expression

end Inlay.Grammar
