import Inlay.Proofs.Evaluation.Literal
import Inlay.Proofs.Evaluation.Piping
import Inlay.Proofs.Number.Closest
import Inlay.Proofs.Parse.Viable

/-!
# Number literals

The texts that are classified as numbers are digits with perhaps a point and more digits after them
and perhaps a minus in front (`NumberLiteral.isNumber_iff`). Without the minus such a text is one
token wherever a delimiter or the end follows it, and stands for the number nearest to its decimal:
by itself, behind an operator and as an argument. With the minus it never is one token, since a
minus is a delimiter everywhere, and in all these places the minus is refused as an operator.
`NumberLiteral.evaluates` says both.
-/

namespace Inlay

open Decimal (isDigits digitsValue)
open Delimiter Grammar
open Parse (StopsAt Reaches)

/-! ## Texts of numbers -/

/-- A number literal: digits, perhaps a point and more digits behind it, perhaps a minus in
front. -/
structure NumberLiteral where
  negative : Bool
  whole : List Char
  fraction : Option (List Char)
  wholeDigits : isDigits whole = true
  fractionDigits : ∀ digits ∈ fraction, isDigits digits = true

namespace NumberLiteral

/-- The characters behind the minus. -/
def unsigned (n : NumberLiteral) : List Char :=
  n.whole ++ n.fraction.elim [] ('.' :: ·)

/-- The characters of a literal. -/
def chars (n : NumberLiteral) : List Char :=
  if n.negative then '-' :: n.unsigned else n.unsigned

/-- The text of a literal. -/
def text (n : NumberLiteral) : String :=
  String.ofList n.chars

/-- The decimal that a literal stands for. -/
def decimal (n : NumberLiteral) : Decimal :=
  ⟨n.negative, digitsValue (n.whole ++ n.fraction.getD []), -((n.fraction.getD []).length : Int)⟩

theorem written (n : NumberLiteral) : n.decimal.Written n.chars := by
  obtain ⟨negative, whole, fraction, wholeDigits, fractionDigits⟩ := n
  obtain ⟨some, digits⟩ := Decimal.isDigits_iff.mp wholeDigits
  have pointed : Decimal.Fraction (fraction.getD []) (fraction.elim [] ('.' :: ·)) := by
    cases fraction with
    | none => exact .none
    | some behind => exact .point (Decimal.isDigits_iff.mp (fractionDigits behind rfl)).2
  have filled : whole ++ fraction.getD [] ≠ [] := List.append_ne_nil_of_left_ne_nil some _
  cases negative with
  | false =>
    have written := Decimal.Written.parts .none digits pointed filled .none
    rw [Int.zero_sub, List.append_nil] at written
    exact written
  | true =>
    have written := Decimal.Written.parts .minus digits pointed filled .none
    rw [Int.zero_sub, List.append_nil] at written
    exact written

/-- The characters behind the minus are digits and perhaps a point. -/
theorem mem_unsigned (n : NumberLiteral) {c : Char} (mem : c ∈ n.unsigned) :
    c.isDigit = true ∨ c = '.' := by
  rcases List.mem_append.mp mem with whole | behind
  · exact .inl ((Decimal.isDigits_iff.mp n.wholeDigits).2 c whole)
  · cases same : n.fraction with
    | none =>
      rw [same] at behind
      cases behind
    | some digits =>
      rw [same] at behind
      rcases List.mem_cons.mp behind with point | digit
      · exact .inr point
      · exact .inl ((Decimal.isDigits_iff.mp (n.fractionDigits digits same)).2 c digit)

theorem head?_unsigned (n : NumberLiteral) (rest : List Char) :
    ∃ c, (n.unsigned ++ rest).head? = some c ∧ c.isDigit = true := by
  obtain ⟨some, digits⟩ := Decimal.isDigits_iff.mp n.wholeDigits
  obtain ⟨c, others, same⟩ := List.exists_cons_of_ne_nil some
  refine ⟨c, ?_, digits c (same ▸ List.mem_cons_self)⟩
  rw [unsigned, same]
  rfl

/-- Literals are classified as numbers. -/
theorem isNumber_chars (n : NumberLiteral) : Word.isNumber n.chars = true := by
  have behindMinus : (if n.chars.head? = some '-' then n.chars.drop 1 else n.chars) =
      n.unsigned := by
    rw [chars]
    split
    · rfl
    · obtain ⟨c, head, digit⟩ := n.head?_unsigned []
      rw [List.append_nil] at head
      rw [head, if_neg]
      rintro ⟨⟩
      cases digit
  have digits := (Decimal.isDigits_iff.mp n.wholeDigits).2
  have goes : ∀ c ∈ n.whole, (c != '.') = true := by
    intro c mem
    rw [bne_iff_ne]
    rintro rfl
    cases digits _ mem
  simp only [Word.isNumber, behindMinus, unsigned, List.dropWhile_append_of_pos goes,
    List.takeWhile_append_of_pos goes]
  cases same : n.fraction with
  | none => simpa using n.wholeDigits
  | some behind => simpa [n.wholeDigits] using n.fractionDigits behind same

/-- The texts that are classified as numbers are those of literals. -/
theorem isNumber_iff {cs : List Char} :
    Word.isNumber cs = true ↔ ∃ n : NumberLiteral, n.chars = cs := by
  constructor
  · intro number
    obtain ⟨sign, whole, behind, rfl, minus, digits, point⟩ := Word.exists_digits_of_isNumber number
    obtain ⟨fraction, rfl, more⟩ : ∃ fraction : Option (List Char),
        fraction.elim [] ('.' :: ·) = behind ∧ ∀ digits ∈ fraction, isDigits digits = true := by
      rcases point with rfl | ⟨behind, rfl, more⟩
      · exact ⟨none, rfl, nofun⟩
      · exact ⟨some behind, rfl, by rintro _ ⟨⟩; exact more⟩
    rcases minus with rfl | rfl
    · exact ⟨⟨false, whole, fraction, digits, more⟩, rfl⟩
    · exact ⟨⟨true, whole, fraction, digits, more⟩, rfl⟩
  · rintro ⟨n, rfl⟩
    exact n.isNumber_chars

/-- As a token a literal stands for the number nearest to its decimal. -/
theorem literal (n : NumberLiteral) : Literal n.text (.number n.decimal.nearest) := by
  have value : Word.numeral n.text = n.decimal.nearest := by
    rw [Word.numeral, text, String.toList_ofList, Decimal.read?_eq_some_iff.mpr n.written]
    rfl
  rw [← value]
  refine .number ?_
  rw [text, String.toList_ofList]
  exact n.isNumber_chars

/-! ## Literals in a source -/

/-- The pieces of a literal: a minus is one of its own. -/
def cuts (n : NumberLiteral) : List Cut :=
  if n.negative then [.delimiter .single ['-'], .plain n.unsigned] else [.plain n.unsigned]

/-- A literal has its own pieces before a delimiter and at the end. -/
theorem split_cuts (n : NumberLiteral) {after : List Char} {later : List Cut}
    (split : LeftmostSplit after later) (ends : after = [] ∨ Delimited after) :
    LeftmostSplit (n.chars ++ after) (n.cuts ++ later) := by
  have filled : n.unsigned ≠ [] :=
    List.append_ne_nil_of_left_ne_nil (Decimal.isDigits_iff.mp n.wholeDigits).1 _
  have inside : ∀ c ∈ n.unsigned, Word.inName c = true := by
    intro c mem
    rcases n.mem_unsigned mem with digit | rfl
    · simp [Word.inName, Char.isAlphanum, digit]
    · decide
  have digits : LeftmostSplit (n.unsigned ++ after) (.plain n.unsigned :: later) :=
    LeftmostSplit.cons_iff.mpr ⟨after, rfl,
      .of_unopened filled (fun c mem => Word.opens_of_inName (inside c mem)) ends, split⟩
  rw [chars, cuts]
  split
  · exact LeftmostSplit.cons_iff.mpr ⟨_, rfl, .single (by decide), digits⟩
  · exact digits

/-- A literal begins with no blank. -/
theorem visible_chars (n : NumberLiteral) (after : List Char) :
    ∀ c ∈ (n.chars ++ after).head?, Text.isBlank c = false := by
  rw [chars]
  split
  · rintro c ⟨⟩
    decide
  · obtain ⟨d, head, digit⟩ := n.head?_unsigned after
    intro c first
    rw [head] at first
    cases first
    have range := Char.isDigit_iff_toNat.mp digit
    exact Text.isBlank_of_visible (Nat.le_trans (by decide) range.1)
      (Nat.le_trans range.2 (by decide))

end NumberLiteral

/-! ## What stands before a literal -/

/-- The symbol of an operator is one piece before a blank. -/
theorem Operator.exists_cut (op : Operator) (rest : List Char) :
    ∃ cut : Cut, cut.text = op.symbol.toList ∧ cut.Stands (' ' :: rest) := by
  have ends : Delimited (' ' :: rest) := delimited_of_blank (by decide) rest
  have comparison (op : Operator) (filled : op.symbol.toList ≠ [])
      (unopened : ∀ kind : Delimiter, op.symbol.toList.all (!kind.opens ·) = true) :
      ∃ cut : Cut, cut.text = op.symbol.toList ∧ cut.Stands (' ' :: rest) := by
    refine ⟨.plain op.symbol.toList, rfl, .of_unopened filled ?_ (.inr ends)⟩
    intro c mem kind
    simpa using List.all_eq_true.mp (unopened kind) c mem
  cases op with
  | multiplication => exact ⟨.delimiter .single ['*'], rfl, .single (by decide)⟩
  | division => exact ⟨.delimiter .single ['/'], rfl, .single (by decide)⟩
  | modulo => exact ⟨.delimiter .single ['%'], rfl, .single (by decide)⟩
  | addition => exact ⟨.delimiter .single ['+'], rfl, .single (by decide)⟩
  | subtraction => exact ⟨.delimiter .single ['-'], rfl, .single (by decide)⟩
  | and => exact ⟨.delimiter .doubled "&&".toList, rfl, .doubled (by decide)⟩
  | or => exact ⟨.delimiter .doubled "||".toList, rfl, .doubled (by decide)⟩
  | pipe =>
    -- A bar begins a delimiter only where it is doubled.
    have alone : ¬Delimited ('|' :: ' ' :: rest) := by
      intro begins
      rcases delimited_cons_iff.mp begins with ⟨-, again⟩ | single | ⟨quote, -⟩ | blank
      · exact absurd again (by simp)
      · exact absurd single (by decide)
      · exact absurd quote (by decide)
      · exact absurd blank (by decide)
    exact ⟨.plain ['|'], rfl, .singleton alone (.inr ends)⟩
  | greaterThan | greaterThanOrEqual | lessThan | lessThanOrEqual | strictEqual | strictNotEqual =>
    exact comparison _ (by decide) fun kind => by cases kind <;> decide

/-- The pieces of an operand behind a name and an operator between blanks. -/
def operationCuts (name : String) (sign : Cut) (operand : List Cut) : List Cut :=
  .plain name.toList :: .delimiter .blanks [' '] :: sign :: .delimiter .blanks [' '] :: operand

/-- The pieces of an argument between parentheses behind a name. -/
def callCuts (name : String) (argument : List Cut) : List Cut :=
  .plain name.toList :: .delimiter .single ['('] :: (argument ++ [.delimiter .single [')']])

/-- The tokens before a right operand: a name and an operator between blanks. -/
def tokensBehind (name : String) (op : Operator) : List Token :=
  [⟨name, .start⟩, ⟨" ", .start⟩, ⟨op.symbol, .start⟩, ⟨" ", .start⟩]

/-- The tokens before an argument: a name and a parenthesis. -/
def tokensCalled (name : String) : List Token :=
  [⟨name, .start⟩, ⟨"(", .start⟩]

theorem map_token_operationCuts (name : String) {op : Operator} {sign : Cut}
    (symbol : sign.text = op.symbol.toList) (operand : List Cut) :
    (operationCuts name sign operand).map Cut.token =
      tokensBehind name op ++ operand.map Cut.token := by
  have token : sign.token = ⟨op.symbol, .start⟩ := by
    rw [Cut.token, symbol, String.ofList_toList]
  simp only [operationCuts, List.map_cons, token]
  simp [tokensBehind, Cut.token, Cut.text]

theorem map_token_callCuts (name : String) (argument : List Cut) :
    (callCuts name argument).map Cut.token =
      tokensCalled name ++ (argument.map Cut.token ++ [⟨")", .start⟩]) := by
  simp [callCuts, tokensCalled, Cut.token, Cut.text]

/-- A name, an operator and a blank have their own pieces before a text that begins with none. -/
theorem LeftmostSplit.exists_behind {name : String} (isName : IsName name) (op : Operator)
    {cs : List Char} {cuts : List Cut} (split : LeftmostSplit cs cuts)
    (stops : ∀ c ∈ cs.head?, Text.isBlank c = false) :
    ∃ sign : Cut, sign.text = op.symbol.toList ∧
      LeftmostSplit ((name ++ " " ++ op.symbol ++ " ").toList ++ cs)
        (operationCuts name sign cuts) := by
  obtain ⟨sign, text, stands⟩ := op.exists_cut cs
  have space : ∀ c ∈ [' '], Text.isBlank c = true := List.all_eq_true.mp (by decide)
  have visible : ∀ c ∈ (op.symbol.toList ++ ' ' :: cs).head?, Text.isBlank c = false := by
    cases op <;> rintro c ⟨⟩ <;> decide
  have gap : LeftmostSplit (' ' :: cs) (.delimiter .blanks [' '] :: cuts) :=
    cons_iff.mpr ⟨cs, rfl, .blanks nofun space stops, split⟩
  have operator : LeftmostSplit (op.symbol.toList ++ ' ' :: cs) (sign :: _) :=
    cons_iff.mpr ⟨_, by rw [text], stands, gap⟩
  have before : LeftmostSplit (' ' :: (op.symbol.toList ++ ' ' :: cs))
      (.delimiter .blanks [' '] :: _) :=
    cons_iff.mpr ⟨_, rfl, .blanks nofun space visible, operator⟩
  refine ⟨sign, text, cons_iff.mpr ⟨_, ?_, .of_isName isName.1
    (delimited_of_blank (by decide) _), before⟩⟩
  simp [Cut.text]

/-! ## What becomes of a literal -/

/-- An operator that is no pipe gives what it makes of the values of both operands. -/
theorem Operator.continued_value {op : Operator} (noPipe : op ≠ .pipe) (v w : Value)
    (target : Value → Traced Value) : op.continued (.value w) target v = .value (op.apply v w) := by
  cases op with
  | pipe => exact absurd rfl noPipe
  | and | or => by_cases truthy : v.isTruthy = true <;> simp [continued, apply, truthy]
  | _ => rfl

/-- A source at a token of which reading stops is refused with the fault that is found there. -/
theorem Template.compile_of_stopsAt {source : String} {cuts : List Cut} {before later : List Token}
    {t : Token} {e : ParseError} (split : LeftmostSplit source.toList cuts)
    (tokens : cuts.map Cut.token = before ++ t :: later) (stops : StopsAt .expression before t e) :
    (compile .expression source).mapError ParseError.fault = .error e.fault := by
  have same := parse_unplaced .expression (tokenize source)
  rw [map_unplaced_tokenize split, tokens, stops.parse_eq] at same
  cases read : parse .expression (tokenize source) with
  | ok t =>
    rw [read] at same
    cases same
  | error refused =>
    rw [read] at same
    rw [compile_of_refused read]
    exact congrArg Except.error (Except.error.inj same).symm

namespace NumberLiteral

/-- The token of a minus. -/
def minus : Token :=
  ⟨"-", .start⟩

/-- A minus is refused where a statement begins. -/
theorem step_minus {top : Parse.Frame} {below : List Parse.Frame} (noText : top.isText = false)
    (none : top.statement? = none) :
    Parse.State.step ⟨top, below, .ready⟩ minus = .error ⟨.start, .missingLeftOperand "-"⟩ := by
  have visible : minus.isBlank = false := by decide
  have symbol : Operator.ofSymbol? minus.text = some .subtraction :=
    Operator.ofSymbol?_symbol .subtraction
  rw [Parse.State.step_eq_inExpression rfl noText (by decide)]
  simp only [Parse.State.inExpression, visible, symbol, Parse.State.operator, none,
    Bool.false_eq_true, if_false]
  rfl

/-- A minus is refused where an operator waits. -/
theorem step_minus_of_waiting {top : Parse.Frame} {below : List Parse.Frame} {op : Operator}
    {sign : Token} : Parse.State.step ⟨top, below, .waiting op sign⟩ minus =
      .error ⟨.start, .unexpectedRightOperand "-"⟩ := by
  have visible : minus.isBlank = false := by decide
  have unread : Word.read? minus.text = none := Operator.read?_symbol .subtraction
  simp only [Parse.State.step, visible, Bool.false_eq_true, if_false, Parse.State.rightOperand,
    unread]
  rfl

variable {n : NumberLiteral} {name : String}

/-- Without a minus a literal is one token, which is an operand. -/
theorem operand (unsigned : n.negative = false) :
    Operand (n.cuts.map Cut.token) (.number n.decimal.nearest) := by
  have one : n.cuts.map Cut.token = [] ++ [⟨n.text, .start⟩] := by
    simp [cuts, text, chars, unsigned, Cut.token, Cut.text]
  rw [one]
  exact .literal blanks_nil n.literal

/-- With a minus it is two. -/
theorem tokens_signed (signed : n.negative = true) :
    n.cuts.map Cut.token = minus :: [⟨String.ofList n.unsigned, .start⟩] := by
  rw [cuts, if_pos signed]
  rfl

theorem toList_text (n : NumberLiteral) : n.text.toList = n.chars :=
  String.toList_ofList

theorem split_alone (n : NumberLiteral) : LeftmostSplit n.text.toList n.cuts := by
  have split := n.split_cuts .nil (.inl rfl)
  rwa [List.append_nil, List.append_nil, ← toList_text] at split

theorem split_behind (n : NumberLiteral) (isName : IsName name) (op : Operator) :
    ∃ sign : Cut, sign.text = op.symbol.toList ∧
      LeftmostSplit (name ++ " " ++ op.symbol ++ " " ++ n.text).toList
        (operationCuts name sign n.cuts) := by
  have stops := n.visible_chars []
  rw [List.append_nil, ← toList_text] at stops
  obtain ⟨sign, text, split⟩ := n.split_alone.exists_behind isName op stops
  rw [← String.toList_append] at split
  exact ⟨sign, text, split⟩

theorem split_called (n : NumberLiteral) (isName : IsName name) :
    LeftmostSplit (name ++ "(" ++ n.text ++ ")").toList (callCuts name n.cuts) := by
  have closing : LeftmostSplit [')'] [.delimiter .single [')']] :=
    LeftmostSplit.cons_iff.mpr ⟨[], rfl, .single (by decide), .nil⟩
  have inner := n.split_cuts closing (.inr (delimited_of_single (by decide) []))
  have opening : LeftmostSplit ('(' :: _) (.delimiter .single ['('] :: _) :=
    LeftmostSplit.cons_iff.mpr ⟨_, rfl, .single (by decide), inner⟩
  refine LeftmostSplit.cons_iff.mpr
    ⟨_, ?_, .of_isName isName.1 (delimited_of_single (by decide) _), opening⟩
  simp [Cut.text, toList_text]

/-- Behind a name and an operator a literal without a minus is the right operand. -/
theorem expression_behind (unsigned : n.negative = false) (isName : IsName name) (op : Operator) :
    Expression (tokensBehind name op ++ n.cuts.map Cut.token)
      (some (.binary op (.ofName name) (.number n.decimal.nearest))) := by
  have space : Token.isBlank ⟨" ", .start⟩ = true := by decide
  have symbol : Token.text ⟨op.symbol, .start⟩ = op.symbol := rfl
  have named : Operand [⟨name, .start⟩] (.ofName name) := .name blanks_nil isName
  have left : Expression [⟨name, .start⟩] (some (.ofName name)) :=
    .operand (.empty blanks_nil) named
  exact (left.blank space).splice symbol (blanks_singleton space) (operand unsigned)

/-- Between parentheses behind a name it is the argument of a call. -/
theorem expression_called (unsigned : n.negative = false) (isName : IsName name) :
    Expression (tokensCalled name ++ (n.cuts.map Cut.token ++ [⟨")", .start⟩]))
      (some (.call name [.number n.decimal.nearest])) := by
  have inner := operand unsigned
  have called : Called name [n.cuts.map Cut.token] ([] ++ ⟨name, .start⟩ :: ⟨"(", .start⟩ ::
      (n.cuts.map Cut.token ++ [⟨")", .start⟩])) := .mk blanks_nil rfl rfl .first rfl
  exact accepted_iff.mp (called.operand isName (.cons inner.accepted .nil)).accepted

theorem expects_start : Parse.Expects (.start .expression) id :=
  .first rfl rfl rfl

/-- Where an operator waits for its right operand reading stops at a minus. -/
theorem stopsAt_behind (isName : IsName name) (op : Operator) :
    StopsAt .expression (tokensBehind name op) minus ⟨.start, .unexpectedRightOperand "-"⟩ := by
  have space : Token.isBlank ⟨" ", .start⟩ = true := by decide
  have symbol : Token.text ⟨op.symbol, .start⟩ = op.symbol := rfl
  have named : Reaches (.start .expression) [⟨name, .start⟩] _ :=
    .of_step (.operand expects_start (Word.read?_of_isName isName))
  have blank := named.append (.of_step (.blank rfl rfl space))
  have waits := blank.append (.of_step (.operator rfl rfl symbol))
  exact ⟨_, waits.append (.of_step (.wait space)), step_minus_of_waiting⟩

/-- So it does where an argument begins. -/
theorem stopsAt_called (isName : IsName name) :
    StopsAt .expression (tokensCalled name) minus ⟨.start, .missingLeftOperand "-"⟩ :=
  ⟨_, expects_start.reaches_openCall isName rfl, step_minus rfl rfl⟩

/-- A text is classified as a number exactly if it is that of a number literal. Without a minus it
evaluates to the number nearest to its decimal, and so it does behind a name with an operator and as
an argument of a call. With a minus it is refused in all these places, and it is the minus that is
to blame. -/
theorem evaluates (source : String) :
    (Word.isNumber source.toList = true ↔ ∃ n : NumberLiteral, n.text = source) ∧
    ∀ n : NumberLiteral, n.text = source →
      n.decimal.nearest.NearestTo n.decimal.value ∧
      (n.negative = false →
        Template.Constant .expression source (.number n.decimal.nearest) ∧
        (∀ (name : String) (op : Operator), IsName name →
          ∃ template, Template.compile .expression (name ++ " " ++ op.symbol ++ " " ++ source) =
              .ok template ∧
            template.term = .expression (some
              (.binary op (.ofName name) (.number n.decimal.nearest))) ∧
            (op ≠ .pipe → ∀ context methods, template.evaluate context methods =
              ⟨.ok (op.apply (context.resolve (segments name)) (.number n.decimal.nearest)),
                []⟩)) ∧
        ∀ name, IsName name →
          ∃ template, Template.compile .expression (name ++ "(" ++ source ++ ")") = .ok template ∧
            template.term = .expression (some (.call name [.number n.decimal.nearest])) ∧
            ∀ context methods m, methods.find? name = some m →
              template.evaluate context methods =
                ⟨.ok (m [.number n.decimal.nearest]),
                  [⟨name, [.number n.decimal.nearest]⟩]⟩) ∧
      (n.negative = true →
        (Template.compile .expression source).mapError ParseError.fault =
          .error (.missingLeftOperand "-") ∧
        (∀ (name : String) (op : Operator), IsName name →
          (Template.compile .expression (name ++ " " ++ op.symbol ++ " " ++ source)).mapError
            ParseError.fault = .error (.unexpectedRightOperand "-")) ∧
        ∀ name, IsName name →
          (Template.compile .expression (name ++ "(" ++ source ++ ")")).mapError
            ParseError.fault = .error (.missingLeftOperand "-")) := by
  refine ⟨?_, ?_⟩
  · rw [isNumber_iff]
    constructor
    · rintro ⟨n, same⟩
      exact ⟨n, by rw [text, same, String.ofList_toList]⟩
    · rintro ⟨n, rfl⟩
      exact ⟨n, n.toList_text.symm⟩
  · rintro n rfl
    refine ⟨n.decimal.nearest_nearestTo, ?_, ?_⟩
    · intro unsigned
      refine ⟨?_, ?_, ?_⟩
      · have formed := accepted_iff.mp (operand unsigned).accepted
        exact Template.constant_of_expression n.split_alone formed fun _ _ => by rw [Term.traced]
      · intro name op isName
        obtain ⟨sign, symbol, split⟩ := n.split_behind isName op
        have formed := expression_behind unsigned isName op
        rw [← map_token_operationCuts name symbol] at formed
        obtain ⟨template, compiled, term, value⟩ := Template.compile_of_expression split formed
        refine ⟨template, compiled, term, ?_⟩
        intro noPipe context methods
        rw [value, Term.traced, Term.ofName, Term.traced, Term.traced, Traced.value_andThen,
          Operator.continued_value noPipe]
        rfl
      · intro name isName
        have formed := expression_called unsigned isName
        rw [← map_token_callCuts] at formed
        obtain ⟨template, compiled, term, value⟩ :=
          Template.compile_of_expression (n.split_called isName) formed
        refine ⟨template, compiled, term, ?_⟩
        intro context methods m found
        rw [value, Term.traced, Traced.method_of_find? found]
        rfl
    · intro signed
      refine ⟨?_, ?_, ?_⟩
      · have stops : StopsAt .expression [] minus ⟨.start, .missingLeftOperand "-"⟩ :=
          ⟨_, .nil _, step_minus rfl rfl⟩
        exact Template.compile_of_stopsAt n.split_alone (tokens_signed signed) stops
      · intro name op isName
        obtain ⟨sign, symbol, split⟩ := n.split_behind isName op
        have tokens := map_token_operationCuts name symbol n.cuts
        rw [tokens_signed signed] at tokens
        exact Template.compile_of_stopsAt split tokens (stopsAt_behind isName op)
      · intro name isName
        have tokens := map_token_callCuts name n.cuts
        rw [tokens_signed signed, List.cons_append] at tokens
        exact Template.compile_of_stopsAt (n.split_called isName) tokens (stopsAt_called isName)

/-- Twelve and a half with a zero behind it, by itself, behind an operator and as an argument; and
three below zero, which is none of these. -/
theorem evaluates_twelve_and_a_half :
    Template.Constant .expression "12.50" (.number (Decimal.nearest ⟨false, 1250, -2⟩)) ∧
      (∃ template, Template.compile .expression "x > 12.50" = .ok template ∧
        ∀ context methods, template.evaluate context methods =
          ⟨.ok (Operator.greaterThan.apply (context.resolve ["x"])
            (.number (Decimal.nearest ⟨false, 1250, -2⟩))), []⟩) ∧
      (Template.compile .expression "f(-3)").mapError ParseError.fault =
        .error (.missingLeftOperand "-") := by
  let positive : NumberLiteral := ⟨false, "12".toList, some "50".toList, by decide, by decide⟩
  let negative : NumberLiteral := ⟨true, "3".toList, none, by decide, by decide⟩
  have isName {name : String} (isName : Word.isName name.toList = true) (notTrue : name ≠ "true")
      (notFalse : name ≠ "false") : IsName name := ⟨isName, notTrue, notFalse⟩
  have decimal : positive.decimal = ⟨false, 1250, -2⟩ := by decide
  have path : segments "x" = ["x"] := by decide +kernel
  obtain ⟨-, unsigned, -⟩ := (evaluates "12.50").2 positive (by decide +kernel)
  obtain ⟨-, -, signed⟩ := (evaluates "-3").2 negative (by decide +kernel)
  obtain ⟨alone, behind, -⟩ := unsigned rfl
  obtain ⟨template, compiled, -, value⟩ :=
    behind "x" .greaterThan (isName (by decide) (by decide) (by decide))
  obtain ⟨-, -, called⟩ := signed rfl
  rw [decimal] at alone value
  rw [path] at value
  exact ⟨alone, ⟨template, compiled, value nofun⟩,
    called "f" (isName (by decide) (by decide) (by decide))⟩

/-- One below zero is written as a number literal and is none. -/
theorem evaluates_not_negative :
    Word.isNumber "-1".toList = true ∧
      Template.compile .expression "-1" = .error ⟨⟨1, 1⟩, .missingLeftOperand "-"⟩ := by
  have tokens : tokenize "-1" = [⟨"-", ⟨1, 1⟩⟩, ⟨"1", ⟨1, 2⟩⟩] := by decide +kernel
  refine ⟨by decide, Template.compile_of_refused ?_⟩
  rw [tokens]
  rfl

end NumberLiteral

end Inlay
