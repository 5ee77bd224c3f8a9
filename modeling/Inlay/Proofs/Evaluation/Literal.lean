import Inlay.Proofs.Evaluation.Interpolation

/-!
# What literals evaluate to

A text between two equal quotes that do not occur in it is one piece of every source, whatever is in
it and whatever follows (`Delimiter.Fits.quoted`), so that several of them with plus signs between
them are read as the sum of their texts. `Quotation.sum_evaluates` says so of any number of them, as
an expression and as a block of text.
-/

namespace Inlay

open Delimiter Grammar
open Parse (blockStart blockEnd)

/-! ## Sources that are constant -/

/-- A term has one value in every context and calls no method. -/
def Term.Constant (t : Term) (v : Value) : Prop :=
  ∀ context methods, traced context methods t = .value v

/-- A source is a template, which has one value in every context and calls no method. -/
def Template.Constant (mode : Parse.Mode) (source : String) (v : Value) : Prop :=
  ∃ template, compile mode source = .ok template ∧
    ∀ context methods, template.evaluate context methods = ⟨.ok v, []⟩

namespace Template

variable {source : String} {cuts : List Cut} {t : Term} {v : Value}

/-- What is read as a statement evaluates as the statement does. -/
theorem compile_of_expression (split : LeftmostSplit source.toList cuts)
    (formed : Expression (cuts.map Cut.token) (some t)) :
    ∃ template, compile .expression source = .ok template ∧
      template.term = .expression (some t) ∧
      ∀ context methods, template.evaluate context methods =
        (t.traced context methods).outcome := by
  have parsed : parse .expression (tokenize source) = .ok (.expression (some t)) :=
    (parse_tokenize_eq_ok_iff split).mpr (parse_expression_iff.mpr ⟨_, rfl, formed⟩)
  refine ⟨_, compile_of_parse parsed, rfl, ?_⟩
  intro context methods
  rw [evaluate, Term.evaluate_eq_traced, Term.traced]

/-- What is read as a constant statement is a constant expression. -/
theorem constant_of_expression (split : LeftmostSplit source.toList cuts)
    (formed : Expression (cuts.map Cut.token) (some t)) (constant : t.Constant v) :
    Constant .expression source v := by
  obtain ⟨template, compiled, -, value⟩ := compile_of_expression split formed
  refine ⟨template, compiled, ?_⟩
  intro context methods
  rw [value, constant]
  rfl

/-- As the only block of a text it is the text of its value. -/
theorem constant_of_block
    (split : LeftmostSplit source.toList
      (.delimiter .doubled blockStart.toList :: (cuts ++ [.delimiter .doubled blockEnd.toList])))
    (formed : Expression (cuts.map Cut.token) (some t)) (constant : t.Constant v) :
    Constant .concat source (.string v.splicedText) := by
  have text : Grammar.Text
      ([] ++ ⟨blockStart, .start⟩ :: (cuts.map Cut.token ++ [⟨blockEnd, .start⟩]))
      ([] ++ [.expression (some t)]) := .block .empty rfl formed rfl
  have parsed : parse .concat (tokenize source) = .ok (.concat [.expression (some t)]) := by
    refine (parse_tokenize_eq_ok_iff split).mpr (parse_concat_iff.mpr ⟨_, rfl, ?_⟩)
    simpa [Cut.token, Cut.text] using text
  refine ⟨_, compile_of_parse parsed, ?_⟩
  intro context methods
  have part : Term.traced context methods (.expression (some t)) = .value v := by
    rw [Term.traced, constant]
  have value := Term.evaluate_concat_around [] [] part
  simpa [evaluate] using value

end Template

/-- Blanks before a text that begins with none are one piece, or none if there are none. -/
theorem LeftmostSplit.exists_gap {w cs : List Char} {cuts : List Cut}
    (split : LeftmostSplit cs cuts) (blank : ∀ c ∈ w, Text.isBlank c = true)
    (stops : ∀ c ∈ cs.head?, Text.isBlank c = false) :
    ∃ gap : List Cut, Blanks (gap.map Cut.token) ∧ LeftmostSplit (w ++ cs) (gap ++ cuts) := by
  cases w with
  | nil => exact ⟨[], blanks_nil, split⟩
  | cons c w =>
    refine ⟨[.delimiter .blanks (c :: w)], blanks_singleton ?_,
      cons_iff.mpr ⟨cs, rfl, .blanks nofun blank stops, split⟩⟩
    simpa [Cut.token, Cut.text, Token.isBlank] using blank c List.mem_cons_self

/-! ## Quoted texts -/

/-- A text with a quote that does not occur in it. -/
structure Quotation where
  quote : Char
  text : String
  isQuote : quote ∈ quotes
  absent : quote ∉ text.toList

namespace Quotation

/-- The text between its quotes. -/
def source (q : Quotation) : String :=
  String.singleton q.quote ++ q.text ++ String.singleton q.quote

/-- Several quoted texts with plus signs between them. -/
def sumSource (qs : List Quotation) : String :=
  " + ".intercalate (qs.map source)

/-- A quoted text as a piece. -/
def cut (q : Quotation) : Cut :=
  .delimiter .quoted q.source.toList

/-- A plus sign between blanks as pieces. -/
def plusCuts : List Cut :=
  [.delimiter .blanks [' '], .delimiter .single ['+'], .delimiter .blanks [' ']]

/-- The pieces of quoted texts with plus signs between them. -/
def sumCuts (first : Quotation) (rest : List Quotation) : List Cut :=
  first.cut :: rest.flatMap fun q => plusCuts ++ [q.cut]

/-- The sum of quoted texts. -/
def sum (first : Quotation) (rest : List Quotation) : Term :=
  rest.foldl (fun t q => .binary .addition t (.string q.text)) (.string first.text)

theorem toList_source (q : Quotation) :
    q.source.toList = q.quote :: q.text.toList ++ [q.quote] := by
  simp [source]

theorem sumCuts_cons (first q : Quotation) (rest : List Quotation) :
    sumCuts first (q :: rest) = first.cut :: (plusCuts ++ sumCuts q rest) := rfl

theorem sumCuts_snoc (first q : Quotation) (rest : List Quotation) :
    sumCuts first (rest ++ [q]) = sumCuts first rest ++ plusCuts ++ [q.cut] := by
  simp [sumCuts]

theorem sum_snoc (first q : Quotation) (rest : List Quotation) :
    sum first (rest ++ [q]) = .binary .addition (sum first rest) (.string q.text) :=
  List.foldl_append

theorem toList_sumSource (first : Quotation) (rest : List Quotation) :
    (sumSource (first :: rest)).toList = ((sumCuts first rest).map Cut.text).flatten := by
  rw [sumSource, String.toList_intercalate]
  induction rest generalizing first with
  | nil => simp [sumCuts, cut, Cut.text]
  | cons q rest ih =>
    have longer : ((sumCuts first (q :: rest)).map Cut.text).flatten =
        first.source.toList ++ (" + ".toList ++ ((sumCuts q rest).map Cut.text).flatten) := by
      simp [sumCuts_cons, plusCuts, cut, Cut.text]
    rw [longer, ← ih q]
    simp

/-- A quoted text is one piece, whatever is in it and whatever follows. -/
theorem cut_stands (q : Quotation) (after : List Char) : q.cut.Stands after := by
  have fits : Delimiter.quoted.Fits after (q.quote :: q.text.toList ++ [q.quote]) :=
    .quoted q.isQuote q.absent
  rwa [← toList_source] at fits

/-- Quoted texts begin with no blank. -/
theorem visible_sumCuts (first : Quotation) (rest : List Quotation) (after : List Char) :
    ∀ c ∈ (((sumCuts first rest).map Cut.text).flatten ++ after).head?, Text.isBlank c = false := by
  have visible : quotes.all (!Text.isBlank ·) = true := by decide
  rw [sumCuts, List.map_cons, List.flatten_cons, cut, Cut.text, toList_source]
  rintro c ⟨⟩
  simpa using List.all_eq_true.mp visible _ first.isQuote

/-- A plus sign between blanks has its pieces before a text that begins with no blank. -/
theorem split_plusCuts {cs : List Char} {cuts : List Cut} (split : LeftmostSplit cs cuts)
    (stops : ∀ c ∈ cs.head?, Text.isBlank c = false) :
    LeftmostSplit (" + ".toList ++ cs) (plusCuts ++ cuts) := by
  have space : ∀ c ∈ [' '], Text.isBlank c = true := List.all_eq_true.mp (by decide)
  have behind : LeftmostSplit (' ' :: cs) (.delimiter .blanks [' '] :: cuts) :=
    LeftmostSplit.cons_iff.mpr ⟨cs, rfl, .blanks nofun space stops, split⟩
  have sign : LeftmostSplit ('+' :: ' ' :: cs) (.delimiter .single ['+'] :: _) :=
    LeftmostSplit.cons_iff.mpr ⟨_, rfl, .single (by decide), behind⟩
  have next : ∀ c ∈ ('+' :: ' ' :: cs).head?, Text.isBlank c = false := by
    rintro c ⟨⟩
    decide
  exact LeftmostSplit.cons_iff.mpr ⟨_, rfl, .blanks nofun space next, sign⟩

/-- Quoted texts with plus signs between them have their own pieces before any other text. -/
theorem split_sumCuts (first : Quotation) (rest : List Quotation) {after : List Char}
    {cuts : List Cut} (split : LeftmostSplit after cuts) :
    LeftmostSplit (((sumCuts first rest).map Cut.text).flatten ++ after)
      (sumCuts first rest ++ cuts) := by
  induction rest generalizing first with
  | nil =>
    refine LeftmostSplit.cons_iff.mpr ⟨after, ?_, first.cut_stands after, split⟩
    simp [sumCuts]
  | cons q rest ih =>
    have later := split_plusCuts (ih q) (visible_sumCuts q rest after)
    refine LeftmostSplit.cons_iff.mpr ⟨_, ?_, first.cut_stands _, later⟩
    simp [sumCuts_cons, plusCuts, Cut.text]

/-- They are the tokens of the sum, with blanks before them or without. -/
theorem expression_sumCuts (first : Quotation) (rest : List Quotation) {blanks : List Token}
    (blank : Blanks blanks) :
    Expression (blanks ++ (sumCuts first rest).map Cut.token) (some (sum first rest)) := by
  have operand (q : Quotation) : Operand [q.cut.token] (.string q.text) := by
    have literal : Literal q.cut.token.text (.string (String.ofList q.text.toList)) :=
      .quoted (mem_quotes_iff.mp q.isQuote) (by simp [cut, Cut.token, Cut.text, toList_source])
    rw [String.ofList_toList] at literal
    exact .literal blanks_nil literal
  induction rest using List.reverseRecOn with
  | nil => exact Expression.operand (.empty blank) (operand first)
  | append_singleton rest q ih =>
    have space : Token.isBlank ⟨" ", .start⟩ = true := by decide
    have plus : Token.text ⟨"+", .start⟩ = Operator.addition.symbol := rfl
    have longer := (ih.blank space).splice plus (blanks_singleton space) (operand q)
    have left : (sum first rest).splice .addition (.string q.text) =
        .binary .addition (sum first rest) (.string q.text) := by
      rcases List.eq_nil_or_concat' rest with rfl | ⟨init, last, rfl⟩
      · rfl
      · rw [sum_snoc]; rfl
    rw [left, ← sum_snoc] at longer
    simpa [sumCuts_snoc, plusCuts, Cut.token, Cut.text] using longer

/-- The sum is the texts put together. -/
theorem constant_sum (first : Quotation) (rest : List Quotation) :
    (sum first rest).Constant (.string (String.join ((first :: rest).map text))) := by
  intro context methods
  induction rest using List.reverseRecOn with
  | nil => simp [sum, Term.traced]
  | append_singleton rest q ih =>
    have last : String.join [q.text] = q.text := by simp
    rw [sum_snoc, Term.traced, ih, Term.traced, ← List.cons_append, List.map_append,
      String.join_append, List.map_singleton, last]
    rfl

/-- Any number of quoted texts with plus signs between them evaluate to the texts put together,
whatever is in them, as an expression and as the only block of a text, with blanks inside the braces
or without. -/
theorem sum_evaluates (first : Quotation) (rest : List Quotation) {before after : String}
    (blank : ∀ c ∈ before.toList ++ after.toList, Text.isBlank c = true) :
    Template.Constant .expression (sumSource (first :: rest))
        (.string (String.join ((first :: rest).map text))) ∧
      Template.Constant .concat
        (blockStart ++ before ++ sumSource (first :: rest) ++ after ++ blockEnd)
        (.string (String.join ((first :: rest).map text))) := by
  obtain ⟨blankBefore, blankAfter⟩ := List.forall_mem_append.mp blank
  have constant := constant_sum first rest
  constructor
  · have split := split_sumCuts first rest .nil
    rw [List.append_nil, List.append_nil, ← toList_sumSource] at split
    exact Template.constant_of_expression split (expression_sumCuts first rest blanks_nil) constant
  · have closing : LeftmostSplit blockEnd.toList [.delimiter .doubled blockEnd.toList] :=
      LeftmostSplit.cons_iff.mpr ⟨[], rfl, .doubled (by decide), .nil⟩
    obtain ⟨gap', blanks', split⟩ := closing.exists_gap blankAfter (by rintro c ⟨⟩; decide)
    have whole := split_sumCuts first rest split
    obtain ⟨gap, blanks, split⟩ := whole.exists_gap blankBefore (visible_sumCuts first rest _)
    have opening : LeftmostSplit (blockStart.toList ++ _)
        (.delimiter .doubled blockStart.toList :: _) :=
      LeftmostSplit.cons_iff.mpr ⟨_, rfl, .doubled (by decide), split⟩
    have formed := (expression_sumCuts first rest blanks).append_blanks blanks'
    rw [← List.map_append, ← List.map_append] at formed
    refine Template.constant_of_block ?_ formed constant
    simpa [← toList_sumSource] using opening

/-- An apostrophe and a block between quotes, nothing between apostrophes, and a quote and a line
feed between apostrophes. -/
theorem sum_evaluates_braces :
    let source := "\"it's \x7b\x7b a | b \x7d\x7d\" + '' + '\"\n'"
    let value := Value.string "it's \x7b\x7b a | b \x7d\x7d\"\n"
    Template.Constant .expression source value ∧
      Template.Constant .concat (blockStart ++ "\n" ++ source ++ " " ++ blockEnd) value := by
  let first : Quotation := ⟨'"', "it's \x7b\x7b a | b \x7d\x7d", by decide, by decide⟩
  let rest : List Quotation :=
    [⟨'\'', "", by decide, by decide⟩, ⟨'\'', "\"\n", by decide, by decide⟩]
  have blank : ∀ c ∈ "\n".toList ++ " ".toList, Text.isBlank c = true :=
    List.all_eq_true.mp (by decide)
  have source : sumSource (first :: rest) = "\"it's \x7b\x7b a | b \x7d\x7d\" + '' + '\"\n'" := by
    decide +kernel
  have joined : String.join ((first :: rest).map text) = "it's \x7b\x7b a | b \x7d\x7d\"\n" := by
    decide +kernel
  have evaluates := sum_evaluates first rest blank
  rw [source, joined] at evaluates
  exact evaluates

end Quotation

end Inlay
