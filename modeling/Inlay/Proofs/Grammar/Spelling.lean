import Inlay.Proofs.Grammar.Basic

/-!
# How a term is spelled

A lexeme is what one token stands for. `Term.spell` lists the lexemes of a term from left to right,
its operators standing between their operands, and `Lexeme.scan` those of tokens, without the blanks
of expressions. What the grammar forms is spelled as its tokens: no operator, operand, name, comma
or parenthesis is lost, added or moved.
-/

namespace Inlay

/-- What a token stands for: an operator, a word or the punctuation of a call inside an expression,
literal text or the braces of a block outside. -/
inductive Lexeme
  | operator (op : Operator)
  | word (w : Word)
  | opening
  | comma
  | closing
  | plain (text : String)
  | blockStart
  | blockEnd

namespace Lexeme

/-- What a text stands for inside an expression, if anything. -/
def ofText? (text : String) : Option Lexeme :=
  match Operator.ofSymbol? text with
  | some op => some (operator op)
  | none =>
    match Word.read? text with
    | some w => some (word w)
    | none =>
      if text = "(" then some opening
      else if text = "," then some comma
      else if text = ")" then some closing
      else none

/-- What the tokens of an expression stand for. Blanks stand for nothing. -/
def ofTokens (ts : List Token) : List (Option Lexeme) :=
  (ts.filter (!·.isBlank)).map (ofText? ·.text)

/-- What the tokens of a source stand for, where the first token is inside an expression or outside
in text. -/
def scan (inside : Bool) : List Token → List (Option Lexeme)
  | [] => []
  | t :: ts =>
    if inside then
      if t.text = Parse.blockEnd then some blockEnd :: scan false ts
      else if t.isBlank then scan true ts
      else ofText? t.text :: scan true ts
    else if t.text = Parse.blockStart then some blockStart :: scan true ts
    else some (plain t.text) :: scan false ts

end Lexeme

namespace Term

mutual

/-- The lexemes of a term from left to right. -/
def spell : Term → List Lexeme
  | concat parts => spellParts parts
  | expression none => []
  | expression (some t) => t.spell
  | number x => [.word (.literal (number x))]
  | string s => [.word (.literal (string s))]
  | boolean b => [.word (.literal (boolean b))]
  | reference path => [.word (.name (dotted path))]
  | call name arguments =>
    .word (.name name) :: .opening :: (spellArguments arguments ++ [.closing])
  | binary op left right => left.spell ++ .operator op :: right.spell

/-- The lexemes of arguments, with commas between them. -/
def spellArguments : List Term → List Lexeme
  | [] => []
  | t :: ts => t.spell ++ spellFurther ts

/-- The lexemes of arguments that follow others. -/
def spellFurther : List Term → List Lexeme
  | [] => []
  | t :: ts => .comma :: (t.spell ++ spellFurther ts)

/-- The lexemes of the parts of a text: literal text and blocks. -/
def spellParts : List Term → List Lexeme
  | [] => []
  | string s :: parts => .plain s :: spellParts parts
  | t :: parts => .blockStart :: (t.spell ++ .blockEnd :: spellParts parts)

end

theorem spellFurther_append (ts us : List Term) :
    spellFurther (ts ++ us) = spellFurther ts ++ spellFurther us := by
  induction ts with
  | nil => rfl
  | cons t ts ih => simp only [List.cons_append, spellFurther, ih, List.append_assoc]

theorem spellParts_append (parts others : List Term) :
    spellParts (parts ++ others) = spellParts parts ++ spellParts others := by
  induction parts with
  | nil => rfl
  | cons part parts ih =>
    cases part <;> simp only [List.cons_append, spellParts, ih, List.append_assoc]

/-- A comma stands before an argument that follows others. -/
theorem spellArguments_append {arguments : List Term} (some : arguments ≠ []) (t : Term) :
    spellArguments (arguments ++ [t]) = spellArguments arguments ++ .comma :: t.spell := by
  cases arguments with
  | nil => exact absurd rfl some
  | cons first others =>
    simp only [List.cons_append, spellArguments, spellFurther_append, spellFurther,
      List.append_assoc, List.append_nil]

/-- A statement is spelled as its chain: the operands with their operators between them. -/
theorem spell_eq_chain (t : Term) :
    t.spell = t.chain.first.spell ++
      t.chain.rest.flatMap fun next => .operator next.1 :: next.2.spell := by
  induction t using Term.chain.induct with
  | case1 op left right ihLeft ihRight =>
    rw [spell, ihLeft, ihRight, chain]
    simp only [Chain.join, List.flatMap_append, List.flatMap_cons, List.append_assoc,
      List.cons_append]
  | case2 t operand =>
    rw [chain_of_not_isBinary (isBinary_of_forall_ne operand)]
    exact (List.append_nil _).symm

end Term

namespace Grammar

open Lexeme

theorem ofTokens_append (ts us : List Token) :
    ofTokens (ts ++ us) = ofTokens ts ++ ofTokens us := by
  simp only [ofTokens, List.filter_append, List.map_append]

theorem ofTokens_blanks {ts : List Token} (blanks : Blanks ts) : ofTokens ts = [] := by
  have none : ts.filter (!·.isBlank) = [] := by
    rw [List.filter_eq_nil_iff]
    intro t mem
    simp only [blanks t mem, Bool.not_true, Bool.false_eq_true, not_false_eq_true]
  rw [ofTokens, none, List.map_nil]

theorem ofTokens_cons {t : Token} {lexeme : Lexeme} (visible : t.isBlank = false)
    (stands : ofText? t.text = some lexeme) (ts : List Token) :
    ofTokens (t :: ts) = some lexeme :: ofTokens ts := by
  simp only [ofTokens, List.filter_cons, visible, Bool.not_false, if_true, List.map_cons, stands]

theorem ofTokens_word {t : Token} {w : Word} (read : Word.read? t.text = some w) (ts : List Token) :
    ofTokens (t :: ts) = some (.word w) :: ofTokens ts := by
  refine ofTokens_cons (Token.isBlank_of_read? read) ?_ ts
  simp only [ofText?, Word.ofSymbol?_of_read? read, read]

theorem ofTokens_operator {t : Token} {op : Operator} (symbol : t.text = op.symbol)
    (ts : List Token) : ofTokens (t :: ts) = some (.operator op) :: ofTokens ts := by
  have known : Operator.ofSymbol? t.text = some op := by rw [symbol, Operator.ofSymbol?_symbol]
  refine ofTokens_cons (Token.isBlank_of_ofSymbol? known) ?_ ts
  simp only [ofText?, known]

/-- The punctuation of a call stands for itself. -/
theorem ofTokens_mark {t : Token} {mark : String} {lexeme : Lexeme} (same : t.text = mark)
    (visible : mark.toList.head?.any Text.isBlank = false) (stands : ofText? mark = some lexeme)
    (ts : List Token) :
    ofTokens (t :: ts) = some lexeme :: ofTokens ts := by
  subst same
  exact ofTokens_cons visible stands ts

mutual

/-- An operand is spelled as its tokens. -/
theorem ofTokens_of_operand : ∀ {ts : List Token} {t : Term}, Operand ts t →
    ofTokens ts = t.spell.map some
  | _, _, @Operand.literal before t value blanks literal => by
    have spelled : value.spell = [.word (.literal value)] := by cases literal <;> rfl
    rw [ofTokens_append, ofTokens_blanks blanks, ofTokens_word (Word.read?_of_literal literal),
      spelled]
    rfl
  | _, _, @Operand.name before t blanks isName => by
    rw [ofTokens_append, ofTokens_blanks blanks, ofTokens_word (Word.read?_of_isName isName),
      Term.ofName, Term.spell, dotted_segments]
    rfl
  | _, _, @Operand.call before inner after name opener closer arguments blanks isName isOpener
      formed blanks' isCloser => by
    rw [ofTokens_append, ofTokens_blanks blanks, ofTokens_word (Word.read?_of_isName isName),
      ofTokens_mark isOpener (by decide) rfl, ofTokens_append, ofTokens_append,
      ofTokens_blanks blanks',
      ofTokens_mark isCloser (by decide) rfl, ofTokens_of_arguments formed, Term.spell]
    simp only [List.nil_append, List.map_cons, List.map_append, List.map_nil]
    rfl

/-- A written chain is spelled as its tokens. -/
theorem ofTokens_of_written : ∀ {ts : List Token} {c : Chain}, Written ts c →
    ofTokens ts = (c.first.spell ++
      c.rest.flatMap fun next => .operator next.1 :: next.2.spell).map some
  | _, _, .first operand => by
    rw [ofTokens_of_operand operand, List.flatMap_nil, List.append_nil]
  | _, _, .next before blanks symbol operand => by
    rw [ofTokens_append, ofTokens_append, ofTokens_blanks blanks, ofTokens_operator symbol,
      ofTokens_of_written before, ofTokens_of_operand operand]
    simp only [Chain.snoc, List.flatMap_append, List.flatMap_cons, List.flatMap_nil,
      List.map_append, List.map_cons, List.append_assoc, List.nil_append, List.append_nil]

/-- A statement is spelled as its tokens. -/
theorem ofTokens_of_statement : ∀ {ts : List Token} {t : Term}, Statement ts t →
    ofTokens ts = t.spell.map some
  | _, t, .mk written _ => by rw [ofTokens_of_written written, ← t.spell_eq_chain]

/-- Arguments are spelled as their tokens. -/
theorem ofTokens_of_arguments : ∀ {ts : List Token} {arguments : List Term},
    Arguments ts arguments → ofTokens ts = (Term.spellArguments arguments).map some
  | _, _, .none => rfl
  | _, _, .first statement => by
    rw [ofTokens_of_statement statement, Term.spellArguments, Term.spellFurther, List.append_nil]
  | _, _, .next before nonempty blanks isComma statement => by
    rw [ofTokens_append, ofTokens_append, ofTokens_blanks blanks,
      ofTokens_mark isComma (by decide) rfl,
      ofTokens_of_arguments before, ofTokens_of_statement statement,
      Term.spellArguments_append nonempty]
    simp only [List.map_append, List.map_cons, List.nil_append]

end

/-- An expression is spelled as its tokens. -/
theorem ofTokens_of_expression {ts : List Token} {statement : Option Term}
    (formed : Expression ts statement) :
    ofTokens ts = (Term.expression statement).spell.map some := by
  cases formed with
  | empty blanks => rw [ofTokens_blanks blanks, Term.spell, List.map_nil]
  | statement formed blanks =>
    rw [ofTokens_append, ofTokens_blanks blanks, ofTokens_of_statement formed, List.append_nil,
      Term.spell]

/-- No token of an expression closes a block: it would stand for nothing. -/
theorem text_ne_blockEnd_of_expression {ts : List Token} {statement : Option Term}
    (formed : Expression ts statement) : ∀ t ∈ ts, t.text ≠ Parse.blockEnd := by
  intro t mem same
  have visible : t.isBlank = false := by
    rw [Token.isBlank, same]
    decide
  have stands : ofText? t.text ∈ ofTokens ts := by
    refine List.mem_map.mpr ⟨t, List.mem_filter.mpr ⟨mem, ?_⟩, rfl⟩
    rw [visible, Bool.not_false]
  rw [ofTokens_of_expression formed, List.mem_map] at stands
  obtain ⟨lexeme, -, found⟩ := stands
  rw [same] at found
  cases found

/-! ## Whole sources -/

/-- Inside an expression tokens are scanned as its lexemes. -/
theorem scan_of_expression {ts : List Token} {statement : Option Term}
    (formed : Expression ts statement) (us : List Token) :
    scan true (ts ++ us) = (Term.expression statement).spell.map some ++ scan true us := by
  rw [← ofTokens_of_expression formed]
  have inside := text_ne_blockEnd_of_expression formed
  clear formed
  induction ts with
  | nil => rfl
  | cons t ts ih =>
    have rest := ih fun u mem => inside u (List.mem_cons_of_mem t mem)
    rw [List.cons_append, scan, if_pos rfl, if_neg (inside t List.mem_cons_self), rest]
    cases blank : t.isBlank with
    | true => simp only [if_true, ofTokens, List.filter_cons, blank, Bool.not_true,
        Bool.false_eq_true, if_false]
    | false => simp only [Bool.false_eq_true, if_false, ofTokens, List.filter_cons, blank,
        Bool.not_false, if_true, List.map_cons, List.cons_append]

/-- Text is scanned as its parts. -/
theorem scan_of_text {ts : List Token} {parts : List Term} (formed : Text ts parts)
    (us : List Token) :
    scan false (ts ++ us) = (Term.spellParts parts).map some ++ scan false us := by
  induction formed generalizing us with
  | empty => rfl
  | @literal before t parts _ literal ih =>
    rw [List.append_assoc, ih, List.singleton_append, scan, if_neg Bool.false_ne_true,
      if_neg literal, Term.spellParts_append, List.map_append, List.append_assoc]
    rfl
  | @block before inner opener closer parts statement _ isOpener formed isCloser ih =>
    have closed : scan true (closer :: us) = some .blockEnd :: scan false us := by
      rw [scan, if_pos rfl, if_pos isCloser]
    rw [List.append_assoc, ih, List.cons_append, List.append_assoc, List.singleton_append, scan,
      if_neg Bool.false_ne_true, if_pos isOpener, scan_of_expression formed, closed,
      Term.spellParts_append, List.map_append, List.append_assoc]
    simp only [Term.spellParts, List.map_cons, List.map_append, List.map_nil, List.cons_append,
      List.append_assoc, List.nil_append]

/-- A whole source is spelled as its tokens: nothing of it is lost, added or moved. -/
theorem scan_of_source {mode : Parse.Mode} {ts : List Token} {t : Term}
    (formed : Source mode ts t) :
    scan (mode == .expression) ts = t.spell.map some := by
  cases formed with
  | expression formed =>
    have scanned := scan_of_expression formed []
    rwa [List.append_nil, scan, List.append_nil] at scanned
  | concat formed =>
    have scanned := scan_of_text formed []
    rwa [List.append_nil, scan, List.append_nil] at scanned

end Grammar

end Inlay
