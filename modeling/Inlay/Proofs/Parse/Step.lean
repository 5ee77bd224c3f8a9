import Inlay.Parse.State
import Inlay.Proofs.Term.Chain
import Inlay.Proofs.Term.Word
import Mathlib.Data.List.Induction

/-!
# What one token does to the state of reading

`Step` says in one place every way in which a token is taken in, with all that must hold for it, and
`step_eq_ok_iff` that `State.step` takes in exactly these. What the grammar and the invariants of
reading need to know of a token they read off `Step`.

An operand can be taken in at two places, as the first of a statement and on the right of an
operator. `Expects` names both by what becomes of the statement, so that everything about operands
is said once.
-/

namespace Inlay.Parse

/-- Whether an operator waits for its right operand. -/
def Phase.isWaiting : Phase → Bool
  | .waiting .. => true
  | _ => false

theorem Phase.isWaiting_ready : Phase.ready.isWaiting = false := rfl

namespace Frame

@[simp] theorem withStatement_withStatement (frame : Frame) (first second : Option Term) :
    (frame.withStatement first).withStatement second = frame.withStatement second := by
  cases frame <;> rfl

@[simp] theorem isText_withStatement (frame : Frame) (statement : Option Term) :
    (frame.withStatement statement).isText = frame.isText := by
  cases frame <;> rfl

/-- The statement that was put into a part is its statement. Text takes none. -/
theorem statement?_withStatement {frame : Frame} (noText : frame.isText = false)
    (statement : Option Term) : (frame.withStatement statement).statement? = statement := by
  cases frame with
  | concat => cases noText
  | _ => rfl

/-- What has a statement is no text. -/
theorem isText_of_statement? {frame : Frame} {statement : Term}
    (has : frame.statement? = some statement) : frame.isText = false := by
  cases frame with
  | concat => cases has
  | _ => rfl

theorem withStatement_statement? (frame : Frame) :
    frame.withStatement frame.statement? = frame := by
  cases frame <;> rfl

end Frame

/-- A state takes an operand in, and the statement becomes what the function makes of the operand:
the operand itself where there is no statement yet, or the statement with an operator and the
operand spliced in where the operator waits for it. -/
inductive Expects : State → (Term → Term) → Prop
  | first {top : Frame} {below : List Frame} {phase : Phase} :
      phase.isWaiting = false → top.isText = false → top.statement? = none →
      Expects ⟨top, below, phase⟩ id
  | right {top : Frame} {below : List Frame} {op : Operator} {sign : Token} {statement : Term} :
      top.statement? = some statement →
      Expects ⟨top, below, .waiting op sign⟩ (statement.splice op)

theorem Expects.isText {s : State} {grow : Term → Term} (expects : Expects s grow) :
    s.top.isText = false := by
  cases expects with
  | first _ noText _ => exact noText
  | right has => exact Frame.isText_of_statement? has

/-- An operand that was taken in gives way to another. -/
theorem Expects.withRightLeaf {s : State} {grow : Term → Term} (expects : Expects s grow)
    {last : Term} (single : last.isBinary = false) (operand : Term) :
    (grow last).withRightLeaf operand = grow operand := by
  cases expects with
  | first => exact Term.withRightLeaf_of_not_isBinary operand single
  | @right _ _ op _ statement _ => exact Term.withRightLeaf_splice statement op operand single

/-- The ways in which a state takes a token in. -/
inductive Step : State → Token → State → Prop
  | literal {parts : List Term} {below : List Frame} {phase : Phase} {t : Token} :
      phase.isWaiting = false → t.text ≠ blockStart →
      Step ⟨.concat parts, below, phase⟩ t ⟨.concat (.string t.text :: parts), below, .ready⟩
  | openBlock {parts : List Term} {below : List Frame} {phase : Phase} {t : Token} :
      phase.isWaiting = false → t.text = blockStart →
      Step ⟨.concat parts, below, phase⟩ t ⟨.expression none, .concat parts :: below, .ready⟩
  | blank {top : Frame} {below : List Frame} {phase : Phase} {t : Token} :
      phase.isWaiting = false → top.isText = false → t.isBlank = true →
      Step ⟨top, below, phase⟩ t ⟨top, below, .ready⟩
  | wait {top : Frame} {below : List Frame} {op : Operator} {sign t : Token} : t.isBlank = true →
      Step ⟨top, below, .waiting op sign⟩ t ⟨top, below, .waiting op sign⟩
  | operator {top : Frame} {below : List Frame} {phase : Phase} {op : Operator} {t : Token}
      {statement : Term} : phase.isWaiting = false → top.statement? = some statement →
      t.text = op.symbol → Step ⟨top, below, phase⟩ t ⟨top, below, .waiting op t⟩
  | operand {s : State} {grow : Term → Term} {w : Word} {t : Token} : Expects s grow →
      Word.read? t.text = some w →
      Step s t ⟨s.top.withStatement (some (grow w.term)), s.below, .after w⟩
  | openCall {top : Frame} {below : List Frame} {name : String} {t : Token} : top.isText = false →
      t.text = "(" →
      Step ⟨top, below, .named name⟩ t (State.openCall ⟨top, below, .named name⟩ name)
  | endArgument {name : String} {arguments : List Term} {argument : Term} {below : List Frame}
      {phase : Phase} {t : Token} : phase.isWaiting = false → t.text = "," →
      Step ⟨.call name arguments (some argument), below, phase⟩ t
        ⟨.call name (argument :: arguments) none, below, .ready⟩
  | endCall {name : String} {arguments : List Term} {current : Option Term} {frame : Frame}
      {below : List Frame} {phase : Phase} {t : Token} {statement : Term} :
      phase.isWaiting = false → t.text = ")" → (current = none → arguments = []) →
      frame.statement? = some statement →
      Step ⟨.call name arguments current, frame :: below, phase⟩ t
        ⟨frame.withStatement (some
          (statement.withRightLeaf (Frame.call name arguments current).close)), below, .ready⟩
  | endBlock {statement : Option Term} {parts : List Term} {below : List Frame} {phase : Phase}
      {t : Token} : phase.isWaiting = false → t.text = blockEnd →
      Step ⟨.expression statement, .concat parts :: below, phase⟩ t
        ⟨.concat (.expression statement :: parts), below, .ready⟩

/-! ## The step function -/

namespace State

/-- Where no operator waits and no call can begin, tokens are read as in an expression. -/
theorem step_eq_inExpression {top : Frame} {below : List Frame} {phase : Phase} {t : Token}
    (calm : phase.isWaiting = false) (noText : top.isText = false) (notCall : t.text ≠ "(") :
    step ⟨top, below, phase⟩ t = inExpression ⟨top, below, phase⟩ t := by
  cases top with
  | concat parts => cases noText
  | expression | call =>
    cases phase with
    | waiting => cases calm
    | ready => rfl
    | named name => exact if_neg notCall

/-- In text a token either opens a block or is literal. -/
theorem step_of_inText {parts : List Term} {below : List Frame} {phase : Phase} {s' : State}
    {t : Token} (calm : phase.isWaiting = false)
    (taken : inText ⟨.concat parts, below, phase⟩ parts t = s') :
    Step ⟨.concat parts, below, phase⟩ t s' := by
  subst taken
  unfold inText
  split
  · rename_i start
    exact .openBlock calm start
  · rename_i literal
    exact .literal calm literal

/-- A call is closed by a parenthesis that stands after no comma. -/
theorem step_of_endCall {s s' : State} {t : Token} (calm : s.phase.isWaiting = false)
    (closing : t.text = ")") (taken : s.endCall t = .ok s') : Step s t s' := by
  obtain ⟨top, below, phase⟩ := s
  cases top with
  | call name arguments current =>
    have complete : current = none → arguments = [] := by
      rintro rfl
      cases arguments with
      | nil => rfl
      | cons => cases taken
    cases below with
    | nil => cases arguments <;> cases current <;> cases taken
    | cons frame below =>
      cases has : frame.statement? with
      | none =>
        cases arguments <;> cases current <;> simp only [endCall, has, reduceCtorEq] at taken
      | some statement =>
        have replaced : s' = ⟨frame.withStatement (some
            (statement.withRightLeaf (Frame.call name arguments current).close)), below,
            .ready⟩ := by
          cases arguments <;> cases current <;>
            simp only [endCall, has, reduceCtorEq, Except.ok.injEq] at taken <;> exact taken.symm
        subst replaced
        exact .endCall calm closing complete has
  | _ => cases taken

/-- An operator continues a statement that is there. -/
theorem step_of_operator {s s' : State} {op : Operator} {t : Token}
    (calm : s.phase.isWaiting = false) (symbol : Operator.ofSymbol? t.text = some op)
    (taken : s.operator op t = .ok s') : Step s t s' := by
  unfold operator at taken
  split at taken
  · rename_i statement has
    cases taken
    exact .operator calm has (Operator.eq_symbol_of_ofSymbol? symbol)
  · cases taken

/-- A word begins a statement where there is none. -/
theorem step_of_word {s s' : State} {w : Word} {t : Token} (calm : s.phase.isWaiting = false)
    (noText : s.top.isText = false) (read : Word.read? t.text = some w)
    (taken : s.word w t = .ok s') : Step s t s' := by
  simp only [word, noText, Bool.false_or] at taken
  split at taken
  · cases taken
  · rename_i vacant
    rw [Bool.not_eq_true, Option.isSome_eq_false_iff, Option.isNone_iff_eq_none] at vacant
    cases taken
    exact .operand (.first calm noText vacant) read

/-- A comma ends an argument that is there. -/
theorem step_of_endArgument {s s' : State} {t : Token} (calm : s.phase.isWaiting = false)
    (comma : t.text = ",") (taken : s.endArgument t = .ok s') : Step s t s' := by
  obtain ⟨top, below, phase⟩ := s
  cases top with
  | call name arguments current =>
    cases current with
    | none => cases taken
    | some argument =>
      cases taken
      exact .endArgument calm comma
  | _ => cases taken

/-- Two braces close an expression above text. -/
theorem step_of_endBlock {s s' : State} {t : Token} (calm : s.phase.isWaiting = false)
    (closing : t.text = blockEnd) (taken : s.endBlock t = .ok s') : Step s t s' := by
  obtain ⟨top, below, phase⟩ := s
  cases top with
  | expression statement =>
    cases below with
    | nil => cases taken
    | cons frame below =>
      cases frame with
      | concat parts =>
        cases taken
        exact .endBlock calm closing
      | _ => cases taken
  | _ => cases taken

/-- Operators, words and punctuation, read in this order. -/
theorem step_of_inExpression {s s' : State} {t : Token} (calm : s.phase.isWaiting = false)
    (noText : s.top.isText = false) (taken : s.inExpression t = .ok s') : Step s t s' := by
  unfold inExpression at taken
  by_cases blank : t.isBlank = true
  · rw [if_pos blank] at taken
    cases taken
    exact .blank calm noText blank
  · rw [if_neg blank] at taken
    cases symbol : Operator.ofSymbol? t.text with
    | some op =>
      rw [symbol] at taken
      exact step_of_operator calm symbol taken
    | none =>
      cases read : Word.read? t.text with
      | some w =>
        rw [symbol, read] at taken
        exact step_of_word calm noText read taken
      | none =>
        simp only [symbol, read] at taken
        by_cases comma : t.text = ","
        · rw [if_pos comma] at taken
          exact step_of_endArgument calm comma taken
        · rw [if_neg comma] at taken
          by_cases closing : t.text = ")"
          · rw [if_pos closing] at taken
            exact step_of_endCall calm closing taken
          · rw [if_neg closing] at taken
            by_cases blockEnds : t.text = blockEnd
            · rw [if_pos blockEnds] at taken
              exact step_of_endBlock calm blockEnds taken
            · rw [if_neg blockEnds] at taken
              cases taken

/-- Every token that is taken in is taken in in one of the ways. -/
theorem step_of_step {s s' : State} {t : Token} (taken : s.step t = .ok s') : Step s t s' := by
  obtain ⟨top, below, phase⟩ := s
  cases phase with
  | waiting op sign =>
    simp only [step] at taken
    split at taken
    · rename_i blank
      cases taken
      exact .wait blank
    · simp only [rightOperand] at taken
      split at taken
      · cases taken
      · cases taken
      · rename_i w statement read has
        cases taken
        exact .operand (.right has) read
  | ready =>
    cases top with
    | concat parts => exact step_of_inText rfl (Except.ok.inj taken)
    | expression | call => exact step_of_inExpression rfl rfl taken
  | named name =>
    cases top with
    | concat parts => exact step_of_inText rfl (Except.ok.inj taken)
    | expression | call =>
      simp only [step] at taken
      split at taken
      · rename_i opening
        cases taken
        exact .openCall rfl opening
      · exact step_of_inExpression rfl rfl taken

/-- Punctuation is neither blank nor an operator nor a word. -/
theorem inExpression_eq_of_punctuation {s : State} {t : Token}
    (punctuation : t.text = "," ∨ t.text = ")" ∨ t.text = blockEnd) :
    s.inExpression t =
      if t.text = "," then s.endArgument t
      else if t.text = ")" then s.endCall t
      else if t.text = blockEnd then s.endBlock t
      else .error t.unexpected := by
  have visible : t.isBlank = false ∧ Operator.ofSymbol? t.text = none ∧
      Word.read? t.text = none := by
    rw [Token.isBlank]
    rcases punctuation with same | same | same <;> rw [same] <;> exact ⟨by decide, by decide, rfl⟩
  simp only [inExpression, visible, Bool.false_eq_true, if_false]

/-- Each of the ways is taken. -/
theorem step_eq_of_step {s s' : State} {t : Token} (way : Step s t s') : s.step t = .ok s' := by
  cases way with
  | @literal parts below phase _ calm notStart =>
    cases phase with
    | waiting => cases calm
    | _ => simp only [step, inText, notStart, if_false]
  | @openBlock parts below phase _ calm start =>
    cases phase with
    | waiting => cases calm
    | _ => simp only [step, inText, start, if_true]
  | blank calm noText blank =>
    have notCall : t.text ≠ "(" := by
      intro same
      rw [Token.isBlank, same] at blank
      cases blank
    rw [step_eq_inExpression calm noText notCall]
    simp only [inExpression, blank, if_true, settle]
  | wait blank => simp only [step, blank, if_true]
  | @operator top below phase op _ statement calm has symbol =>
    have known : Operator.ofSymbol? t.text = some op := by
      rw [symbol, Operator.ofSymbol?_symbol]
    have notCall : t.text ≠ "(" := by
      intro same
      rw [same] at known
      cases known
    rw [step_eq_inExpression calm (Frame.isText_of_statement? has) notCall]
    simp only [inExpression, Token.isBlank_of_ofSymbol? known, Bool.false_eq_true, if_false, known,
      operator, has]
  | @operand _ grow w _ expects read =>
    have visible := Token.isBlank_of_read? read
    cases expects with
    | @first top below phase calm noText none =>
      have notCall : t.text ≠ "(" := by
        intro same
        rw [same] at read
        cases read
      rw [step_eq_inExpression calm noText notCall]
      simp only [inExpression, visible, Bool.false_eq_true, if_false, Word.ofSymbol?_of_read? read,
        read, word, noText, none, Option.isSome_none, Bool.or_self, id]
    | right has =>
      simp only [step, visible, Bool.false_eq_true, if_false, rightOperand, read, has]
  | @openCall top below name _ noText opening =>
    cases top with
    | concat parts => cases noText
    | _ => exact if_pos opening
  | endArgument calm comma =>
    rw [step_eq_inExpression calm rfl (by rw [comma]; decide),
      inExpression_eq_of_punctuation (.inl comma), if_pos comma]
    rfl
  | @endCall name arguments current frame below _ _ statement calm closing complete has =>
    rw [step_eq_inExpression calm rfl (by rw [closing]; decide),
      inExpression_eq_of_punctuation (.inr (.inl closing)), if_neg (by rw [closing]; decide),
      if_pos closing]
    cases current with
    | none =>
      rw [complete rfl]
      simp only [endCall, has]
    | some argument => simp only [endCall, has]
  | endBlock calm closing =>
    rw [step_eq_inExpression calm rfl (by rw [closing]; decide),
      inExpression_eq_of_punctuation (.inr (.inr closing)), if_neg (by rw [closing]; decide),
      if_neg (by rw [closing]; decide), if_pos closing]
    rfl

/-- A token is taken in exactly in one of the ways. -/
theorem step_eq_ok_iff {s s' : State} {t : Token} : s.step t = .ok s' ↔ Step s t s' :=
  ⟨step_of_step, step_eq_of_step⟩

end State

/-! ## Reading several tokens -/

/-- Reading tokens leads from one state to another. -/
def Reaches (s : State) (ts : List Token) (s' : State) : Prop :=
  ts.foldlM State.step s = .ok s'

namespace Reaches

theorem nil (s : State) : Reaches s [] s := rfl

theorem append_iff {s s' : State} {ts us : List Token} :
    Reaches s (ts ++ us) s' ↔ ∃ between, Reaches s ts between ∧ Reaches between us s' := by
  rw [Reaches, List.foldlM_append]
  cases first : ts.foldlM State.step s with
  | error e =>
    constructor
    · intro reached
      cases reached
    · rintro ⟨between, reached, -⟩
      cases first.symm.trans reached
  | ok between =>
    refine ⟨fun reached => ⟨between, first, reached⟩, ?_⟩
    rintro ⟨between', reached, later⟩
    cases first.symm.trans reached
    exact later

theorem singleton_iff {s s' : State} {t : Token} : Reaches s [t] s' ↔ Step s t s' := by
  rw [← State.step_eq_ok_iff, Reaches, List.foldlM_cons]
  cases s.step t with
  | error e => exact Iff.rfl
  | ok between => exact Iff.rfl

theorem append {s between s' : State} {ts us : List Token} (first : Reaches s ts between)
    (second : Reaches between us s') : Reaches s (ts ++ us) s' :=
  append_iff.mpr ⟨between, first, second⟩

theorem of_step {s s' : State} {t : Token} (way : Step s t s') : Reaches s [t] s' :=
  singleton_iff.mpr way

/-- What holds before the first token and is kept by each token that is taken in holds of every
state that is reached, together with the tokens that led to it. -/
theorem induct {start : State} (P : List Token → State → Prop) (init : P [] start)
    (keep : ∀ ts s t s', P ts s → Step s t s' → P (ts ++ [t]) s') {ts : List Token} {s : State}
    (reached : Reaches start ts s) : P ts s := by
  induction ts using List.reverseRecOn generalizing s with
  | nil =>
    cases reached
    exact init
  | append_singleton ts t ih =>
    obtain ⟨between, before, last⟩ := append_iff.mp reached
    exact keep ts between t s (ih before) (singleton_iff.mp last)

end Reaches

end Inlay.Parse

namespace Inlay

open Parse

/-- Tokens are accepted when the state that they lead to has nothing open but its root and no
operator that waits. The term is that of the root. -/
theorem parse_eq_ok_iff {mode : Mode} {ts : List Token} {t : Term} :
    parse mode ts = .ok t ↔
      ∃ top phase, Reaches (.start mode) ts ⟨top, [], phase⟩ ∧ phase.isWaiting = false ∧
        t = top.close := by
  unfold parse
  cases read : ts.foldlM State.step (State.start mode) with
  | error e =>
    constructor
    · intro accepted
      cases accepted
    · rintro ⟨top, phase, reached, -⟩
      cases read.symm.trans reached
  | ok s =>
    obtain ⟨top, below, phase⟩ := s
    constructor
    · intro accepted
      change State.finish ⟨top, below, phase⟩ (stopOf ts) = .ok t at accepted
      cases phase with
      | waiting => cases accepted
      | ready | named =>
        cases below with
        | nil =>
          cases accepted
          exact ⟨top, _, read, rfl, rfl⟩
        | cons => cases accepted
    · rintro ⟨top', phase', reached, calm, rfl⟩
      cases read.symm.trans reached
      cases phase with
      | waiting => cases calm
      | _ => rfl

end Inlay
