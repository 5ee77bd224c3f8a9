import Inlay.Parse.State
import Inlay.Proofs.Token.Leftmost

/-!
# Places play no part in reading

Where a token stands is said in refusals and nowhere else. Tokens without their places are read as
the tokens are: `State.step_unplaced` says so of one token and `parse_unplaced` of all, up to the
places of the refusals. So what a source is read as depends on the texts of its tokens alone.
-/

namespace Inlay

/-- A token as if it stood at the start. -/
def Token.unplaced (t : Token) : Token :=
  ⟨t.text, .start⟩

/-- A refusal as if it were one of the start. -/
def ParseError.unplaced (e : ParseError) : ParseError :=
  ⟨.start, e.fault⟩

@[simp] theorem Token.text_unplaced (t : Token) : t.unplaced.text = t.text := rfl

namespace Parse

/-- A phase without the place of an operator that waits. -/
def Phase.unplaced : Phase → Phase
  | .ready => .ready
  | .named name => .named name
  | .waiting op sign => .waiting op sign.unplaced

namespace State

/-- A state without places. -/
def unplaced (s : State) : State :=
  { s with phase := s.phase.unplaced }

/-- What becomes of a state, without places. -/
def unplacedOutcome : Except ParseError State → Except ParseError State
  | .ok s => .ok s.unplaced
  | .error e => .error e.unplaced

/-- A choice that places have no part in is the same choice without them. -/
theorem unplacedOutcome_ite {c : Prop} [Decidable c]
    {first first' second second' : Except ParseError State}
    (holds : c → first = unplacedOutcome first') (fails : ¬ c → second = unplacedOutcome second') :
    (if c then first else second) = unplacedOutcome (if c then first' else second') := by
  by_cases h : c
  · rw [if_pos h, if_pos h]
    exact holds h
  · rw [if_neg h, if_neg h]
    exact fails h

variable (s : State) (t : Token)

theorem operator_unplaced (op : Operator) :
    s.unplaced.operator op t.unplaced = unplacedOutcome (s.operator op t) := by
  obtain ⟨top, below, phase⟩ := s
  simp only [operator, unplaced]
  cases top.statement? <;> rfl

theorem word_unplaced (w : Word) :
    s.unplaced.word w t.unplaced = unplacedOutcome (s.word w t) := by
  refine unplacedOutcome_ite (fun _ => rfl) fun _ => ?_
  cases w <;> rfl

theorem rightOperand_unplaced (op : Operator) :
    s.unplaced.rightOperand op t.unplaced = unplacedOutcome (s.rightOperand op t) := by
  obtain ⟨top, below, phase⟩ := s
  simp only [rightOperand, unplaced, Token.text_unplaced]
  cases Word.read? t.text with
  | none => rfl
  | some w =>
    cases top.statement? with
    | none => rfl
    | some statement => cases w <;> rfl

theorem endArgument_unplaced :
    s.unplaced.endArgument t.unplaced = unplacedOutcome (s.endArgument t) := by
  obtain ⟨top, below, phase⟩ := s
  cases top with
  | concat | expression => rfl
  | call name arguments current => cases current <;> rfl

theorem endCall_unplaced : s.unplaced.endCall t.unplaced = unplacedOutcome (s.endCall t) := by
  obtain ⟨top, below, phase⟩ := s
  cases top with
  | concat | expression => rfl
  | call name arguments current =>
    cases below with
    | nil => cases arguments <;> cases current <;> rfl
    | cons frame below =>
      cases arguments <;> cases current
      case cons.none => rfl
      all_goals
        simp only [endCall, unplaced]
        cases frame.statement? <;> rfl

theorem endBlock_unplaced : s.unplaced.endBlock t.unplaced = unplacedOutcome (s.endBlock t) := by
  obtain ⟨top, below, phase⟩ := s
  cases top with
  | concat | call => rfl
  | expression statement =>
    cases below with
    | nil => rfl
    | cons frame below => cases frame <;> rfl

theorem inExpression_unplaced :
    s.unplaced.inExpression t.unplaced = unplacedOutcome (s.inExpression t) := by
  refine unplacedOutcome_ite (fun _ => rfl) fun _ => ?_
  rw [Token.text_unplaced]
  cases Operator.ofSymbol? t.text with
  | some op => exact operator_unplaced s t op
  | none =>
    dsimp only
    cases Word.read? t.text with
    | some w => exact word_unplaced s t w
    | none =>
      refine unplacedOutcome_ite (fun _ => endArgument_unplaced s t) fun _ => ?_
      refine unplacedOutcome_ite (fun _ => endCall_unplaced s t) fun _ => ?_
      exact unplacedOutcome_ite (fun _ => endBlock_unplaced s t) fun _ => rfl

theorem inText_unplaced (parts : List Term) :
    .ok (s.unplaced.inText parts t.unplaced) = unplacedOutcome (.ok (s.inText parts t)) := by
  unfold inText
  rw [apply_ite Except.ok, apply_ite Except.ok]
  exact unplacedOutcome_ite (fun _ => rfl) fun _ => rfl

/-- A token without its place is taken in as the token is. -/
theorem step_unplaced : s.unplaced.step t.unplaced = unplacedOutcome (s.step t) := by
  obtain ⟨top, below, phase⟩ := s
  cases phase with
  | waiting op sign =>
    exact unplacedOutcome_ite (fun _ => rfl) fun _ => rightOperand_unplaced _ t op
  | ready =>
    cases top with
    | concat parts => exact inText_unplaced _ t parts
    | expression | call => exact inExpression_unplaced _ t
  | named name =>
    cases top with
    | concat parts => exact inText_unplaced _ t parts
    | expression | call =>
      exact unplacedOutcome_ite (fun _ => rfl) fun _ => inExpression_unplaced _ t

/-- Tokens without their places are taken in as the tokens are. -/
theorem foldlM_step_unplaced (ts : List Token) :
    (ts.map Token.unplaced).foldlM step s.unplaced = unplacedOutcome (ts.foldlM step s) := by
  induction ts generalizing s with
  | nil => rfl
  | cons t ts ih =>
    rw [List.map_cons, List.foldlM_cons, List.foldlM_cons, step_unplaced]
    cases s.step t with
    | error e => rfl
    | ok s' => exact ih s'

/-- Places do not decide how reading ends. -/
theorem finish_unplaced (stop stop' : Position) :
    (s.unplaced.finish stop').mapError ParseError.fault =
      (s.finish stop).mapError ParseError.fault := by
  obtain ⟨top, below, phase⟩ := s
  cases phase <;> cases below <;> rfl

end State

end Parse

open Parse

/-- Tokens without their places are read as the tokens are. -/
theorem parse_unplaced (mode : Mode) (ts : List Token) :
    (parse mode (ts.map Token.unplaced)).mapError ParseError.fault =
      (parse mode ts).mapError ParseError.fault := by
  have start : State.start mode = (State.start mode).unplaced := rfl
  unfold parse
  rw [start, State.foldlM_step_unplaced, ← start]
  cases ts.foldlM State.step (State.start mode) with
  | error e => rfl
  | ok s => exact s.finish_unplaced _ _

/-! ## Pieces of a source -/

/-- A piece as a token without its place. -/
def Cut.token (cut : Cut) : Token :=
  ⟨String.ofList cut.text, .start⟩

/-- The tokens of a source are the pieces of its split. -/
theorem map_unplaced_tokenize {source : String} {cuts : List Cut}
    (split : LeftmostSplit source.toList cuts) :
    (tokenize source).map Token.unplaced = cuts.map Cut.token := by
  have texts := map_text_tokenize source
  rw [Token.split_eq_of_leftmostSplit split] at texts
  have placed : (tokenize source).map Token.unplaced =
      ((tokenize source).map Token.text).map (Token.mk · .start) := by
    rw [List.map_map]
    rfl
  rw [placed, texts, List.map_map, List.map_map]
  rfl

/-- The term of a source is that of its pieces. -/
theorem parse_tokenize_eq_ok_iff {source : String} {cuts : List Cut}
    (split : LeftmostSplit source.toList cuts) {mode : Mode} {t : Term} :
    parse mode (tokenize source) = .ok t ↔ parse mode (cuts.map Cut.token) = .ok t := by
  have same := parse_unplaced mode (tokenize source)
  rw [map_unplaced_tokenize split] at same
  have ok (read : Except ParseError Term) :
      read = .ok t ↔ read.mapError ParseError.fault = .ok t := by
    cases read with
    | error e => exact ⟨nofun, nofun⟩
    | ok u => simp [Except.mapError]
  rw [ok, ok (parse mode (cuts.map Cut.token)), same]

end Inlay
