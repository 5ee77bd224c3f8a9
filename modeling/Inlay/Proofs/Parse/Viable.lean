import Inlay.Proofs.Parse.Stack

/-!
# Faults are found as early as they can be

Tokens are viable when more tokens can follow so that all are accepted. `viable_iff_reaches` says
that these are exactly the tokens that can be taken in one after the other: from every state of a
reading a completion is at hand, which gives a waiting operator or a missing argument an operand,
closes the open calls from the inside out and then the block.

So a token that is refused makes viable tokens unviable, and nothing that follows can change the
refusal; and what is refused only at its end is viable, and misses something there.
-/

namespace Inlay

/-- Whether a fault is one of the end: something is missing there, and no token is to blame. -/
def ParseFault.isEnd : ParseFault → Bool
  | missingRightOperand _ => true
  | unexpectedEnd => true
  | _ => false

/-- A refusal blames a token: it gives the place of the token, and its fault is of one of the kinds
that name a token, with the text of this one. -/
structure ParseError.Blames (e : ParseError) (t : Token) : Prop where
  position : e.position = t.position
  fault : e.fault = .unexpectedToken t.text ∨ e.fault = .unexpectedRightOperand t.text ∨
    e.fault = .missingLeftOperand t.text

/-- A token that cannot stand where it stands is to blame. -/
theorem Token.blames_unexpected (t : Token) : t.unexpected.Blames t :=
  ⟨rfl, .inl rfl⟩

/-- No token is to blame for a fault of the end. -/
theorem ParseError.Blames.isEnd {e : ParseError} {t : Token} (blames : e.Blames t) :
    e.fault.isEnd = false := by
  rcases blames.fault with same | same | same
  all_goals
    rw [same]
    rfl

namespace Parse

/-- Whether more tokens can follow some so that all are accepted. -/
def Viable (mode : Mode) (ts : List Token) : Prop :=
  ∃ later t, parse mode (ts ++ later) = .ok t

/-- Reading stops at a token that follows others: these are taken in, and it is refused. -/
def StopsAt (mode : Mode) (before : List Token) (t : Token) (e : ParseError) : Prop :=
  ∃ s, Reaches (.start mode) before s ∧ s.step t = .error e

/-! ## Completions -/

/-- Whether no argument is missing after a comma. -/
def Frame.Complete : Frame → Prop
  | .call _ arguments current => current = none → arguments = []
  | _ => True

/-- A part that has a statement is complete. -/
theorem Frame.complete_of_statement? {frame : Frame} {statement : Term}
    (has : frame.statement? = some statement) : frame.Complete := by
  cases frame with
  | concat | expression => trivial
  | call name arguments current =>
    intro none
    cases none.symm.trans has

/-- Closing the calls and the block that are open leaves the root alone. The statement of the
innermost part is arbitrary because each call that is closed changes the one below it. -/
theorem Stacked.completes {mode : Mode} {top : Frame} {below : List Frame}
    (stacked : Stacked mode top below) {statement : Option Term} {phase : Phase}
    (complete : (top.withStatement statement).Complete) (calm : phase.isWaiting = false) :
    ∃ later root phase', Reaches ⟨top.withStatement statement, below, phase⟩ later
      ⟨root, [], phase'⟩ ∧ phase'.isWaiting = false := by
  induction stacked generalizing statement phase with
  | text => exact ⟨[], _, _, .nil _, calm⟩
  | expression => exact ⟨[], _, _, .nil _, calm⟩
  | block => exact ⟨[⟨blockEnd, .start⟩], _, _, .of_step (.endBlock calm rfl), rfl⟩
  | @call mode frame below entered name arguments current _ has place ih =>
    have closed : Reaches ⟨.call name arguments statement, frame :: below, phase⟩
        [⟨")", .start⟩] _ := .of_step (.endCall calm rfl complete has)
    have held := Frame.statement?_withStatement (Frame.isText_of_statement? has)
      (some (entered.withRightLeaf (Frame.call name arguments statement).close))
    obtain ⟨later, root, phase', reached, calm'⟩ :=
      ih (Frame.complete_of_statement? held) Phase.isWaiting_ready
    exact ⟨_, root, phase', closed.append reached, calm'⟩

/-- Where an operand is expected a word makes the innermost part complete. -/
theorem Expects.completes {s : State} {grow : Term → Term} (expects : Expects s grow) :
    ∃ later statement phase, Reaches s later ⟨s.top.withStatement statement, s.below, phase⟩ ∧
      (s.top.withStatement statement).Complete ∧ phase.isWaiting = false := by
  have read : Word.read? "true" = some (.literal (.boolean true)) := rfl
  have held := Frame.statement?_withStatement expects.isText (some (grow (.boolean true)))
  exact ⟨[⟨"true", .start⟩], _, _, .of_step (.operand expects read),
    Frame.complete_of_statement? held, rfl⟩

namespace State

/-- From a state of a reading tokens lead to one in which nothing waits and nothing is missing, and
only the statement of the innermost part has changed. -/
theorem Sound.settles {mode : Mode} {s : State} (sound : s.Sound mode) :
    ∃ later statement phase, Reaches s later ⟨s.top.withStatement statement, s.below, phase⟩ ∧
      (s.top.withStatement statement).Complete ∧ phase.isWaiting = false := by
  obtain ⟨top, below, phase⟩ := s
  by_cases calm : phase.isWaiting = false
  · by_cases complete : top.Complete
    · refine ⟨[], top.statement?, phase, ?_, ?_, calm⟩
      · rw [Frame.withStatement_statement?]
        exact .nil _
      · rwa [Frame.withStatement_statement?]
    · cases top with
      | concat | expression => exact absurd trivial complete
      | call name arguments current =>
        cases current with
        | none => exact (Expects.first calm rfl rfl).completes
        | some argument => exact (complete fun none => by cases none).elim
  · cases phase with
    | ready | named => exact absurd rfl calm
    | waiting op sign =>
      obtain ⟨statement, has⟩ := sound.phase
      exact (Expects.right has).completes

/-- From a state of a reading tokens lead to acceptance. -/
theorem Sound.completes {mode : Mode} {s : State} (sound : s.Sound mode) :
    ∃ later root phase, Reaches s later ⟨root, [], phase⟩ ∧ phase.isWaiting = false := by
  obtain ⟨first, statement, phase, settled, complete, calm⟩ := sound.settles
  obtain ⟨later, root, phase', closed, calm'⟩ := sound.stacked.completes complete calm
  exact ⟨_, root, phase', settled.append closed, calm'⟩

end State

/-- Tokens are viable exactly when they can be taken in one after the other. -/
theorem viable_iff_reaches {mode : Mode} {ts : List Token} :
    Viable mode ts ↔ ∃ s, Reaches (.start mode) ts s := by
  constructor
  · rintro ⟨later, t, accepted⟩
    obtain ⟨top, phase, reached, -⟩ := parse_eq_ok_iff.mp accepted
    obtain ⟨s, first, -⟩ := Reaches.append_iff.mp reached
    exact ⟨s, first⟩
  · rintro ⟨s, reached⟩
    obtain ⟨later, root, phase, completed, calm⟩ := (State.sound_of_reaches reached).completes
    exact ⟨later, root.close, parse_eq_ok_iff.mpr
      ⟨root, phase, reached.append completed, calm, rfl⟩⟩

/-! ## Refusals -/

/-- The ways in which a state refuses a token: the token cannot stand there, it is no operand where
an operator waits for one, or it is an operator without a left operand. -/
inductive Refuses (s : State) (t : Token) : ParseError → Prop
  | unexpected : Refuses s t t.unexpected
  | rightOperand {op : Operator} {sign : Token} : s.phase = .waiting op sign →
      Refuses s t ⟨t.position, .unexpectedRightOperand t.text⟩
  | leftOperand {op : Operator} : t.text = op.symbol →
      Refuses s t ⟨t.position, .missingLeftOperand t.text⟩

/-- In each of these ways the token is to blame. -/
theorem Refuses.blames {s : State} {t : Token} {e : ParseError} (refuses : Refuses s t e) :
    e.Blames t := by
  cases refuses with
  | unexpected => exact t.blames_unexpected
  | rightOperand => exact ⟨rfl, .inr (.inl rfl)⟩
  | leftOperand => exact ⟨rfl, .inr (.inr rfl)⟩

namespace State

variable {s : State} {t : Token} {e : ParseError}

theorem unexpected_of_word {w : Word} (refused : s.word w t = .error e) : e = t.unexpected := by
  unfold word at refused
  split at refused
  · cases refused
    rfl
  · cases refused

theorem unexpected_of_endArgument (refused : s.endArgument t = .error e) : e = t.unexpected := by
  unfold endArgument at refused
  split at refused
  · cases refused
  · cases refused
    rfl

theorem unexpected_of_endCall (refused : s.endCall t = .error e) : e = t.unexpected := by
  unfold endCall at refused
  split at refused
  · cases refused
    rfl
  · split at refused
    · cases refused
    · cases refused
      rfl
  · cases refused
    rfl

theorem unexpected_of_endBlock (refused : s.endBlock t = .error e) : e = t.unexpected := by
  unfold endBlock at refused
  split at refused
  · cases refused
  · cases refused
    rfl

theorem refuses_of_operator {op : Operator} (symbol : Operator.ofSymbol? t.text = some op)
    (refused : s.operator op t = .error e) : Refuses s t e := by
  unfold operator at refused
  split at refused
  · cases refused
  · cases refused
    exact .leftOperand (Operator.eq_symbol_of_ofSymbol? symbol)

theorem refuses_of_rightOperand {op : Operator} {sign : Token} (waits : s.phase = .waiting op sign)
    (refused : s.rightOperand op t = .error e) : Refuses s t e := by
  unfold rightOperand at refused
  split at refused
  · cases refused
    exact .rightOperand waits
  · cases refused
    exact .unexpected
  · cases refused

/-- In an expression only an operator is refused otherwise than as unexpected. -/
theorem refuses_of_inExpression (refused : s.inExpression t = .error e) : Refuses s t e := by
  unfold inExpression at refused
  split at refused
  · cases refused
  · split at refused
    · rename_i symbol
      exact refuses_of_operator symbol refused
    · have same : e = t.unexpected := by
        split at refused
        · exact unexpected_of_word refused
        · split at refused
          · exact unexpected_of_endArgument refused
          · split at refused
            · exact unexpected_of_endCall refused
            · split at refused
              · exact unexpected_of_endBlock refused
              · cases refused
                rfl
      subst same
      exact .unexpected

/-- A token is refused in one of the ways. -/
theorem refuses_of_step (refused : s.step t = .error e) : Refuses s t e := by
  unfold step at refused
  split at refused
  · rename_i waits
    split at refused
    · cases refused
    · exact refuses_of_rightOperand waits refused
  · cases refused
  · split at refused
    · cases refused
    · exact refuses_of_inExpression refused
  · exact refuses_of_inExpression refused

/-- A token that is refused is to blame. -/
theorem blames_of_step (refused : s.step t = .error e) : e.Blames t :=
  (refuses_of_step refused).blames

/-- What is refused at the end has a fault of the end. -/
theorem isEnd_of_finish {stop : Position}
    (refused : s.finish stop = .error e) : e.fault.isEnd = true := by
  unfold finish at refused
  split at refused <;> cases refused <;> rfl

end State

/-- Tokens cannot all be taken in exactly if there is one at which reading stops. -/
theorem foldlM_step_eq_error_iff {s : State} {ts : List Token} {e : ParseError} :
    ts.foldlM State.step s = .error e ↔
      ∃ before t after between, ts = before ++ t :: after ∧ Reaches s before between ∧
        between.step t = .error e := by
  constructor
  · intro refused
    induction ts generalizing s with
    | nil => cases refused
    | cons t ts ih =>
      rw [List.foldlM_cons] at refused
      cases taken : s.step t with
      | error e' =>
        rw [taken] at refused
        cases refused
        exact ⟨[], t, ts, s, rfl, .nil s, taken⟩
      | ok s' =>
        rw [taken] at refused
        obtain ⟨before, u, after, between, rfl, reached, stops⟩ := ih refused
        have first : Reaches s [t] s' := .of_step (State.step_of_step taken)
        exact ⟨t :: before, u, after, between, rfl, first.append reached, stops⟩
  · rintro ⟨before, t, after, between, rfl, reached, stops⟩
    rw [List.foldlM_append, show before.foldlM State.step s = .ok between from reached]
    show (t :: after).foldlM State.step between = .error e
    rw [List.foldlM_cons, stops]
    rfl

/-- What follows a token at which reading stops is not looked at. -/
theorem StopsAt.parse_eq {mode : Mode} {before : List Token} {t : Token} {e : ParseError}
    (stops : StopsAt mode before t e) (later : List Token) :
    parse mode (before ++ t :: later) = .error e := by
  obtain ⟨s, reached, refused⟩ := stops
  have error := foldlM_step_eq_error_iff.mpr ⟨before, t, later, s, rfl, reached, refused⟩
  unfold parse
  rw [error]
  rfl

/-- A refusal is one of a token at which reading stops, or of the end of tokens that can be taken
in. -/
theorem stopsAt_or_finish_of_parse {mode : Mode} {ts : List Token} {e : ParseError}
    (refused : parse mode ts = .error e) :
    (∃ before t after, ts = before ++ t :: after ∧ StopsAt mode before t e) ∨
      ∃ s, Reaches (.start mode) ts s ∧ s.finish (stopOf ts) = .error e := by
  unfold parse at refused
  cases read : ts.foldlM State.step (.start mode) with
  | error e' =>
    rw [read] at refused
    cases refused
    obtain ⟨before, t, after, s, whole, reached, stops⟩ := foldlM_step_eq_error_iff.mp read
    exact .inl ⟨before, t, after, whole, s, reached, stops⟩
  | ok s =>
    rw [read] at refused
    exact .inr ⟨s, read, refused⟩

/-- Reading stops at a token exactly where it makes viable tokens unviable. -/
theorem exists_stopsAt_iff {mode : Mode} {before : List Token} {t : Token} :
    (∃ e, StopsAt mode before t e) ↔ Viable mode before ∧ ¬ Viable mode (before ++ [t]) := by
  constructor
  · rintro ⟨e, s, reached, refused⟩
    refine ⟨viable_iff_reaches.mpr ⟨s, reached⟩, ?_⟩
    rintro ⟨later, u, accepted⟩
    have stops : StopsAt mode before t e := ⟨s, reached, refused⟩
    rw [List.append_assoc, List.singleton_append, stops.parse_eq] at accepted
    cases accepted
  · rintro ⟨viable, unviable⟩
    obtain ⟨s, reached⟩ := viable_iff_reaches.mp viable
    cases taken : s.step t with
    | error e => exact ⟨e, s, reached, taken⟩
    | ok s' =>
      have longer := reached.append (.of_step (State.step_of_step taken))
      exact absurd (viable_iff_reaches.mpr ⟨s', longer⟩) unviable

end Parse

open Parse

/-- Reading fails at a token exactly where the tokens before it are viable and no longer are with
it. The refusal blames the token, and all longer sources that begin alike have the same one. Every
refusal of a kind that blames a token is of this sort, and the others come exactly when the whole is
viable and not accepted. -/
theorem parse_fails_earliest (mode : Mode) (ts : List Token) :
    (∀ before t after, ts = before ++ t :: after →
      ((∃ e, parse mode ts = .error e ∧ StopsAt mode before t e) ↔
        Viable mode before ∧ ¬ Viable mode (before ++ [t])) ∧
      ∀ e, StopsAt mode before t e →
        e.Blames t ∧ ∀ later, parse mode (before ++ t :: later) = .error e) ∧
    (∀ e, parse mode ts = .error e →
      (e.fault.isEnd = false ↔
        ∃ before t after, ts = before ++ t :: after ∧ StopsAt mode before t e)) ∧
    ((∃ e, parse mode ts = .error e ∧ e.fault.isEnd = true) ↔
      Viable mode ts ∧ ∀ t, parse mode ts ≠ .ok t) := by
  refine ⟨?_, ?_, ?_⟩
  · rintro before t after rfl
    constructor
    · rw [← exists_stopsAt_iff]
      constructor
      · rintro ⟨e, -, stops⟩
        exact ⟨e, stops⟩
      · rintro ⟨e, stops⟩
        exact ⟨e, stops.parse_eq after, stops⟩
    · rintro e ⟨s, reached, refused⟩
      exact ⟨State.blames_of_step refused, StopsAt.parse_eq ⟨s, reached, refused⟩⟩
  · intro e failed
    constructor
    · intro blaming
      rcases stopsAt_or_finish_of_parse failed with stops | ⟨s, -, finished⟩
      · exact stops
      · cases blaming.symm.trans (State.isEnd_of_finish finished)
    · rintro ⟨before, t, after, -, s, -, refused⟩
      exact (State.blames_of_step refused).isEnd
  · constructor
    · rintro ⟨e, failed, ends⟩
      refine ⟨?_, fun t accepted => ?_⟩
      · rcases stopsAt_or_finish_of_parse failed with ⟨_, t, _, _, s, _, refused⟩ | ⟨s, reached, -⟩
        · cases ends.symm.trans (State.blames_of_step refused).isEnd
        · exact viable_iff_reaches.mpr ⟨s, reached⟩
      · cases failed.symm.trans accepted
    · rintro ⟨⟨later, u, accepted⟩, unaccepted⟩
      cases failed : parse mode ts with
      | ok t => exact absurd failed (unaccepted t)
      | error e =>
        refine ⟨e, rfl, ?_⟩
        rcases stopsAt_or_finish_of_parse failed with ⟨before, t, after, rfl, stops⟩ | ⟨s, -, last⟩
        · rw [List.append_assoc, List.cons_append, stops.parse_eq] at accepted
          cases accepted
        · exact State.isEnd_of_finish last

/-- An argument that is missing after a comma is not missed before the call is closed, and then at
once. -/
theorem parse_fails_earliest_missing_argument :
    let before : List Token := [⟨"f", ⟨1, 1⟩⟩, ⟨"(", ⟨1, 2⟩⟩, ⟨"a", ⟨1, 3⟩⟩, ⟨",", ⟨1, 4⟩⟩]
    let t : Token := ⟨")", ⟨1, 5⟩⟩
    let e : ParseError := ⟨⟨1, 5⟩, .unexpectedToken ")"⟩
    StopsAt .expression before t e ∧ Viable .expression before ∧
      ¬ Viable .expression (before ++ [t]) ∧
      (∀ later, parse .expression (before ++ t :: later) = .error e) ∧
      ∃ e, parse .expression before = .error e ∧ e.fault.isEnd = true := by
  intro before t e
  have stops : StopsAt .expression before t e := by
    refine ⟨⟨.call "f" [.reference ["a"]] none, [.expression (some (.call "f" []))], .ready⟩,
      rfl, ?_⟩
    exact State.inExpression_eq_of_punctuation (.inr (.inl rfl))
  obtain ⟨here, -, -⟩ := parse_fails_earliest .expression (before ++ [t])
  obtain ⟨earliest, blamed⟩ := here before t [] rfl
  obtain ⟨viable, unviable⟩ := earliest.mp ⟨e, stops.parse_eq [], stops⟩
  obtain ⟨-, -, ends⟩ := parse_fails_earliest .expression before
  exact ⟨stops, viable, unviable, (blamed e stops).2, ends.mpr ⟨viable, nofun⟩⟩

end Inlay
