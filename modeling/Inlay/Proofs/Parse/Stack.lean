import Inlay.Proofs.Parse.Step

/-!
# The parts that are open

Which stacks of open parts a reading can have. The root of the mode lies at the bottom, and text is
nowhere else; on text stands at most the statement of one block; everything higher is a call. Below
an open call stands the part in which it was entered, with a statement whose last operand is the
call without its arguments, so that closing it always has something to replace.

`State.Sound` adds what the phase says about the innermost part. It holds before the first token and
each token that is taken in keeps it, so that it holds of every state that is reached.
-/

namespace Inlay.Parse

/-- An innermost part and the parts below it, down to the root of a mode. -/
inductive Stacked : Mode → Frame → List Frame → Prop
  | text {parts : List Term} : Stacked .concat (.concat parts) []
  | expression {statement : Option Term} : Stacked .expression (.expression statement) []
  | block {parts : List Term} {statement : Option Term} :
      Stacked .concat (.expression statement) [.concat parts]
  | call {mode : Mode} {frame : Frame} {below : List Frame} {entered : Term} {name : String}
      {arguments : List Term} {current : Option Term} : Stacked mode frame below →
      frame.statement? = some entered → entered.rightLeaf = .call name [] →
      Stacked mode (.call name arguments current) (frame :: below)

/-- What a phase says about the innermost part: a name is the last operand of its statement, and an
operator waits on the right of one. -/
def Phase.Fits : Phase → Frame → Prop
  | .ready, _ => True
  | .named name, top =>
    ∃ statement, top.statement? = some statement ∧ statement.rightLeaf = .ofName name
  | .waiting .., top => ∃ statement, top.statement? = some statement

/-- A state that a reading in a mode can be in. -/
structure State.Sound (mode : Mode) (s : State) : Prop where
  stacked : Stacked mode s.top s.below
  phase : s.phase.Fits s.top

/-- The statement of the innermost part is free. -/
theorem Stacked.withStatement {mode : Mode} {top : Frame} {below : List Frame}
    (stacked : Stacked mode top below) (statement : Option Term) :
    Stacked mode (top.withStatement statement) below := by
  cases stacked with
  | text => exact .text
  | expression => exact .expression
  | block => exact .block
  | call stacked has place => exact .call stacked has place

/-- The last operand is the one that was taken in. -/
theorem Expects.rightLeaf {s : State} {grow : Term → Term} (expects : Expects s grow)
    (operand : Term) : (grow operand).rightLeaf = operand.rightLeaf := by
  cases expects with
  | first => rfl
  | right => exact Term.rightLeaf_splice _ _ operand

namespace State

theorem sound_start (mode : Mode) : (start mode).Sound mode := by
  cases mode with
  | expression => exact ⟨.expression, trivial⟩
  | concat => exact ⟨.text, trivial⟩

/-- A token that is taken in leads from a state of a reading to another. -/
theorem Sound.step {mode : Mode} {s s' : State} {t : Token} (sound : s.Sound mode)
    (way : Step s t s') : s'.Sound mode := by
  obtain ⟨stacked, fits⟩ := sound
  cases way with
  | literal =>
    cases stacked with
    | text => exact ⟨.text, trivial⟩
  | openBlock =>
    cases stacked with
    | text => exact ⟨.block, trivial⟩
  | blank => exact ⟨stacked, trivial⟩
  | wait => exact ⟨stacked, fits⟩
  | operator _ has => exact ⟨stacked, _, has⟩
  | @operand _ grow w _ expects =>
    refine ⟨stacked.withStatement _, ?_⟩
    have held := Frame.statement?_withStatement expects.isText (some (grow w.term))
    cases w with
    | literal => trivial
    | name name => exact ⟨_, held, expects.rightLeaf (.ofName name)⟩
  | @openCall top below name _ noText =>
    obtain ⟨statement, has, -⟩ := fits
    have entered := Frame.statement?_withStatement noText
      (some (statement.withRightLeaf (.call name [])))
    simp only [openCall, has, Option.map_some]
    exact ⟨.call (stacked.withStatement _) entered (Term.rightLeaf_withRightLeaf statement _),
      trivial⟩
  | endArgument =>
    cases stacked with
    | call stacked has place => exact ⟨.call stacked has place, trivial⟩
  | endCall =>
    cases stacked with
    | call stacked => exact ⟨stacked.withStatement _, trivial⟩
  | endBlock =>
    cases stacked with
    | block => exact ⟨.text, trivial⟩

/-- Every state that is reached is one of a reading. -/
theorem sound_of_reaches {mode : Mode} {ts : List Token} {s : State}
    (reached : Reaches (start mode) ts s) : s.Sound mode :=
  reached.induct (fun _ s => s.Sound mode) (sound_start mode) fun _ _ _ _ sound way =>
    sound.step way

end State

end Inlay.Parse
