import Inlay.Proofs.Grammar.Acceptance
import Inlay.Proofs.Parse.Stack
import Inlay.Proofs.Term.Splice

/-!
# Open calls and the places that wait for them

While a call is open, its place in the statement below is held by an argumentless call of the same
name, and nothing but its position tells whose place it is: it is the last operand of the statement
of the part right below. `parse_fills_places` says that the position is always right.

`Layered` describes the open parts of every state that is reached. `Opening` goes back to the state
in which a call was opened: since then nothing below the call has changed, so that closing the call
leads to that state with the finished call in place of the name. What holds the place of a call has
no say in what is read: with any other operand there the outcome is the same term.
-/

namespace Inlay.Parse

open Grammar

/-! ## How open parts lie on each other -/

namespace Frame

/-- Whether a part is the root of a mode, with what has been read into it. -/
def isRoot : Mode → Frame → Bool
  | .expression, expression _ => true
  | .concat, concat _ => true
  | _, _ => false

/-- The last operand of the statement of a part holds the place of a call. -/
def HoldsPlace (frame : Frame) (name : String) : Prop :=
  ∃ statement, frame.statement? = some statement ∧ statement.rightLeaf = .call name []

/-- The part with another last operand of its statement, if it has one. -/
def withLast (frame : Frame) (operand : Term) : Frame :=
  frame.withStatement (frame.statement?.map (·.withRightLeaf operand))

theorem withLast_of_statement? {frame : Frame} {statement : Term}
    (has : frame.statement? = some statement) (operand : Term) :
    frame.withLast operand = frame.withStatement (some (statement.withRightLeaf operand)) := by
  rw [withLast, has, Option.map_some]

theorem statement?_withLast {frame : Frame} {statement : Term}
    (has : frame.statement? = some statement) (operand : Term) :
    (frame.withLast operand).statement? = some (statement.withRightLeaf operand) := by
  rw [withLast_of_statement? has]
  exact statement?_withStatement (isText_of_statement? has) _

/-- Of two last operands the later stays. -/
theorem withLast_withLast (frame : Frame) {first : Term} (single : first.isBinary = false)
    (second : Term) : (frame.withLast first).withLast second = frame.withLast second := by
  cases frame with
  | concat => rfl
  | expression statement | call _ _ statement =>
    cases statement with
    | none => rfl
    | some statement =>
      simp only [withLast, statement?, withStatement, Option.map_some,
        Term.withRightLeaf_withRightLeaf _ _ single]

/-- What replaces the last operand of the statement replaces that of the part. -/
theorem withStatement_withLast {frame : Frame} {statement first : Term}
    (has : frame.statement? = some statement) (single : first.isBinary = false) (second : Term) :
    (frame.withLast first).withStatement
      (some ((statement.withRightLeaf first).withRightLeaf second)) = frame.withLast second := by
  rw [← withLast_of_statement? (statement?_withLast has first), withLast_withLast _ single]

/-- A part that became a call by another statement was that call. -/
theorem exists_of_withStatement_eq_call {frame : Frame} {statement current : Option Term}
    {name : String} {arguments : List Term}
    (same : frame.withStatement statement = .call name arguments current) :
    ∃ earlier, frame = .call name arguments earlier := by
  cases frame with
  | call => cases same; exact ⟨_, rfl⟩
  | _ => cases same

end Frame

/-- What an open part above another rests on: the expression of a block on the text at the bottom,
and a call on a part that holds its place. -/
inductive Rests : Frame → Frame → List Frame → Prop
  | block {statement : Option Term} {parts : List Term} :
      Rests (.expression statement) (.concat parts) []
  | call {name : String} {arguments : List Term} {current : Option Term} {next : Frame}
      {below : List Frame} : next.HoldsPlace name → Rests (.call name arguments current) next below

/-- How open parts lie on each other, the innermost first: the root of the mode lies at the bottom
and only there, so does text, and every other part rests on the one below. -/
structure Layered (mode : Mode) (frames : List Frame) : Prop where
  filled : frames ≠ []
  root : ∀ frame below, frame :: below <:+ frames → (frame.isRoot mode = true ↔ below = [])
  text : ∀ frame below, frame :: below <:+ frames → frame.isText = true → below = []
  upper : ∀ frame next below, frame :: next :: below <:+ frames → Rests frame next below

/-- A root by itself. -/
theorem layered_singleton {mode : Mode} {root : Frame} (isRoot : root.isRoot mode = true) :
    Layered mode [root] := by
  have only : ∀ {frame below}, frame :: below <:+ [root] → frame = root ∧ below = [] := by
    intro frame below suffix
    rcases List.suffix_cons_iff.mp suffix with same | none
    · exact List.cons_eq_cons.mp same
    · cases List.suffix_nil.mp none
  refine ⟨List.cons_ne_nil _ _, ?_, fun _ _ suffix _ => (only suffix).2, ?_⟩
  · intro frame below suffix
    obtain ⟨rfl, rfl⟩ := only suffix
    exact iff_of_true isRoot rfl
  · intro frame next below suffix
    cases (only suffix).2

/-- A part that rests on the innermost one. -/
theorem Layered.cons {mode : Mode} {frame next : Frame} {below : List Frame}
    (layered : Layered mode (next :: below)) (rests : Rests frame next below)
    (upper : frame.isRoot mode = false) : Layered mode (frame :: next :: below) := by
  obtain ⟨-, root, text, others⟩ := layered
  have noText : frame.isText = false := by cases rests <;> rfl
  refine ⟨List.cons_ne_nil _ _, ?_, ?_, ?_⟩
  · intro frame' below' suffix
    rcases List.suffix_cons_iff.mp suffix with same | lower
    · cases same
      rw [upper]
      exact iff_of_false Bool.false_ne_true (List.cons_ne_nil _ _)
    · exact root frame' below' lower
  · intro frame' below' suffix isText
    rcases List.suffix_cons_iff.mp suffix with same | lower
    · cases same
      cases noText.symm.trans isText
    · exact text frame' below' lower isText
  · intro frame' next' below' suffix
    rcases List.suffix_cons_iff.mp suffix with same | lower
    · cases same
      exact rests
    · exact others frame' next' below' lower

/-- The stacks of a reading are layered. -/
theorem Stacked.layered {mode : Mode} {top : Frame} {below : List Frame}
    (stacked : Stacked mode top below) : Layered mode (top :: below) := by
  induction stacked with
  | text => exact layered_singleton rfl
  | expression => exact layered_singleton rfl
  | block => exact (layered_singleton rfl).cons .block rfl
  | @call mode _ _ entered _ _ _ _ has place ih =>
    exact ih.cons (.call ⟨entered, has, place⟩) (by cases mode <;> rfl)

/-! ## Where a call was opened -/

namespace State

/-- The open parts, the innermost first. -/
def frames (s : State) : List Frame :=
  s.top :: s.below

/-- The state with another last operand, and nothing left behind. -/
def withLast (s : State) (operand : Term) : State :=
  ⟨s.top.withLast operand, s.below, .ready⟩

end State

/-- Some of the tokens lead to a state whose last operand is a name, and the parenthesis that
follows them opens a call of this name. -/
structure Opening (mode : Mode) (ts : List Token) (name : String) (s : State) : Prop where
  reached : ∃ before opening inside, ts = before ++ opening :: inside ∧ opening.text = "(" ∧
    Reaches (.start mode) before s
  phase : s.phase = .named name
  last : ∃ statement, s.top.statement? = some statement ∧ statement.rightLeaf = .ofName name

theorem Opening.append {mode : Mode} {ts : List Token} {name : String} {s : State}
    (opening : Opening mode ts name s) (t : Token) : Opening mode (ts ++ [t]) name s := by
  obtain ⟨⟨before, parenthesis, inside, rfl, isOpening, reached⟩, phase, last⟩ := opening
  refine ⟨⟨before, parenthesis, inside ++ [t], ?_, isOpening, reached⟩, phase, last⟩
  rw [List.append_assoc, List.cons_append]

/-- A parenthesis after a name opens a call. -/
theorem opening_of_reaches {mode : Mode} {ts : List Token} {name : String} {s : State} {t : Token}
    (reached : Reaches (.start mode) ts s) (named : s.phase = .named name)
    (isOpening : t.text = "(") : Opening mode (ts ++ [t]) name s := by
  have fits := (State.sound_of_reaches reached).phase
  rw [named] at fits
  exact ⟨⟨ts, t, [], rfl, isOpening, reached⟩, named, fits⟩

/-- With another statement of the innermost part the same calls are open on the same parts. -/
theorem call_open_of_withStatement {top : Frame} {rest below : List Frame}
    {statement current : Option Term} {name : String} {arguments : List Term}
    (isOpen : Frame.call name arguments current :: below <:+ top.withStatement statement :: rest) :
    ∃ arguments current, Frame.call name arguments current :: below <:+ top :: rest := by
  rcases List.suffix_cons_iff.mp isOpen with same | lower
  · obtain ⟨isCall, rfl⟩ := List.cons_eq_cons.mp same
    obtain ⟨earlier, rfl⟩ := Frame.exists_of_withStatement_eq_call isCall.symm
    exact ⟨arguments, earlier, List.suffix_rfl⟩
  · exact ⟨arguments, current, lower.trans (List.suffix_cons _ _)⟩

/-- A call that is open after a token was open before it, on the same parts, or it is the one that
the token opened. -/
theorem Step.call_open {s s' : State} {t : Token} (way : Step s t s') {name : String}
    {arguments : List Term} {current : Option Term} {below : List Frame}
    (isOpen : Frame.call name arguments current :: below <:+ s'.frames) :
    (∃ arguments current, Frame.call name arguments current :: below <:+ s.frames) ∨
      s.phase = .named name ∧ t.text = "(" ∧ below = (s.withLast (.call name [])).frames := by
  cases way with
  | literal =>
    rcases List.suffix_cons_iff.mp isOpen with same | lower
    · cases same
    · exact .inl ⟨_, _, lower.trans (List.suffix_cons _ _)⟩
  | openBlock =>
    rcases List.suffix_cons_iff.mp isOpen with same | lower
    · cases same
    · exact .inl ⟨_, _, lower⟩
  | blank => exact .inl ⟨_, _, isOpen⟩
  | wait => exact .inl ⟨_, _, isOpen⟩
  | operator => exact .inl ⟨_, _, isOpen⟩
  | operand => exact .inl (call_open_of_withStatement isOpen)
  | openCall _ opening =>
    rcases List.suffix_cons_iff.mp isOpen with same | lower
    · cases same
      exact .inr ⟨rfl, opening, rfl⟩
    · exact .inl (call_open_of_withStatement lower)
  | endArgument =>
    rcases List.suffix_cons_iff.mp isOpen with same | lower
    · cases same
      exact .inl ⟨_, _, List.suffix_rfl⟩
    · exact .inl ⟨_, _, lower.trans (List.suffix_cons _ _)⟩
  | endCall =>
    obtain ⟨_, _, lower⟩ := call_open_of_withStatement isOpen
    exact .inl ⟨_, _, lower.trans (List.suffix_cons _ _)⟩
  | endBlock =>
    rcases List.suffix_cons_iff.mp isOpen with same | lower
    · cases same
    · exact .inl ⟨_, _, lower.trans ((List.suffix_cons _ _).trans (List.suffix_cons _ _))⟩

/-- Below an open call lies what lay there when it was opened: the state of that time, with the
place of the call as its last operand. -/
theorem exists_opening_of_reaches {mode : Mode} {ts : List Token} {s : State}
    (reached : Reaches (.start mode) ts s) {name : String} {arguments : List Term}
    {current : Option Term} {below : List Frame}
    (isOpen : Frame.call name arguments current :: below <:+ s.frames) :
    ∃ s₀, Opening mode ts name s₀ ∧ below = (s₀.withLast (.call name [])).frames := by
  induction ts using List.reverseRecOn generalizing s name arguments current below with
  | nil =>
    cases reached
    rcases List.suffix_cons_iff.mp isOpen with same | none
    · cases mode <;> cases same
    · cases List.suffix_nil.mp none
  | append_singleton ts t ih =>
    obtain ⟨between, before, last⟩ := Reaches.append_iff.mp reached
    rcases (Reaches.singleton_iff.mp last).call_open isOpen with
      ⟨arguments', current', wasOpen⟩ | ⟨named, opening, rfl⟩
    · obtain ⟨s₀, opening, lies⟩ := ih before wasOpen
      exact ⟨s₀, opening.append t, lies⟩
    · exact ⟨between, opening_of_reaches before named opening, rfl⟩

/-! ## Going on from a state -/

/-- Closing a call leads back to the state in which it was opened, with the finished call as the
last operand. -/
theorem State.endCall_of_opening {s₀ : State} {phase : Phase} {statement : Term}
    (has : s₀.top.statement? = some statement) (name : String) (arguments : List Term)
    (current : Option Term) (t : Token) :
    State.endCall ⟨.call name arguments current, (s₀.withLast (.call name [])).frames, phase⟩ t =
      if current.isNone && !arguments.isEmpty then .error t.unexpected
      else .ok (s₀.withLast (Frame.call name arguments current).close) := by
  have held := Frame.statement?_withLast has (.call name [])
  have single : (Term.call name []).isBinary = false := rfl
  have replaced := Frame.withStatement_withLast has single (Frame.call name arguments current).close
  cases current with
  | none =>
    cases arguments with
    | nil => simp [endCall, frames, withLast, held, replaced]
    | cons => rfl
  | some argument => simp [endCall, frames, withLast, held, replaced]

/-- Reading goes on from a state without ever missing an open part or a statement. The part that a
token closes is not the root; an operator that waits has its left operand; a call has the place that
was left for it in the part below, and only a comma before the parenthesis keeps it open; the
expression of a block has the text below it; and what is open at the end is either the root alone or
something above it. -/
structure State.Supported (mode : Mode) (ts : List Token) (s : State) : Prop where
  closing : ∀ t s', s.step t = .ok s' → s'.frames.length < s.frames.length →
    s.top.isRoot mode = false
  rightOperand : ∀ op sign, s.phase = .waiting op sign → ∃ statement,
    s.top.statement? = some statement ∧ ∀ t w, Word.read? t.text = some w →
      s.rightOperand op t =
        .ok ⟨s.top.withStatement (some (statement.splice op w.term)), s.below, .after w⟩
  endCall : ∀ name arguments current, s.top = .call name arguments current → ∃ s₀,
    Opening mode ts name s₀ ∧ s.below = (s₀.withLast (.call name [])).frames ∧
      ∀ t, s.endCall t =
        if current.isNone && !arguments.isEmpty then .error t.unexpected
        else .ok (s₀.withLast s.top.close)
  endBlock : mode = .concat → ∀ statement, s.top = .expression statement → ∃ parts,
    s.below = [.concat parts] ∧
      ∀ t, s.endBlock t = .ok ⟨.concat (.expression statement :: parts), [], .ready⟩
  finish : s.phase.isWaiting = false → ∀ stop, s.finish stop =
    if s.top.isRoot mode then .ok s.top.close else .error ⟨stop, .unexpectedEnd⟩

/-- The innermost part is the root where nothing lies below it. -/
theorem Layered.isRoot_iff {mode : Mode} {s : State} (layered : Layered mode s.frames) :
    s.top.isRoot mode = true ↔ s.below = [] :=
  layered.root s.top s.below List.suffix_rfl

/-- Every state that is reached is supported. -/
theorem State.supported_of_reaches {mode : Mode} {ts : List Token} {s : State}
    (reached : Reaches (.start mode) ts s) : s.Supported mode ts := by
  obtain ⟨stacked, fits⟩ := State.sound_of_reaches reached
  have isRoot := Layered.isRoot_iff (s := s) stacked.layered
  refine ⟨?_, ?_, ?_, ?_, ?_⟩
  · intro t s' _ fewer
    rw [← Bool.not_eq_true, isRoot]
    intro none
    simp [frames, none] at fewer
  · intro op sign waits
    rw [waits] at fits
    obtain ⟨statement, has⟩ := fits
    refine ⟨statement, has, fun t w read => ?_⟩
    simp only [State.rightOperand, read, has]
  · intro name arguments current isCall
    obtain ⟨s₀, opening, lies⟩ := exists_opening_of_reaches reached
      (isCall ▸ List.suffix_rfl : Frame.call name arguments current :: s.below <:+ s.frames)
    refine ⟨s₀, opening, lies, fun t => ?_⟩
    obtain ⟨statement, has, -⟩ := opening.last
    obtain ⟨top, below, phase⟩ := s
    cases isCall
    cases lies
    exact State.endCall_of_opening has name arguments current t
  · rintro rfl statement isExpression
    obtain ⟨top, below, phase⟩ := s
    cases isExpression
    cases stacked with
    | block => exact ⟨_, rfl, fun t => rfl⟩
  · intro calm stop
    obtain ⟨top, below, phase⟩ := s
    cases phase with
    | waiting => cases calm
    | ready | named =>
      cases below with
      | nil => rw [if_pos (isRoot.mpr rfl)]; rfl
      | cons frame below =>
        rw [if_neg fun root => List.cons_ne_nil _ _ (isRoot.mp root)]
        rfl

/-! ## What holds a place has no say -/

/-- Another part is like this one but for the last operand of its statement. -/
def Frame.Alike (frame other : Frame) : Prop :=
  ∃ operand, operand.isBinary = false ∧ other = frame.withLast operand

theorem Expects.others {s : State} {grow : Term → Term} (expects : Expects s grow)
    (others : List Frame) : Expects ⟨s.top, others, s.phase⟩ grow := by
  cases expects with
  | first calm noText vacant => exact .first calm noText vacant
  | right has => exact .right has

/-- A token does the same to the innermost part, whatever last operands the parts below have. The
only token that looks at one of these is the parenthesis that replaces it. -/
theorem Step.alike {s s' : State} {t : Token} (way : Step s t s') {others : List Frame}
    (alike : List.Forall₂ Frame.Alike s.below others) :
    ∃ others', Step ⟨s.top, others, s.phase⟩ t ⟨s'.top, others', s'.phase⟩ ∧
      List.Forall₂ Frame.Alike s'.below others' := by
  cases way with
  | literal calm literal => exact ⟨others, .literal calm literal, alike⟩
  | @openBlock parts _ _ _ calm opening =>
    have same : (Frame.concat parts).Alike (.concat parts) := ⟨.boolean false, rfl, rfl⟩
    exact ⟨_, .openBlock calm opening, .cons same alike⟩
  | blank calm noText blank => exact ⟨others, .blank calm noText blank, alike⟩
  | wait blank => exact ⟨others, .wait blank, alike⟩
  | operator calm has symbol => exact ⟨others, .operator calm has symbol, alike⟩
  | operand expects read => exact ⟨others, .operand (expects.others others) read, alike⟩
  | @openCall top _ name _ noText opening =>
    have same : (top.withLast (.call name [])).Alike (top.withLast (.call name [])) :=
      ⟨.call name [], rfl, (top.withLast_withLast rfl _).symm⟩
    exact ⟨_, .openCall noText opening, .cons same alike⟩
  | endArgument calm comma => exact ⟨others, .endArgument calm comma, alike⟩
  | @endCall name arguments current frame below _ _ statement calm closing complete has =>
    cases alike with
    | @cons _ other _ others first rest =>
      obtain ⟨operand, single, rfl⟩ := first
      have closed : Step ⟨.call name arguments current, frame.withLast operand :: others, _⟩ t _ :=
        .endCall calm closing complete (Frame.statement?_withLast has operand)
      rw [Frame.withStatement_withLast has single,
        Frame.withLast_of_statement? has (Frame.call name arguments current).close] at closed
      exact ⟨others, closed, rest⟩
  | endBlock calm closing =>
    cases alike with
    | cons first rest =>
      obtain ⟨operand, -, rfl⟩ := first
      exact ⟨_, .endBlock calm closing, rest⟩

/-- So do several tokens. -/
theorem Reaches.alike {s s' : State} {ts : List Token} (reached : Reaches s ts s')
    {others : List Frame} (alike : List.Forall₂ Frame.Alike s.below others) :
    ∃ others', Reaches ⟨s.top, others, s.phase⟩ ts ⟨s'.top, others', s'.phase⟩ ∧
      List.Forall₂ Frame.Alike s'.below others' := by
  refine reached.induct (fun ts s' => ∃ others', Reaches ⟨s.top, others, s.phase⟩ ts
    ⟨s'.top, others', s'.phase⟩ ∧ List.Forall₂ Frame.Alike s'.below others')
    ⟨others, .nil _, alike⟩ ?_
  rintro ts between t s' ⟨others', before, alike'⟩ way
  obtain ⟨others'', last, alike''⟩ := way.alike alike'
  exact ⟨others'', before.append (.of_step last), alike''⟩

/-- Tokens lead from a state to the end of a reading that yields a term. -/
def State.Yields (s : State) (ts : List Token) (t : Term) : Prop :=
  ∃ root phase, Reaches s ts ⟨root, [], phase⟩ ∧ phase.isWaiting = false ∧ t = root.close

/-- What is read does not depend on what holds the places of the open calls. -/
theorem State.Yields.alike {s : State} {ts : List Token} {t : Term} (yields : s.Yields ts t)
    {others : List Frame} (alike : List.Forall₂ Frame.Alike s.below others) :
    State.Yields ⟨s.top, others, s.phase⟩ ts t := by
  obtain ⟨root, phase, reached, calm, same⟩ := yields
  obtain ⟨others', reached', none⟩ := reached.alike alike
  cases none
  exact ⟨root, phase, reached', calm, same⟩

/-- What is accepted is what the state after some of the tokens yields with the rest. -/
theorem yields_of_parse {mode : Mode} {before later : List Token} {t : Term} {s : State}
    (accepted : parse mode (before ++ later) = .ok t) (reached : Reaches (.start mode) before s) :
    s.Yields later t := by
  obtain ⟨root, phase, whole, calm, same⟩ := parse_eq_ok_iff.mp accepted
  obtain ⟨between, first, second⟩ := Reaches.append_iff.mp whole
  cases reached.symm.trans first
  exact ⟨root, phase, second, calm, same⟩

/-! ## Reading fills all places -/

/-- In every state that is reached the open parts are layered and support what can come next, and
below each open call lies the state in which it was opened with the place of the call as the last
operand, so that closing the call replaces this place and nothing else. Splicing ends as one
operation, whatever keeps the place of its left operand in the meantime.

So neither stays in a term that is read: it is spelled as its tokens, each of its parts that is no
operation stands in the source with tokens of its own, and other operands in the places of the open
calls lead to the same term, wherever the reading is stopped to put them there. -/
theorem parse_fills_places (mode : Mode) (ts : List Token) :
    (∀ s, Reaches (.start mode) ts s →
      Layered mode s.frames ∧ s.Supported mode ts ∧
      ∀ name arguments current below, Frame.call name arguments current :: below <:+ s.frames →
        ∃ s₀, Opening mode ts name s₀ ∧ below = (s₀.withLast (.call name [])).frames) ∧
    (∀ statement op operand keeper, keeper.isBinary = false →
      (Term.withSplicePoint statement op keeper).withSplicePoint op
        (.binary op (statement.splicePoint op) operand) = statement.splice op operand) ∧
    ∀ t, parse mode ts = .ok t →
      Lexeme.scan (mode == .expression) ts = t.spell.map some ∧
      t.Everywhere (Stands ts) ∧
      ∀ before later s, ts = before ++ later → Reaches (.start mode) before s →
        ∀ others, List.Forall₂ Frame.Alike s.below others →
          State.Yields ⟨s.top, others, s.phase⟩ later t := by
  refine ⟨?_, ?_, ?_⟩
  · intro s reached
    have stacked := (State.sound_of_reaches reached).stacked
    refine ⟨stacked.layered, State.supported_of_reaches reached, ?_⟩
    intro name arguments current below isOpen
    exact exists_opening_of_reaches reached isOpen
  · intro statement op operand keeper single
    exact statement.splice_in_place op single operand
  · intro t accepted
    have formed := source_of_parse accepted
    refine ⟨scan_of_source formed,
      everywhere_of_standing_source (fun _ _ _ stands => stands) formed, ?_⟩
    rintro before later s rfl reached others alike
    exact (yields_of_parse accepted reached).alike alike

/-- A call inside the arguments of a call on the right of an operator: while both are open other
operands can stand in their places. -/
theorem parse_fills_places_nested :
    let ts : List Token := ["a", " ", "+", " ", "f", "(", "g", "(", "b", ")", ",", " ", "true",
      ")"].map (⟨·, .start⟩)
    let t : Term := .expression (some (.binary .addition (.reference ["a"])
      (.call "f" [.call "g" [.reference ["b"]], .boolean true])))
    let below : List Frame := [.call "f" [] (some (.call "g" [])),
      .expression (some (.binary .addition (.reference ["a"]) (.call "f" [])))]
    let others : List Frame := [.call "f" [] (some (.boolean false)),
      .expression (some (.binary .addition (.reference ["a"]) (.boolean false)))]
    Reaches (.start .expression) (ts.take 8) ⟨.call "g" [] none, below, .ready⟩ ∧
      Layered .expression (.call "g" [] none :: below) ∧
      (∃ s₀, Opening .expression (ts.take 8) "f" s₀ ∧
        below.tail = (s₀.withLast (.call "f" [])).frames) ∧
      parse .expression ts = .ok t ∧ t.Everywhere (Stands ts) ∧
      State.Yields ⟨.call "g" [] none, others, .ready⟩ (ts.drop 8) t := by
  intro ts t below others
  have reached : Reaches (.start .expression) (ts.take 8) ⟨.call "g" [] none, below, .ready⟩ := rfl
  have accepted : parse .expression ts = .ok t := rfl
  have alike : List.Forall₂ Frame.Alike below others :=
    .cons ⟨.boolean false, rfl, rfl⟩ (.cons ⟨.boolean false, rfl, rfl⟩ .nil)
  obtain ⟨layered, -, opened⟩ := (parse_fills_places .expression (ts.take 8)).1 _ reached
  obtain ⟨-, stands, freely⟩ := (parse_fills_places .expression ts).2.2 t accepted
  refine ⟨reached, layered, ?_, accepted, stands, ?_⟩
  · exact opened "f" [] _ _ (List.suffix_cons _ _)
  · exact freely (ts.take 8) (ts.drop 8) _ (List.take_append_drop 8 ts).symm reached others alike

end Inlay.Parse
