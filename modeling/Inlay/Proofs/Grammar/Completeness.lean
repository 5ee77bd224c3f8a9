import Inlay.Proofs.Grammar.Basic
import Inlay.Proofs.Parse.Step

/-!
# Whatever the grammar forms is read

Reading the tokens of an operand, a statement or arguments leads from every state that has a place
for them to the state in which their term stands in that place, with the same parts open as before.
The induction is on the derivation: the argument list of a call is read above the frame that the
call was entered in, and closing the call puts its term where the entry stood.
-/

namespace Inlay

namespace Parse

open Grammar

/-- Blanks change nothing but what the last token left behind. -/
theorem reaches_blanks {top : Frame} {below : List Frame} {phase : Phase} {ts : List Token}
    (calm : phase.isWaiting = false) (noText : top.isText = false) (blanks : Blanks ts) :
    ∃ phase', phase'.isWaiting = false ∧
      Reaches ⟨top, below, phase⟩ ts ⟨top, below, phase'⟩ := by
  induction ts generalizing phase with
  | nil => exact ⟨phase, calm, .nil _⟩
  | cons t ts ih =>
    obtain ⟨phase', calm', reached⟩ := @ih .ready rfl fun u mem =>
      blanks u (List.mem_cons_of_mem t mem)
    have first : Reaches ⟨top, below, phase⟩ [t] ⟨top, below, .ready⟩ :=
      .of_step (.blank calm noText (blanks t List.mem_cons_self))
    exact ⟨phase', calm', first.append reached⟩

namespace Expects

variable {s : State} {grow : Term → Term}

/-- Blanks may stand before an operand. -/
theorem reaches_blanks (expects : Expects s grow) {ts : List Token} (blanks : Blanks ts) :
    ∃ phase, Expects ⟨s.top, s.below, phase⟩ grow ∧ Reaches s ts ⟨s.top, s.below, phase⟩ := by
  cases expects with
  | first calm noText none =>
    obtain ⟨phase, calm', reached⟩ := Parse.reaches_blanks calm noText blanks
    exact ⟨phase, .first calm' noText none, reached⟩
  | @right top below op sign statement has =>
    refine ⟨.waiting op sign, .right has, ?_⟩
    induction ts with
    | nil => exact .nil _
    | cons t ts ih =>
      have first : Reaches ⟨top, below, .waiting op sign⟩ [t] ⟨top, below, .waiting op sign⟩ :=
        .of_step (.wait (blanks t List.mem_cons_self))
      exact first.append (ih fun u mem => blanks u (List.mem_cons_of_mem t mem))

/-- A name and a parenthesis begin a call, which is entered without its arguments. -/
theorem reaches_openCall (expects : Expects s grow) {name opening : Token}
    (isName : IsName name.text) (isOpening : opening.text = "(") :
    Reaches s [name, opening]
      ⟨.call name.text [] none,
        s.top.withStatement (some (grow (.call name.text []))) :: s.below, .ready⟩ := by
  let entered := s.top.withStatement (some (grow (Term.ofName name.text)))
  have enter : Reaches s [name] ⟨entered, s.below, .named name.text⟩ :=
    .of_step (.operand expects (Word.read?_of_isName isName))
  have noText : entered.isText = false := by
    rw [Frame.isText_withStatement, expects.isText]
  have replaced : (grow (Term.ofName name.text)).withRightLeaf (.call name.text []) =
      grow (.call name.text []) := expects.withRightLeaf rfl _
  have opened : Reaches ⟨entered, s.below, .named name.text⟩ [opening]
      (State.openCall ⟨entered, s.below, .named name.text⟩ name.text) :=
    .of_step (.openCall noText isOpening)
  rw [State.openCall, Frame.statement?_withStatement expects.isText, Option.map_some, replaced,
    Frame.withStatement_withStatement] at opened
  exact enter.append opened

end Expects

/-- A parenthesis puts the finished call where it was entered. -/
theorem Expects.reaches_endCall {s : State} {grow : Term → Term} (expects : Expects s grow)
    {name : String} {arguments done : List Term} {current : Option Term} {phase : Phase}
    {closing : Token} (calm : phase.isWaiting = false) (isClosing : closing.text = ")")
    (complete : current = none → done = [])
    (all : (Frame.call name done current).close = .call name arguments) :
    Reaches ⟨.call name done current, s.top.withStatement (some (grow (.call name []))) :: s.below,
      phase⟩ [closing]
      ⟨s.top.withStatement (some (grow (.call name arguments))), s.below, .ready⟩ := by
  let entered := s.top.withStatement (some (grow (.call name [])))
  have has : entered.statement? = some (grow (.call name [])) :=
    Frame.statement?_withStatement expects.isText _
  have closed : Reaches ⟨.call name done current, entered :: s.below, phase⟩ [closing]
      ⟨entered.withStatement (some ((grow (.call name [])).withRightLeaf
        (Frame.call name done current).close)), s.below, .ready⟩ :=
    .of_step (.endCall calm isClosing complete has)
  rw [all, expects.withRightLeaf rfl, Frame.withStatement_withStatement] at closed
  exact closed

mutual

/-- The tokens of an operand lead to the state that has taken it in. -/
theorem reaches_operand : ∀ {ts : List Token} {operand : Term}, Operand ts operand →
    ∀ {s : State} {grow : Term → Term}, Expects s grow →
      ∃ phase, phase.isWaiting = false ∧
        Reaches s ts ⟨s.top.withStatement (some (grow operand)), s.below, phase⟩
  | _, _, .literal before value, s, grow, expects => by
    obtain ⟨phase, expects, blank⟩ := expects.reaches_blanks before
    exact ⟨_, rfl, blank.append (.of_step (.operand expects (Word.read?_of_literal value)))⟩
  | _, _, .name before isName, s, grow, expects => by
    obtain ⟨phase, expects, blank⟩ := expects.reaches_blanks before
    exact ⟨_, rfl, blank.append (.of_step (.operand expects (Word.read?_of_isName isName)))⟩
  | _, _, @Operand.call _ _ _ name _ _ _ before isName opening arguments after closing, s, grow,
      expects => by
    obtain ⟨phase, expects', blank⟩ := expects.reaches_blanks before
    have opened := expects'.reaches_openCall isName opening
    obtain ⟨done, current, phase₁, calm₁, all, complete, inside⟩ :=
      reaches_arguments arguments name.text _
    have noText : (Frame.call name.text done current).isText = false := rfl
    obtain ⟨phase₂, calm₂, blank'⟩ := reaches_blanks calm₁ noText after
    have closed := expects'.reaches_endCall calm₂ closing complete all
    exact ⟨_, rfl, blank.append (opened.append (inside.append (blank'.append closed)))⟩

/-- The tokens of a chain lead from a place without a statement to the term that grows from it. -/
theorem reaches_written : ∀ {ts : List Token} {c : Chain}, Written ts c →
    ∀ {top : Frame} {phase : Phase}, phase.isWaiting = false → top.isText = false →
      top.statement? = none → ∀ below,
      ∃ phase', phase'.isWaiting = false ∧
        Reaches ⟨top, below, phase⟩ ts ⟨top.withStatement (some c.spliced), below, phase'⟩
  | _, _, .first operand, _, _, calm, noText, vacant, _ =>
    reaches_operand operand (.first calm noText vacant)
  | _, _, @Written.next _ _ _ sign c op _ before between symbol operand, top, _, calm, noText,
      vacant, below => by
    obtain ⟨phase₁, calm₁, first⟩ := reaches_written before calm noText vacant below
    have noText₁ : (top.withStatement (some c.spliced)).isText = false := by
      rw [Frame.isText_withStatement, noText]
    have has := Frame.statement?_withStatement noText (some c.spliced)
    obtain ⟨phase₂, calm₂, blank⟩ := reaches_blanks calm₁ noText₁ between
    have waits : Reaches ⟨top.withStatement (some c.spliced), below, phase₂⟩ [sign]
        ⟨top.withStatement (some c.spliced), below, .waiting op sign⟩ :=
      .of_step (.operator calm₂ has symbol)
    obtain ⟨phase₃, calm₃, last⟩ := reaches_operand operand (.right has)
    rw [Frame.withStatement_withStatement, ← Chain.spliced_snoc] at last
    exact ⟨phase₃, calm₃, first.append (blank.append (waits.append last))⟩

/-- The tokens of a statement lead from a place without one to the statement in that place. -/
theorem reaches_statement : ∀ {ts : List Token} {t : Term}, Statement ts t →
    ∀ {top : Frame} {phase : Phase}, phase.isWaiting = false → top.isText = false →
      top.statement? = none → ∀ below,
      ∃ phase', phase'.isWaiting = false ∧
        Reaches ⟨top, below, phase⟩ ts ⟨top.withStatement (some t), below, phase'⟩
  | _, t, .mk written grouped, _, _, calm, noText, vacant, below => by
    obtain ⟨phase', calm', reached⟩ := reaches_written written calm noText vacant below
    obtain ⟨grown, read⟩ := written.single.spliced
    rw [grown.eq_of_chain_eq grouped read] at reached
    exact ⟨phase', calm', reached⟩

/-- The tokens of arguments lead from an open call without arguments to the call with all of them,
the last one still current. -/
theorem reaches_arguments : ∀ {ts : List Token} {arguments : List Term}, Arguments ts arguments →
    ∀ (name : String) (below : List Frame),
      ∃ done current phase, phase.isWaiting = false ∧
        (Frame.call name done current).close = .call name arguments ∧
        (current = none → done = []) ∧
        Reaches ⟨.call name [] none, below, .ready⟩ ts ⟨.call name done current, below, phase⟩
  | _, _, .none, name, below => ⟨[], none, .ready, rfl, rfl, fun _ => rfl, .nil _⟩
  | _, _, .first statement, name, below => by
    have noText : (Frame.call name [] none).isText = false := rfl
    obtain ⟨phase, calm, reached⟩ :=
      reaches_statement statement Phase.isWaiting_ready noText rfl below
    exact ⟨[], some _, phase, calm, rfl, nofun, reached⟩
  | _, _, @Arguments.next _ _ _ comma arguments t before nonempty between isComma statement, name,
      below => by
    obtain ⟨done, current, phase₁, calm₁, all, complete, first⟩ :=
      reaches_arguments before name below
    obtain ⟨argument, rfl⟩ : ∃ argument, current = some argument := by
      cases current with
      | some argument => exact ⟨argument, rfl⟩
      | none =>
        rw [complete rfl] at all
        cases all
        exact absurd rfl nonempty
    have noText : (Frame.call name done (some argument)).isText = false := rfl
    obtain ⟨phase₂, calm₂, blank⟩ := reaches_blanks calm₁ noText between
    have ended : Reaches ⟨.call name done (some argument), below, phase₂⟩ [comma]
        ⟨.call name (argument :: done) none, below, .ready⟩ :=
      .of_step (.endArgument calm₂ isComma)
    have noText' : (Frame.call name (argument :: done) none).isText = false := rfl
    obtain ⟨phase₃, calm₃, last⟩ :=
      reaches_statement statement Phase.isWaiting_ready noText' rfl below
    refine ⟨argument :: done, some t, phase₃, calm₃, ?_, nofun,
      first.append (blank.append (ended.append last))⟩
    simp only [Frame.close, Option.toList_some, List.singleton_append, List.reverse_cons,
      Term.call.injEq, true_and] at all ⊢
    rw [all]

end

/-! ## Whole sources -/

/-- The tokens of an expression lead from an empty one to the one that they form. -/
theorem reaches_expression {ts : List Token} {statement : Option Term}
    (formed : Expression ts statement) (below : List Frame) :
    ∃ phase, phase.isWaiting = false ∧
      Reaches ⟨.expression none, below, .ready⟩ ts ⟨.expression statement, below, phase⟩ := by
  have noText : (Frame.expression none).isText = false := rfl
  cases formed with
  | empty blanks => exact reaches_blanks rfl noText blanks
  | @statement before after t formed blanks =>
    obtain ⟨phase₁, calm₁, first⟩ :=
      reaches_statement formed Phase.isWaiting_ready noText rfl below
    have noText' : (Frame.expression (some t)).isText = false := rfl
    obtain ⟨phase₂, calm₂, blank⟩ := reaches_blanks calm₁ noText' blanks
    exact ⟨phase₂, calm₂, first.append blank⟩

/-- The tokens of text lead from empty text to the parts that they form. -/
theorem reaches_text {ts : List Token} {parts : List Term} (formed : Text ts parts) :
    Reaches (.start .concat) ts ⟨.concat parts.reverse, [], .ready⟩ := by
  induction formed with
  | empty => exact .nil _
  | literal before literal ih =>
    rw [List.reverse_append]
    exact ih.append (.of_step (.literal rfl literal))
  | @block before inner opening closing parts statement text isOpening formed isClosing ih =>
    obtain ⟨phase, calm, inside⟩ := reaches_expression formed [.concat parts.reverse]
    rw [List.reverse_append]
    have opened : Reaches ⟨.concat parts.reverse, [], .ready⟩ [opening]
        ⟨.expression none, [.concat parts.reverse], .ready⟩ := .of_step (.openBlock rfl isOpening)
    exact ih.append (opened.append (inside.append (.of_step (.endBlock calm isClosing))))

end Parse

/-- Every source that the grammar forms is accepted as the term that it forms. -/
theorem parse_of_source {mode : Parse.Mode} {ts : List Token} {t : Term}
    (formed : Grammar.Source mode ts t) : parse mode ts = .ok t := by
  rw [parse_eq_ok_iff]
  cases formed with
  | expression formed =>
    obtain ⟨phase, calm, reached⟩ := Parse.reaches_expression formed []
    exact ⟨_, phase, reached, calm, rfl⟩
  | concat formed =>
    refine ⟨_, _, Parse.reaches_text formed, rfl, ?_⟩
    rw [Parse.Frame.close, List.reverse_reverse]

end Inlay
