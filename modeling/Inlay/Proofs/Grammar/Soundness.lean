import Inlay.Proofs.Grammar.Basic
import Inlay.Proofs.Parse.Step

/-!
# Whatever is read the grammar forms

What the tokens read so far say about a state. Each open part has tokens of its own, those since it
was opened, and `Frame.Reads` says that they form what the part holds. A part below an open call
still has the entry of the call in place of its last operand; `Awaits` says of it that it will hold
what its tokens form together with those of **any** operand put into that place, which is what
closing the call will do. `Enclosed` collects this for all parts below the innermost one.

`State.Reads.step` is the invariant: it is kept by each token that is taken in. At the end of an
accepted source nothing is open but the root, and the root holds what all tokens form.
-/

namespace Inlay

namespace Parse

open Grammar

/-- Tokens that form arguments followed by a comma, if there are any, and then the argument that is
being read, which may still be missing. -/
inductive OpenArguments : List Token → List Term → Option Term → Prop
  | first {ts : List Token} {current : Option Term} : Expression ts current →
      OpenArguments ts [] current
  | next {before between ts : List Token} {comma : Token} {arguments : List Term}
      {current : Option Term} : Arguments before arguments → arguments ≠ [] → Blanks between →
      comma.text = "," → Expression ts current →
      OpenArguments (before ++ (between ++ comma :: ts)) arguments current

/-- The tokens since an open part was opened form what it holds. -/
def Frame.Reads : Frame → List Token → Prop
  | .concat parts, ts => Text ts parts.reverse
  | .expression statement, ts => Expression ts statement
  | .call _ arguments current, ts => OpenArguments ts arguments.reverse current

/-- Tokens after which an open part will hold what they form with any operand that is put in place
of its last one. -/
def Awaits (frame : Frame) (ts : List Token) : Prop :=
  ∀ {us : List Token} {operand : Term}, Operand us operand →
    (frame.withStatement (frame.statement?.map (·.withRightLeaf operand))).Reads (ts ++ us)

/-- Tokens that open an innermost part above others, down to the root of a mode. -/
inductive Enclosed : Mode → List Token → Frame → List Frame → Prop
  | text {parts : List Term} : Enclosed .concat [] (.concat parts) []
  | expression {statement : Option Term} : Enclosed .expression [] (.expression statement) []
  | block {before : List Token} {opening : Token} {parts : List Term} {statement : Option Term} :
      Text before parts.reverse → opening.text = blockStart →
      Enclosed .concat (before ++ [opening]) (.expression statement) [.concat parts]
  | call {mode : Mode} {before own : List Token} {name opening : Token} {frame : Frame}
      {below : List Frame} {arguments : List Term} {current : Option Term} :
      Enclosed mode before frame below → Awaits frame own → IsName name.text → opening.text = "(" →
      Enclosed mode (before ++ (own ++ [name, opening])) (.call name.text arguments current)
        (frame :: below)

/-- The tokens of the innermost part, up to what the last token left behind: a name that a call may
begin with, or an operator with blanks after it. -/
def Phase.Reads : Phase → Frame → List Token → Prop
  | .ready, top, own => top.Reads own
  | .named name, top, own =>
    top.Reads own ∧ ∃ earlier t, own = earlier ++ [t] ∧ name = t.text ∧ IsName t.text ∧
      Awaits top earlier
  | .waiting op sign, top, own =>
    ∃ earlier between, own = earlier ++ sign :: between ∧ sign.text = op.symbol ∧
      Blanks between ∧ top.Reads earlier

/-- What the tokens read so far say about a state. -/
def State.Reads (mode : Mode) (ts : List Token) (s : State) : Prop :=
  ∃ before own, ts = before ++ own ∧ Enclosed mode before s.top s.below ∧ s.phase.Reads s.top own

/-! ## Open parts -/

/-- The arguments of an open call are complete where the last one is not missing after a comma. -/
theorem OpenArguments.complete {ts : List Token} {arguments : List Term} {current : Option Term}
    (formed : OpenArguments ts arguments current) (complete : current = none → arguments = []) :
    ∃ inner after, ts = inner ++ after ∧ Arguments inner (arguments ++ current.toList) ∧
      Blanks after := by
  cases formed with
  | first formed =>
    cases formed with
    | empty blanks => exact ⟨[], ts, rfl, .none, blanks⟩
    | statement statement blanks => exact ⟨_, _, rfl, .first statement, blanks⟩
  | next before nonempty between isComma formed =>
    cases formed with
    | empty => exact absurd (complete rfl) nonempty
    | statement statement blanks =>
      refine ⟨_, _, ?_, .next before nonempty between isComma statement, blanks⟩
      simp only [List.append_assoc, List.cons_append]

/-- A comma ends the argument that is being read, and the next is missing at first. -/
theorem OpenArguments.comma {ts : List Token} {arguments : List Term} {argument : Term}
    {comma : Token} (formed : OpenArguments ts arguments.reverse (some argument))
    (isComma : comma.text = ",") :
    OpenArguments (ts ++ [comma]) (argument :: arguments).reverse none := by
  obtain ⟨inner, after, rfl, formed, blanks⟩ := formed.complete (by simp)
  have some : arguments.reverse ++ [argument] ≠ [] := by simp
  rw [List.reverse_cons, List.append_assoc]
  exact .next formed some blanks isComma (.empty blanks_nil)

/-- A closing parenthesis makes an operand of a call whose arguments are complete. -/
theorem OpenArguments.call {ts : List Token} {arguments : List Term} {current : Option Term}
    {name opening closing : Token} (formed : OpenArguments ts arguments.reverse current)
    (complete : current = none → arguments = []) (isName : IsName name.text)
    (isOpening : opening.text = "(") (isClosing : closing.text = ")") :
    Operand (name :: opening :: (ts ++ [closing]))
      (Frame.call name.text arguments current).close := by
  have complete' : current = none → arguments.reverse = [] := by
    intro none
    rw [complete none, List.reverse_nil]
  obtain ⟨inner, after, rfl, formed, blanks⟩ := formed.complete complete'
  have all : (current.toList ++ arguments).reverse = arguments.reverse ++ current.toList := by
    cases current <;> simp
  rw [Frame.close, all, List.append_assoc]
  exact .call blanks_nil isName isOpening formed blanks isClosing

namespace Frame

/-- The statement of an open part can give way to another, with its tokens. -/
theorem Reads.exchange {frame : Frame} {ts : List Token} (reads : frame.Reads ts)
    (noText : frame.isText = false) :
    ∃ earlier own, ts = earlier ++ own ∧ Expression own frame.statement? ∧
      ∀ {us : List Token} {statement : Option Term}, Expression us statement →
        (frame.withStatement statement).Reads (earlier ++ us) := by
  cases frame with
  | concat => cases noText
  | expression statement => exact ⟨[], ts, rfl, reads, fun formed => formed⟩
  | call name arguments current =>
    have opened : OpenArguments ts arguments.reverse current := reads
    generalize same : arguments.reverse = listed at opened
    cases opened with
    | first formed =>
      refine ⟨[], ts, rfl, formed, fun formed => ?_⟩
      rw [Frame.withStatement, Frame.Reads, same]
      exact .first formed
    | @next before between own comma _ _ formed nonempty blanks isComma last =>
      refine ⟨before ++ (between ++ [comma]), own, ?_, last, fun {us} statement last' => ?_⟩
      · simp only [List.append_assoc, List.cons_append, List.nil_append]
      · rw [Frame.withStatement, Frame.Reads, same]
        have longer := OpenArguments.next formed nonempty blanks isComma last'
        simpa only [List.append_assoc, List.cons_append, List.nil_append] using longer

/-- A blank changes nothing about an open part that is no text. -/
theorem Reads.blank {frame : Frame} {ts : List Token} {t : Token} (reads : frame.Reads ts)
    (noText : frame.isText = false) (blank : t.isBlank = true) : frame.Reads (ts ++ [t]) := by
  obtain ⟨earlier, own, rfl, formed, exchange⟩ := reads.exchange noText
  have longer := exchange (formed.blank blank)
  rw [withStatement_statement?] at longer
  rwa [List.append_assoc]

end Frame

/-- Where no operator waits the innermost part holds what its tokens form. -/
theorem Phase.Reads.whole {phase : Phase} {top : Frame} {own : List Token}
    (reads : phase.Reads top own) (calm : phase.isWaiting = false) : top.Reads own := by
  cases phase with
  | ready => exact reads
  | named name => exact reads.1
  | waiting => cases calm

/-- Whatever operand a state expects, its innermost part will hold it once it is read. -/
theorem Phase.Reads.operand {s : State} {own : List Token} {grow : Term → Term}
    (reads : s.phase.Reads s.top own) (expects : Expects s grow) {us : List Token} {operand : Term}
    (formed : Operand us operand) :
    (s.top.withStatement (some (grow operand))).Reads (own ++ us) := by
  cases expects with
  | @first top below phase calm noText vacant =>
    obtain ⟨earlier, last, rfl, none, exchange⟩ := (reads.whole calm).exchange noText
    rw [vacant] at none
    rw [List.append_assoc]
    exact exchange (none.operand formed)
  | @right top below op sign statement has =>
    obtain ⟨before, between, rfl, symbol, blanks, whole⟩ := reads
    obtain ⟨earlier, last, rfl, some, exchange⟩ :=
      whole.exchange (Frame.isText_of_statement? has)
    rw [has] at some
    have grown := exchange (some.splice symbol blanks formed)
    simpa only [List.append_assoc, List.cons_append] using grown

/-- A name that was read as an operand may still give way to another operand. -/
theorem Phase.Reads.awaits {s : State} {own : List Token} {grow : Term → Term}
    (reads : s.phase.Reads s.top own) (expects : Expects s grow) (name : String) :
    Awaits (s.top.withStatement (some (grow (Term.ofName name)))) own := by
  intro us operand formed
  have replaced := reads.operand expects formed
  have same : (grow (Term.ofName name)).withRightLeaf operand = grow operand :=
    expects.withRightLeaf rfl operand
  rwa [Frame.statement?_withStatement expects.isText, Frame.withStatement_withStatement,
    Option.map_some, same]

/-- A part still awaits an operand when another one was put in place of its last one. -/
theorem Awaits.entered {frame : Frame} {ts : List Token} (awaits : Awaits frame ts)
    (noText : frame.isText = false) {entry : Term} (single : entry.isBinary = false) :
    Awaits (frame.withStatement (frame.statement?.map (·.withRightLeaf entry))) ts := by
  intro us operand formed
  have reads := awaits formed
  rw [Frame.statement?_withStatement noText, Frame.withStatement_withStatement, Option.map_map]
  simpa only [Function.comp_def, Term.withRightLeaf_withRightLeaf _ _ single] using reads

/-! ## The invariant -/

theorem Enclosed.withStatement {mode : Mode} {before : List Token} {top : Frame}
    {below : List Frame} (enclosed : Enclosed mode before top below) (statement : Option Term) :
    Enclosed mode before (top.withStatement statement) below := by
  cases enclosed with
  | text => exact .text
  | expression => exact .expression
  | block text opening => exact .block text opening
  | call enclosed awaits isName opening => exact .call enclosed awaits isName opening

namespace State

theorem reads_start (mode : Mode) : (State.start mode).Reads mode [] := by
  refine ⟨[], [], rfl, ?_, ?_⟩
  · cases mode with
    | expression => exact .expression
    | concat => exact .text
  · cases mode with
    | expression => exact Expression.empty blanks_nil
    | concat => exact Text.empty

/-- What the tokens read so far say about a state they say together with the next token about the
state after it. -/
theorem Reads.step {mode : Mode} {ts : List Token} {s s' : State} {t : Token}
    (reads : s.Reads mode ts) (way : Step s t s') : s'.Reads mode (ts ++ [t]) := by
  obtain ⟨before, own, rfl, enclosed, reads⟩ := reads
  rw [List.append_assoc]
  cases way with
  | @literal parts below phase _ calm literal =>
    cases enclosed with
    | text =>
      have longer := Text.literal (reads.whole calm) literal
      refine ⟨[], own ++ [t], rfl, .text, ?_⟩
      show Text (own ++ [t]) (Term.string t.text :: parts).reverse
      rwa [List.reverse_cons]
  | @openBlock parts below phase _ calm opening =>
    cases enclosed with
    | text =>
      refine ⟨own ++ [t], [], (List.append_nil _).symm, ?_, Expression.empty blanks_nil⟩
      exact .block (reads.whole calm) opening
  | @blank top below phase _ calm noText blank =>
    exact ⟨before, own ++ [t], rfl, enclosed, (reads.whole calm).blank noText blank⟩
  | @wait top below op sign _ blank =>
    obtain ⟨earlier, between, rfl, symbol, blanks, whole⟩ := reads
    refine ⟨before, _, rfl, enclosed, earlier, between ++ [t], ?_, symbol,
      blanks.append (blanks_singleton blank), whole⟩
    simp only [List.append_assoc, List.cons_append]
  | @operator top below phase op _ statement calm has symbol =>
    exact ⟨before, own ++ [t], rfl, enclosed, own, [], rfl, symbol, blanks_nil, reads.whole calm⟩
  | @operand _ grow w _ expects read =>
    have held := reads.operand expects (operand_of_read? read)
    refine ⟨before, own ++ [t], rfl, enclosed.withStatement _, ?_⟩
    rcases Word.literal_or_isName_of_read? read with ⟨value, rfl, -⟩ | ⟨rfl, isName⟩
    · exact held
    · exact ⟨held, own, t, rfl, rfl, isName, reads.awaits expects t.text⟩
  | @openCall top below name _ noText opening =>
    obtain ⟨-, earlier, nameToken, rfl, rfl, isName, awaits⟩ := reads
    refine ⟨before ++ (earlier ++ [nameToken, t]), [], ?_, ?_, ?_⟩
    · simp only [List.append_assoc, List.cons_append, List.nil_append, List.append_nil]
    · exact .call (enclosed.withStatement _) (awaits.entered noText rfl) isName opening
    · exact OpenArguments.first (.empty blanks_nil)
  | @endArgument name arguments argument below phase _ calm comma =>
    cases enclosed with
    | call enclosed awaits isName opening =>
      have longer := OpenArguments.comma (reads.whole calm) comma
      exact ⟨_, own ++ [t], rfl, .call enclosed awaits isName opening, longer⟩
  | @endCall name arguments current frame below phase _ statement calm closing complete has =>
    cases enclosed with
    | @call _ before own' nameToken opening _ _ _ _ enclosed awaits isName isOpening =>
      have finished := OpenArguments.call (reads.whole calm) complete isName isOpening closing
      have held := awaits finished
      rw [has] at held
      refine ⟨before, _, ?_, enclosed.withStatement _, held⟩
      simp only [List.append_assoc, List.cons_append, List.nil_append]
  | @endBlock statement parts below phase _ calm closing =>
    cases enclosed with
    | @block before opening _ _ text isOpening =>
      have longer := Text.block text isOpening (reads.whole calm) closing
      refine ⟨[], before ++ opening :: (own ++ [t]), ?_, .text, ?_⟩
      · simp only [List.append_assoc, List.cons_append, List.nil_append]
      · show Text _ (Term.expression statement :: parts).reverse
        rwa [List.reverse_cons]

/-- What a state says about the tokens that led to it. -/
theorem reads_of_reaches {mode : Mode} {ts : List Token} {s : State}
    (reached : Reaches (.start mode) ts s) : s.Reads mode ts :=
  reached.induct (fun ts s => s.Reads mode ts) (reads_start mode)
    (fun _ _ _ _ reads way => reads.step way)

end State

end Parse

open Parse

/-- Every source that is accepted is formed by the grammar, as the same term. -/
theorem source_of_parse {mode : Mode} {ts : List Token} {t : Term}
    (accepted : parse mode ts = .ok t) :
    Grammar.Source mode ts t := by
  obtain ⟨top, phase, reached, calm, rfl⟩ := parse_eq_ok_iff.mp accepted
  obtain ⟨before, own, rfl, enclosed, reads⟩ := State.reads_of_reaches reached
  have whole := reads.whole calm
  cases enclosed with
  | text => exact .concat whole
  | expression => exact .expression whole

end Inlay
