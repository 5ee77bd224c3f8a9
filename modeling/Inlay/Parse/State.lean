import Inlay.Parse.Error
import Inlay.Term.Splice
import Inlay.Term.Word

/-!
# Reading a term, token by token

The state of reading is a stack of the parts of the term that are still open, the innermost first,
and a phase that says what the last token left behind. `State.step` takes one token in, and
`State.finish` ends the reading. Each token is judged when it is met: a token that no continuation
could make good is refused at once.

A call is entered in its statement before its arguments are known: as an argumentless call in the
place of the last operand, which the finished call replaces once it is closed. The last operand of
the statement below an open call is therefore always that call's place.
-/

namespace Inlay.Parse

/-- How the whole of a source is read: as one expression, or as text with expressions between
doubled braces. -/
inductive Mode
  | expression
  | concat
  deriving DecidableEq, Repr, Inhabited

/-- A part that is still open: text, the statement of an expression, or the arguments of a call with
the one that is being read. Finished parts and arguments are kept newest first. -/
inductive Frame
  | concat (parts : List Term)
  | expression (statement : Option Term)
  | call (name : String) (arguments : List Term) (current : Option Term)
  deriving Inhabited

namespace Frame

/-- The open part that all else is read into. -/
def root : Mode → Frame
  | .expression => expression none
  | .concat => concat []

/-- The statement that an operator would continue. -/
def statement? : Frame → Option Term
  | concat _ => none
  | expression statement => statement
  | call _ _ current => current

/-- The part with another statement. Text has none. -/
def withStatement (statement : Option Term) : Frame → Frame
  | concat parts => concat parts
  | expression _ => expression statement
  | call name arguments _ => call name arguments statement

/-- Whether the part is text. -/
def isText : Frame → Bool
  | concat _ => true
  | _ => false

/-- The term of a part that is complete. -/
def close : Frame → Term
  | concat parts => .concat parts.reverse
  | expression statement => .expression statement
  | call name arguments current => .call name ((current.toList ++ arguments).reverse)

end Frame

/-- What the last token left behind: nothing, a name that an argument list may follow at once, or an
operator that waits for its right operand. -/
inductive Phase
  | ready
  | named (name : String)
  | waiting (operator : Operator) (sign : Token)
  deriving Inhabited

/-- How far reading has come. -/
structure State where
  top : Frame
  below : List Frame
  phase : Phase
  deriving Inhabited

/-- What opens a block in text. -/
def blockStart : String := "\x7b\x7b"

/-- What closes a block. -/
def blockEnd : String := "\x7d\x7d"

/-- What a word leaves behind. -/
def Phase.after : Word → Phase
  | .literal _ => .ready
  | .name name => .named name

namespace State

/-- The state before the first token. -/
def start (mode : Mode) : State :=
  ⟨.root mode, [], .ready⟩

/-- The state with nothing left behind. -/
def settle (s : State) : State :=
  { s with phase := .ready }

/-- A token met in text. All but the start of a block is literal. -/
def inText (s : State) (parts : List Term) (t : Token) : State :=
  if t.text = blockStart then ⟨.expression none, s.top :: s.below, .ready⟩
  else ⟨.concat (.string t.text :: parts), s.below, .ready⟩

/-- An operator continues a statement. -/
def operator (s : State) (op : Operator) (t : Token) : Except ParseError State :=
  match s.top.statement? with
  | some _ => .ok { s with phase := .waiting op t }
  | none => .error ⟨t.position, .missingLeftOperand t.text⟩

/-- A word begins a statement. -/
def word (s : State) (w : Word) (t : Token) : Except ParseError State :=
  if s.top.isText || s.top.statement?.isSome then .error t.unexpected
  else .ok ⟨s.top.withStatement (some w.term), s.below, .after w⟩

/-- The token after an operator is its right operand. -/
def rightOperand (s : State) (op : Operator) (t : Token) : Except ParseError State :=
  match Word.read? t.text, s.top.statement? with
  | none, _ => .error ⟨t.position, .unexpectedRightOperand t.text⟩
  | some _, none => .error t.unexpected
  | some w, some statement =>
    .ok ⟨s.top.withStatement (some (statement.splice op w.term)), s.below, .after w⟩

/-- A name turns out to begin a call: an argumentless call takes the place of the last operand, and
the arguments are open. -/
def openCall (s : State) (name : String) : State :=
  let entered := s.top.statement?.map (·.withRightLeaf (.call name []))
  ⟨.call name [] none, s.top.withStatement entered :: s.below, .ready⟩

/-- A comma finishes an argument. -/
def endArgument (s : State) (t : Token) : Except ParseError State :=
  match s.top with
  | .call name arguments (some argument) =>
    .ok ⟨.call name (argument :: arguments) none, s.below, .ready⟩
  | _ => .error t.unexpected

/-- A closing parenthesis finishes a call, which replaces the last operand of the statement below.
An argument must not be missing after a comma. -/
def endCall (s : State) (t : Token) : Except ParseError State :=
  match s.top, s.below with
  | .call _ (_ :: _) none, _ => .error t.unexpected
  | .call name arguments current, frame :: below =>
    match frame.statement? with
    | some statement =>
      let finished := (Frame.call name arguments current).close
      .ok ⟨frame.withStatement (some (statement.withRightLeaf finished)), below, .ready⟩
    | none => .error t.unexpected
  | _, _ => .error t.unexpected

/-- Two closing braces finish a block of text. -/
def endBlock (s : State) (t : Token) : Except ParseError State :=
  match s.top, s.below with
  | .expression statement, .concat parts :: below =>
    .ok ⟨.concat (.expression statement :: parts), below, .ready⟩
  | _, _ => .error t.unexpected

/-- A token met in an expression that no operator waits in. -/
def inExpression (s : State) (t : Token) : Except ParseError State :=
  if t.isBlank then .ok s.settle
  else
    match Operator.ofSymbol? t.text with
    | some op => s.operator op t
    | none =>
      match Word.read? t.text with
      | some w => s.word w t
      | none =>
        if t.text = "," then s.endArgument t
        else if t.text = ")" then s.endCall t
        else if t.text = blockEnd then s.endBlock t
        else .error t.unexpected

/-- Takes one token in. -/
def step (s : State) (t : Token) : Except ParseError State :=
  match s.phase, s.top with
  | .waiting op _, _ => if t.isBlank then .ok s else s.rightOperand op t
  | _, .concat parts => .ok (s.inText parts t)
  | .named name, _ => if t.text = "(" then .ok (s.openCall name) else s.inExpression t
  | .ready, _ => s.inExpression t

/-- Ends the reading at a place: no operator may still wait for its right operand, and nothing but
the root may be open. -/
def finish (s : State) (stop : Position) : Except ParseError Term :=
  match s.phase, s.below with
  | .waiting _ sign, _ => .error ⟨sign.position, .missingRightOperand sign.text⟩
  | _, [] => .ok s.top.close
  | _, _ :: _ => .error ⟨stop, .unexpectedEnd⟩

end State

/-- The place just past several tokens. -/
def stopOf (tokens : List Token) : Position :=
  (tokens.getLast?.map Token.stop).getD .start

end Inlay.Parse

namespace Inlay

/-- The term that tokens form, or the first fault among them. -/
def parse (mode : Parse.Mode) (tokens : List Token) : Except ParseError Term := do
  let s ← tokens.foldlM Parse.State.step (Parse.State.start mode)
  s.finish (Parse.stopOf tokens)

end Inlay
