import Inlay.Text.Blank

/-!
# Tokens and their positions

A token is a piece of a source together with the place where it begins. A token carries no
classification: whether `-` is an operator or literal text is decided where the token is read.
-/

namespace Inlay

/-- A place in a source. Lines count from one; a column counts from one, in the bytes that the
text takes in UTF-8. -/
structure Position where
  line : Nat
  column : Nat
  deriving DecidableEq, Repr, Inhabited

namespace Position

/-- Where every source begins. -/
def start : Position := ⟨1, 1⟩

/-- The place just past one character. Only a line feed begins a line. -/
def advance (p : Position) (c : Char) : Position :=
  if c = '\n' then ⟨p.line + 1, 1⟩ else ⟨p.line, p.column + c.utf8Size⟩

/-- The place just past a text that begins here. -/
def after (p : Position) (text : List Char) : Position :=
  text.foldl advance p

/-- Going past two texts is going past one and then past the other. -/
theorem after_append (p : Position) (first second : List Char) :
    p.after (first ++ second) = (p.after first).after second :=
  List.foldl_append

end Position

/-- A piece of a source and the place of its first character. -/
structure Token where
  text : String
  position : Position
  deriving DecidableEq, Repr, Inhabited

namespace Token

/-- A token is blank when its first character is. A token of a source holds blanks only or none,
so that looking at one character is enough. -/
def isBlank (t : Token) : Bool :=
  t.text.toList.head?.any Text.isBlank

/-- The place just past the token. -/
def stop (t : Token) : Position :=
  t.position.after t.text.toList

end Token

end Inlay
