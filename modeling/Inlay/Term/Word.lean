import Inlay.Number.Decimal
import Inlay.Term.Basic
import Inlay.Token.Split

/-!
# Words

A word is a token that stands for an operand on its own: a number, a quoted text, one of the two
truth values, or a name. The classes are tried in that order. A name differs from the rest in that
it may begin a call.
-/

namespace Inlay

/-- An operand of one token. -/
inductive Word
  | literal (t : Term)
  | name (name : String)
  deriving Inhabited

namespace Word

/-- Whether a text is a number: digits, perhaps a point and more digits, perhaps a minus in
front. -/
def isNumber (cs : List Char) : Bool :=
  let unsigned := if cs.head? = some '-' then cs.drop 1 else cs
  match unsigned.dropWhile (· != '.') with
  | [] => Decimal.isDigits unsigned
  | _ :: fraction =>
    Decimal.isDigits (unsigned.takeWhile (· != '.')) && Decimal.isDigits fraction

/-- What stands between the quotes of a text that begins and ends with the same quote. -/
def unquoted? : List Char → Option (List Char)
  | [] => none
  | quote :: rest =>
    if Token.isQuote quote && rest.getLast? == some quote then some rest.dropLast else none

/-- The characters with which a name may begin. -/
def beginsName (c : Char) : Bool :=
  c.isAlpha || c == '_' || c == '$'

/-- The characters that a name may hold. -/
def inName (c : Char) : Bool :=
  c.isAlphanum || c == '_' || c == '$' || c == '.'

/-- Whether a text is a name, perhaps a dotted one. A name does not end with a point. -/
def isName : List Char → Bool
  | [] => false
  | c :: rest => beginsName c && rest.all inName && rest.getLast? != some '.'

/-- The word that a text is. -/
def read? (text : String) : Option Word :=
  let cs := text.toList
  if isNumber cs then (Decimal.read? cs).map fun d => literal (.number d.nearest)
  else
    match unquoted? cs with
    | some inner => some (literal (.string (String.ofList inner)))
    | none =>
      if text = "true" then some (literal (.boolean true))
      else if text = "false" then some (literal (.boolean false))
      else if isName cs then some (name text)
      else none

/-- The operand that a word is, where no call begins. -/
def term : Word → Term
  | literal t => t
  | name n => Term.ofName n

end Word

end Inlay
