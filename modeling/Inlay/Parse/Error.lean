import Inlay.Token.Basic

/-!
# Why a source is refused

A refusal names one place and what is wrong there: a token that cannot stand where it stands, an
operator without an operand on one side, or a source that ends too early.
-/

namespace Inlay

/-- What is wrong at a place. -/
inductive ParseFault
  | unexpectedToken (token : String)
  | unexpectedRightOperand (token : String)
  | missingLeftOperand (operator : String)
  | missingRightOperand (operator : String)
  | unexpectedEnd
  deriving DecidableEq, Repr

/-- What is wrong and where. -/
structure ParseError where
  position : Position
  fault : ParseFault
  deriving DecidableEq, Repr

/-- A fault in words. -/
def ParseFault.message : ParseFault → String
  | unexpectedToken token => "Unexpected token: " ++ token
  | unexpectedRightOperand token => "Unexpected right operand: " ++ token
  | missingLeftOperand operator => "Missing left operand: " ++ operator
  | missingRightOperand operator => "Missing right operand: " ++ operator
  | unexpectedEnd => "Unexpected end of input"

/-- A refusal in words. -/
def ParseError.message (e : ParseError) : String :=
  "Parse error at line " ++ toString e.position.line ++ ", column " ++ toString e.position.column ++
    ": " ++ e.fault.message

namespace Token

/-- The refusal of a token that cannot stand where it stands. -/
def unexpected (t : Token) : ParseError :=
  ⟨t.position, .unexpectedToken t.text⟩

end Token

end Inlay
