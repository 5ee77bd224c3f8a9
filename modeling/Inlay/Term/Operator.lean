/-!
# Binary operators

The fourteen operators, each with the symbol that stands for it in a source and with a precedence:
of two operators the one of greater precedence binds tighter. Operators of the same precedence
associate to the left.
-/

namespace Inlay

/-- A binary operator. -/
inductive Operator
  | multiplication
  | division
  | modulo
  | addition
  | subtraction
  | greaterThan
  | greaterThanOrEqual
  | lessThan
  | lessThanOrEqual
  | strictEqual
  | strictNotEqual
  | and
  | or
  | pipe
  deriving DecidableEq, Repr, Inhabited

namespace Operator

/-- All operators, from the tightest to the loosest. -/
def all : List Operator :=
  [multiplication, division, modulo, addition, subtraction, greaterThan, greaterThanOrEqual,
    lessThan, lessThanOrEqual, strictEqual, strictNotEqual, and, or, pipe]

/-- The name of an operator. -/
def name : Operator → String
  | multiplication => "Multiplication"
  | division => "Division"
  | modulo => "Modulo"
  | addition => "Addition"
  | subtraction => "Subtraction"
  | greaterThan => "GreaterThan"
  | greaterThanOrEqual => "GreaterThanOrEqual"
  | lessThan => "LessThan"
  | lessThanOrEqual => "LessThanOrEqual"
  | strictEqual => "StrictEqual"
  | strictNotEqual => "StrictNotEqual"
  | and => "And"
  | or => "Or"
  | pipe => "Pipe"

/-- The text of an operator in a source. -/
def symbol : Operator → String
  | multiplication => "*"
  | division => "/"
  | modulo => "%"
  | addition => "+"
  | subtraction => "-"
  | greaterThan => ">"
  | greaterThanOrEqual => ">="
  | lessThan => "<"
  | lessThanOrEqual => "<="
  | strictEqual => "==="
  | strictNotEqual => "!=="
  | and => "&&"
  | or => "||"
  | pipe => "|"

/-- How tight an operator binds. -/
def precedence : Operator → Nat
  | multiplication | division | modulo => 12
  | addition | subtraction => 11
  | greaterThan | greaterThanOrEqual | lessThan | lessThanOrEqual => 9
  | strictEqual | strictNotEqual => 8
  | and => 4
  | or => 3
  | pipe => 1

/-- The operator that a text is the symbol of. -/
def ofSymbol? (text : String) : Option Operator :=
  all.find? (·.symbol == text)

/-- The operator that has a name. -/
def ofName? (name : String) : Option Operator :=
  all.find? (·.name == name)

theorem ofSymbol?_symbol (op : Operator) : ofSymbol? op.symbol = some op := by
  cases op <;> decide

theorem ofName?_name (op : Operator) : ofName? op.name = some op := by
  cases op <;> decide

end Operator

end Inlay
