import Inlay.Text.Quoted
import Inlay.Value.Basic

/-!
# Methods

A method is a function on values that an expression can call by name, either as a call or as the
target of a pipe. It is given all its arguments at once and decides itself what a missing one means.
-/

namespace Inlay

/-- A function from arguments to a value. -/
abbrev Method := List Value → Value

/-- Methods by name. -/
abbrev Methods := Table Method

/-- The names of methods in a line of text, in ascending order and quoted. -/
def Methods.listing (methods : Methods) : String :=
  "Methods \x7b names: [" ++ ", ".intercalate (methods.keys.map Text.quoted) ++ "] \x7d"

end Inlay
