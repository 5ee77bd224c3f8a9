import Inlay.Number.Binary64
import Inlay.Term.Operator

/-!
# Terms

A term is what a source means: an expression, or text with expressions set into it. Terms are plain
trees; one that was built by hand is as good as one that was read from a source.
-/

namespace Inlay

/-- A term. `concat` is text put together from parts, and `expression` is the whole of an expression
or of a block inside text, which may be empty. The rest are the parts of expressions: literals,
references to variables by their paths, calls and operations. -/
inductive Term
  | concat (parts : List Term)
  | expression (statement : Option Term)
  | number (x : Binary64)
  | string (s : String)
  | boolean (b : Bool)
  | reference (path : List String)
  | call (name : String) (arguments : List Term)
  | binary (operator : Operator) (left right : Term)
  deriving Inhabited

/-- Segments put together with points into a dotted name. -/
def dotted (path : List String) : String :=
  ".".intercalate path

/-- The segments of a dotted name. -/
def segments (name : String) : List String :=
  (name.toList.splitOn '.').map String.ofList

/-- The segments of a name put together are the name. -/
theorem dotted_segments (name : String) : dotted (segments name) = name := by
  apply String.ext
  have whole : ".".toList = ['.'] := by decide
  simp [dotted, segments, String.toList_intercalate, whole, Function.comp_def,
    List.intercalate_splitOn]

namespace Term

/-- The reference to the variable of a dotted name. -/
def ofName (name : String) : Term :=
  reference (segments name)

/-- What sort of term this is, in a word or two. -/
def kind : Term → String
  | concat _ => "concat"
  | expression _ => "expression"
  | number _ => "number"
  | string _ => "string"
  | boolean _ => "boolean"
  | reference _ => "variable"
  | call .. => "function"
  | binary .. => "binary operation"

mutual

/-- Whether two terms have the same shape and equal leaves, their numbers compared as the language
compares them. -/
def equals : Term → Term → Bool
  | concat parts, concat others => listEquals parts others
  | expression none, expression none => true
  | expression (some t), expression (some u) => t.equals u
  | number x, number y => x.equals y
  | string s, string t => s == t
  | boolean b, boolean c => b == c
  | reference path, reference other => path == other
  | call name arguments, call name' others => name == name' && listEquals arguments others
  | binary op left right, binary op' left' right' =>
    op == op' && left.equals left' && right.equals right'
  | _, _ => false

/-- Whether two lists have equal terms in the same places. -/
def listEquals : List Term → List Term → Bool
  | [], [] => true
  | t :: ts, u :: us => t.equals u && listEquals ts us
  | _, _ => false

end

end Term

end Inlay
