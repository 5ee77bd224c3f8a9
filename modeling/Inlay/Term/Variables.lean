import Inlay.Term.Basic

/-!
# The variables of a term

The dotted names that a term reads from its context. What a pipe names on its right is a method and
is not read from the context; only the arguments of a call there are.

The names are gathered from a stack of terms that are still to be looked through, so that a long
chain of operators is not descended into. They come out of order and more than once, and are sorted
and cleared of repeats at the end.
-/

namespace Inlay

/-- A list without the entries that repeat the one before them. -/
def unrepeated : List String → List String
  | first :: second :: rest =>
    if first = second then unrepeated (second :: rest) else first :: unrepeated (second :: rest)
  | names => names

namespace Term

/-- The parts of a term that it reads from its context. -/
def readParts : Term → List Term
  | concat parts => parts
  | expression statement => statement.toList
  | call _ arguments => arguments
  | binary .pipe input (call _ arguments) => input :: arguments
  | binary .pipe input _ => [input]
  | binary _ left right => [left, right]
  | reference _ | number _ | string _ | boolean _ => []

theorem sizeOf_readParts_lt (t : Term) : sizeOf t.readParts < sizeOf t + 2 := by
  unfold readParts
  split
  case h_2 statement =>
    cases statement with
    | none =>
      simp only [Option.toList_none, List.nil.sizeOf_spec]
      omega
    | some t =>
      simp only [Option.toList_some, List.cons.sizeOf_spec, List.nil.sizeOf_spec,
        expression.sizeOf_spec, Option.some.sizeOf_spec]
      omega
  case h_6 op left right _ _ =>
    have least : sizeOf op = 1 := by cases op <;> rfl
    simp only [List.cons.sizeOf_spec, List.nil.sizeOf_spec, binary.sizeOf_spec, least]
    omega
  all_goals
    simp only [List.cons.sizeOf_spec, List.nil.sizeOf_spec, concat.sizeOf_spec, call.sizeOf_spec,
      binary.sizeOf_spec]
    omega

theorem sizeOf_reverse_append (ts pending : List Term) :
    sizeOf (ts.reverse ++ pending) + 1 = sizeOf ts + sizeOf pending := by
  induction ts generalizing pending with
  | nil =>
    rw [List.reverse_nil, List.nil_append, List.nil.sizeOf_spec, Nat.add_comm]
  | cons t ts ih =>
    rw [List.reverse_cons, List.append_assoc, List.singleton_append, ih, List.cons.sizeOf_spec,
      List.cons.sizeOf_spec]
    omega

/-- The names that pending terms read, after those found before. The last part of a term is the
first to be looked through. -/
def gather (pending : List Term) (found : Array String) : Array String :=
  match pending with
  | [] => found
  | reference path :: pending => gather pending (found.push (dotted path))
  | t :: pending => gather (t.readParts.reverse ++ pending) found
termination_by sizeOf pending
decreasing_by
  · rw [List.cons.sizeOf_spec]
    omega
  · have parts := t.sizeOf_readParts_lt
    have stacked := sizeOf_reverse_append t.readParts pending
    rw [List.cons.sizeOf_spec]
    omega

/-- The names that a term reads, each once and in ascending order. -/
def variableNames (t : Term) : List String :=
  unrepeated (gather [t] #[]).toList.mergeSort

end Term

end Inlay
