import Inlay.Evaluation.Basic
import Inlay.Proofs.Value.Segment

/-!
# Paths put together

A path is followed one segment after the other: what is left of it is followed from the value that
its front leads to, whatever kinds of values lie on the way (`Value.follow_append`). So a path from
a name of a context can be cut anywhere behind the name, and be taken up again from a context that
holds no more than the value at the cut (`Context.resolve_composes`).

`Value.Lacks` lists the ways in which a segment leads nowhere. From there on a path is undefined.
-/

namespace Inlay

namespace Value

@[simp] theorem follow_nil (v : Value) : v.follow [] = v := by
  rw [follow]

theorem follow_undefined (path : List String) : undefined.follow path = undefined := by
  cases path with
  | nil => rfl
  | cons segment rest => rfl

/-! ## The first segment of a path, by the kind of value -/

/-- The path goes on from the member under the key. -/
theorem follow_object (members : Entries Value none) (segment : String) (rest : List String) :
    (object members).follow (segment :: rest) =
      ((members.find? segment).getD undefined).follow rest := by
  rw [follow]
  cases members.find? segment with
  | some member => rfl
  | none => exact (follow_undefined rest).symm

/-- The path goes on from the item at the index. -/
theorem follow_item (items : List Value) {segment : String} (other : segment ≠ "length")
    (rest : List String) :
    (array items).follow (segment :: rest) =
      (((index? segment).bind (items[·]?)).getD undefined).follow rest := by
  rw [follow, if_neg other]
  cases (index? segment).bind (items[·]?) with
  | some item => rfl
  | none => exact (follow_undefined rest).symm

/-- The path goes on from the text of the unit at the index. -/
theorem follow_unit (s : String) {segment : String} (other : segment ≠ "length")
    (rest : List String) :
    (string s).follow (segment :: rest) =
      ((((index? segment).bind ((Text.units s)[·]?)).map (string <| Text.ofUnit ·)).getD
        undefined).follow rest := by
  rw [follow, if_neg other]
  cases (index? segment).bind ((Text.units s)[·]?) with
  | some unit => rfl
  | none => exact (follow_undefined rest).symm

/-- How many parts of a value have an index. -/
def count? : Value → Option Nat
  | array items => some items.length
  | string s => some (Text.units s).length
  | null | undefined | boolean _ | number _ | object _ => none

/-- The path goes on from the number of parts that have an index. -/
theorem follow_length {v : Value} {count : Nat} (counted : v.count? = some count)
    (rest : List String) : v.follow ("length" :: rest) = (ofCount count).follow rest := by
  cases v with
  | array items =>
    cases counted
    rw [follow, if_pos rfl]
  | string s =>
    cases counted
    rw [follow, if_pos rfl]
  | null | undefined | boolean _ | number _ | object _ => cases counted

/-- Whether a value has no parts at all. -/
def IsScalar : Value → Prop
  | null | undefined | boolean _ | number _ => True
  | string _ | array _ | object _ => False

theorem follow_scalar {v : Value} (scalar : v.IsScalar) (segment : String) (rest : List String) :
    v.follow (segment :: rest) = undefined := by
  cases v with
  | null | undefined | boolean _ | number _ => rfl
  | string _ | array _ | object _ => cases scalar

/-! ## One segment after the other -/

/-- The value that one segment leads to. -/
def step (v : Value) (segment : String) : Value :=
  v.follow [segment]

/-- The rest of a path is followed from where its first segment leads. -/
theorem follow_cons (v : Value) (segment : String) (rest : List String) :
    v.follow (segment :: rest) = (v.step segment).follow rest := by
  cases v with
  | object members => rw [step, follow_object, follow_object, follow_nil]
  | array items =>
    by_cases length : segment = "length"
    · subst length
      rw [step, follow_length rfl, follow_length rfl, follow_nil]
    · rw [step, follow_item items length, follow_item items length, follow_nil]
  | string s =>
    by_cases length : segment = "length"
    · subst length
      rw [step, follow_length rfl, follow_length rfl, follow_nil]
    · rw [step, follow_unit s length, follow_unit s length, follow_nil]
  | null | undefined | boolean _ | number _ => exact (follow_undefined rest).symm

/-- A path of two parts leads where the second part leads from where the first one does. -/
theorem follow_append (v : Value) (path rest : List String) :
    v.follow (path ++ rest) = (v.follow path).follow rest := by
  induction path generalizing v with
  | nil => rw [List.nil_append, follow_nil]
  | cons segment path ih => rw [List.cons_append, follow_cons, ih, ← follow_cons]

/-- The length of a value is the number of its parts that have an index. -/
theorem step_length {v : Value} {count : Nat} (counted : v.count? = some count) :
    v.step "length" = ofCount count := by
  rw [step, follow_length counted, follow_nil]

/-! ## Segments that lead nowhere -/

/-- The ways in which a segment leads to no part of a value: an object has no such key; the segment
is neither the length nor the decimal text of an index in range; or there are no parts. -/
inductive Lacks : Value → String → Prop
  | key {members : Entries Value none} {segment : String} :
    members.find? segment = none → Lacks (object members) segment
  | index {v : Value} {count : Nat} {segment : String} :
    v.count? = some count → segment ≠ "length" →
      (∀ i < count, i < indexLimit → segment ≠ toString i) → Lacks v segment
  | scalar {v : Value} {segment : String} : v.IsScalar → Lacks v segment

/-- A segment that is no index in range is the index of nothing in a list. -/
theorem getElem?_of_forall_ne {α : Type} {list : List α} {segment : String}
    (outside : ∀ i < list.length, i < indexLimit → segment ≠ toString i) :
    (index? segment).bind (list[·]?) = none := by
  cases found : index? segment with
  | none => rfl
  | some i =>
    obtain ⟨same, small⟩ := index?_eq_some_iff.mp found
    apply List.getElem?_eq_none
    apply Nat.le_of_not_lt
    intro inside
    exact outside i inside small same

/-- A segment without a part leads to undefined. -/
theorem Lacks.step_eq {v : Value} {segment : String} (lacks : v.Lacks segment) :
    v.step segment = undefined := by
  cases lacks with
  | key missing => rw [step, follow_object, missing, Option.getD_none, follow_nil]
  | index counted other outside =>
    cases v with
    | array items =>
      cases counted
      rw [step, follow_item items other, getElem?_of_forall_ne outside, Option.getD_none,
        follow_nil]
    | string s =>
      cases counted
      rw [step, follow_unit s other, getElem?_of_forall_ne outside, Option.map_none,
        Option.getD_none, follow_nil]
    | null | undefined | boolean _ | number _ | object _ => cases counted
  | scalar none => exact follow_scalar none segment []

end Value

namespace Context

/-- What is left of a path from a name is followed from the value that its front leads to. -/
theorem resolve_append (context : Context) {path : List String} (named : path ≠ [])
    (rest : List String) : context.resolve (path ++ rest) = (context.resolve path).follow rest := by
  cases path with
  | nil => exact absurd rfl named
  | cons name path => exact Value.follow_append _ path rest

/-- A context of one name has the value of that name. -/
theorem resolve_single (name : String) (v : Value) (rest : List String) :
    Context.resolve (.ofList [(name, v)]) (name :: rest) = v.follow rest := by
  have bound : Entries.find? name (Entries.ofList [(name, v)]) = some v := by
    show Entries.find? name (Entries.put .empty name v) = some v
    rw [Entries.find?_put, if_pos rfl]
  rw [resolve, bound, Option.getD_some]

/-- A path that leads to undefined is undefined from there on. -/
theorem resolve_append_of_undefined {context : Context} {path : List String} (named : path ≠ [])
    (missing : context.resolve path = .undefined) (rest : List String) :
    context.resolve (path ++ rest) = .undefined := by
  rw [context.resolve_append named, missing, Value.follow_undefined]

/-- A path that goes on where there is no part is undefined. -/
theorem resolve_append_of_lacks {context : Context} {path : List String} (named : path ≠ [])
    {segment : String} (lacks : (context.resolve path).Lacks segment) (rest : List String) :
    context.resolve (path ++ segment :: rest) = .undefined := by
  rw [context.resolve_append named, Value.follow_cons, lacks.step_eq, Value.follow_undefined]

/-- A path is resolved by resolving its rest from what its front leads to, as from a context with
nothing else in it. Undefined takes in everything that comes after it, and so does a name that is
not bound, a segment without a part, and whatever is asked of a length. An expression that is such a
path has its value, and never fails. -/
theorem resolve_composes (context : Context) {path : List String} (named : path ≠ [])
    (rest : List String) :
    (∀ name, context.resolve (path ++ rest) =
      Context.resolve (.ofList [(name, context.resolve path)]) (name :: rest)) ∧
    (context.resolve path = .undefined → context.resolve (path ++ rest) = .undefined) ∧
    (context.find? (path.head named) = none → context.resolve (path ++ rest) = .undefined) ∧
    (∀ segment, (context.resolve path).Lacks segment →
      context.resolve (path ++ segment :: rest) = .undefined) ∧
    (∀ count segment, (context.resolve path).count? = some count →
      context.resolve (path ++ ["length"]) = .ofCount count ∧
      context.resolve (path ++ "length" :: segment :: rest) = .undefined) ∧
    ∀ methods, (Term.reference (path ++ rest)).evaluate context methods =
      ⟨.ok (context.resolve (path ++ rest)), []⟩ := by
  refine ⟨fun name => ?_, fun missing => resolve_append_of_undefined named missing rest, ?_,
    fun segment lacks => resolve_append_of_lacks named lacks rest, ?_, fun methods => rfl⟩
  · rw [resolve_single, context.resolve_append named]
  · intro unbound
    cases path with
    | nil => exact absurd rfl named
    | cons name path =>
      rw [List.head_cons] at unbound
      rw [List.cons_append, resolve, unbound, Option.getD_none, Value.follow_undefined]
  · intro count segment counted
    have length : context.resolve (path ++ ["length"]) = .ofCount count := by
      rw [context.resolve_append named]
      exact Value.step_length counted
    refine ⟨length, ?_⟩
    have scalar : (context.resolve (path ++ ["length"])).Lacks segment := by
      rw [length]
      exact .scalar trivial
    have past := resolve_append_of_lacks (by simp) scalar rest
    rwa [List.append_assoc] at past

/-- A path through an object, an array and a text can be cut at the array; it leads nowhere behind
the last item and behind the length. -/
theorem resolve_composes_through_array :
    ∃ context : Context,
      context.resolve ["user", "tags", "1", "0"] = .string "o" ∧
      Context.resolve (.ofList [("tags", context.resolve ["user", "tags"])]) ["tags", "1", "0"] =
        .string "o" ∧
      context.resolve ["user", "tags", "2", "0"] = .undefined ∧
      context.resolve ["user", "tags", "length"] = .ofCount 2 ∧
      context.resolve ["user", "tags", "length", "0"] = .undefined := by
  let context : Context := .ofList
    [("user", .object (.ofList [("tags", .array [.string "new", .string "old"])]))]
  have tags : context.resolve ["user", "tags"] = .array [.string "new", .string "old"] := rfl
  have initial : context.resolve ["user", "tags", "1", "0"] = .string "o" := rfl
  have counted : (context.resolve ["user", "tags"]).count? = some 2 := by
    rw [tags]
    rfl
  have lacks : (context.resolve ["user", "tags"]).Lacks "2" :=
    .index counted (by decide) (by decide)
  have named : ["user", "tags"] ≠ [] := nofun
  obtain ⟨cut, -⟩ := resolve_composes context named ["1", "0"]
  obtain ⟨-, -, -, behind, past, -⟩ := resolve_composes context named ["0"]
  obtain ⟨length, further⟩ := past 2 "0" counted
  exact ⟨context, initial, (cut "tags").symm.trans initial, behind "2" lacks, length, further⟩

end Context

end Inlay
