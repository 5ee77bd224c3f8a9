import Inlay.Json.Term
import Inlay.Proofs.Term.Everywhere

/-!
# Terms written and read again

A term that is written and read again is the same term if all numbers in it are finite, and if one
is not, at any depth, what was written is no term at all: nothing is ever read back as another term.
A reading that ends in one of these two ways is said to yield its term under a condition (`Yields`),
and the readings of a term's parts are put together into that of the term with the conditions of all
of them.
-/

namespace Inlay

/-! ## Readings under a condition -/

/-- Whether a reading gives a value exactly under a condition, and otherwise nothing. -/
def Yields {α : Type} (reading : Option α) (a : α) (condition : Prop) : Prop :=
  ∀ b, reading = some b ↔ b = a ∧ condition

namespace Yields

variable {α β γ : Type} {a : α} {b : β} {p q : Prop} {first : Option α} {second : Option β}

theorem some_self (a : α) : Yields (some a) a True := by
  intro b
  rw [Option.some.injEq, and_true, eq_comm]

theorem map (yields : Yields first a p) (f : α → γ) : Yields (first.map f) (f a) p := by
  intro c
  rw [Option.map_eq_some_iff]
  constructor
  · rintro ⟨x, read, rfl⟩
    obtain ⟨rfl, holds⟩ := (yields x).mp read
    exact ⟨rfl, holds⟩
  · rintro ⟨rfl, holds⟩
    exact ⟨a, (yields a).mpr ⟨rfl, holds⟩, rfl⟩

/-- Of two readings both conditions are needed. -/
theorem both (left : Yields first a p) (right : Yields second b q) (f : α → β → γ) :
    Yields (first >>= fun x => second >>= fun y => pure (f x y)) (f a b) (p ∧ q) := by
  intro c
  constructor
  · intro read
    obtain ⟨x, readLeft, rest⟩ := Option.bind_eq_some_iff.mp read
    obtain ⟨y, readRight, same⟩ := Option.bind_eq_some_iff.mp rest
    obtain ⟨rfl, holds⟩ := (left x).mp readLeft
    obtain ⟨rfl, holds'⟩ := (right y).mp readRight
    exact ⟨(Option.some.inj same).symm, holds, holds'⟩
  · rintro ⟨rfl, holds, holds'⟩
    rw [(left a).mpr ⟨rfl, holds⟩, (right b).mpr ⟨rfl, holds'⟩]
    rfl

end Yields

namespace Json

/-- A number is read from what was written for it exactly if it is finite. -/
theorem yields_number? (x : Binary64) : Yields (ofNumber x).number? x (x.isFinite = true) := by
  intro y
  rw [ofNumber]
  cases finite : x.isFinite with
  | true =>
    rw [if_pos rfl]
    simp [number?, eq_comm]
  | false => simp [number?]

theorem strings?_map_string (texts : List String) :
    (array (texts.map string)).strings? = some texts := by
  rw [strings?]
  induction texts with
  | nil => rfl
  | cons text texts ih =>
    rw [List.map_cons, List.mapM_cons, ih]
    rfl

/-- An operator is read by the name that was written for it. -/
theorem operator?_toJson (op : Operator) : op.toJson.operator? = some op :=
  Operator.ofName?_name op

end Json

namespace Term

/-! ## What is found under a key -/

section

variable {key : String} {low : Option String} {members : Entries Json low} {document : Json}

theorem termAt?_of_find? (found : members.find? key = some document) :
    termAt? key members = ofJson? document := by
  have searched := Entries.search_eq_find? (termAt? key) (termAt?.eq_1 key) (termAt?.eq_2 key)
    members
  rw [searched, found, Option.elim]

theorem listAt?_of_find? {items : List Json} (found : members.find? key = some (.array items)) :
    listAt? key members = listOfJson? items := by
  have searched := Entries.search_eq_find? (listAt? key) (listAt?.eq_1 key)
    (fun k above document rest => listAt?.eq_def key (.entry k above document rest)) members
  rw [searched, found, Option.elim]

theorem statementAt?_eq (members : Entries Json low) :
    statementAt? members = (members.find? "statement").elim (some none) fun document =>
      match document with
      | .null => some none
      | document => (ofJson? document).map some :=
  Entries.search_eq_find? statementAt? statementAt?.eq_1
    (fun k above document rest => statementAt?.eq_def (.entry k above document rest)) members

theorem statementAt?_of_null (found : members.find? "statement" = some .null) :
    statementAt? members = some none := by
  rw [statementAt?_eq, found, Option.elim]

theorem statementAt?_of_object {content : Entries Json none}
    (found : members.find? "statement" = some (.object content)) :
    statementAt? members = (ofJson? (.object content)).map some := by
  rw [statementAt?_eq, found, Option.elim]

end

/-! ## What is read of each kind -/

section

variable (members : Entries Json none) (content : Json)

theorem ofJson?_concat :
    ofJson? (.tagged "Concat" (.object members)) = (listAt? "parts" members).map concat := rfl

theorem ofJson?_expression :
    ofJson? (.tagged "Expression" (.object members)) = (statementAt? members).map expression := rfl

theorem ofJson?_number : ofJson? (.tagged "Number" content) = content.number?.map number := rfl

theorem ofJson?_string : ofJson? (.tagged "String" content) = content.string?.map string := rfl

theorem ofJson?_boolean : ofJson? (.tagged "Boolean" content) = content.boolean?.map boolean := rfl

theorem ofJson?_reference :
    ofJson? (.tagged "Variable" (.object members)) =
      ((members.find? "path").bind Json.strings?).map reference := rfl

theorem ofJson?_call :
    ofJson? (.tagged "Function" (.object members)) = do
      let name ← (members.find? "name").bind Json.string?
      return call name (← listAt? "args" members) := rfl

theorem ofJson?_binary :
    ofJson? (.tagged "BinaryOp" (.object members)) = do
      let op ← (members.find? "operator").bind Json.operator?
      return binary op (← termAt? "left" members) (← termAt? "right" members) := rfl

end

/-! ## Terms read again -/

/-- Whether a term is no number, or a finite one. -/
def IsFinite : Term → Prop
  | number x => x.isFinite = true
  | _ => True

/-- Every term is written as an object. -/
theorem exists_toJson_eq_object (t : Term) : ∃ content, t.toJson = .object content := by
  cases t with
  | expression statement => cases statement <;> exact ⟨_, by rw [toJson, Json.tagged]⟩
  | _ => exact ⟨_, by rw [toJson, Json.tagged]⟩

mutual

/-- A term is read from its document exactly if all numbers in it are finite. -/
theorem yields_ofJson? : ∀ t : Term, Yields (ofJson? t.toJson) t (t.Everywhere IsFinite)
  | concat parts => by
    have listed : listAt? "parts" (.ofList [("parts", .array (listToJson parts))]) =
        listOfJson? (listToJson parts) :=
      listAt?_of_find? (by simp [Entries.ofList, Entries.find?_put])
    rw [toJson, Json.record, ofJson?_concat, listed]
    simp only [Everywhere, IsFinite, true_and]
    exact (yields_listOfJson? parts).map concat
  | expression none => by
    rw [toJson, Json.record, ofJson?_expression,
      statementAt?_of_null (by simp [Entries.ofList, Entries.find?_put])]
    simp only [Everywhere, IsFinite]
    exact Yields.some_self _
  | expression (some t) => by
    obtain ⟨content, written⟩ := t.exists_toJson_eq_object
    have inner := yields_ofJson? t
    rw [written] at inner
    have stated : statementAt? (.ofList [("statement", .object content)]) =
        (ofJson? (.object content)).map some :=
      statementAt?_of_object (by simp [Entries.ofList, Entries.find?_put])
    rw [toJson, Json.record, ofJson?_expression, written, stated]
    simp only [Everywhere, IsFinite, true_and]
    exact (inner.map some).map expression
  | number x => by
    rw [toJson, ofJson?_number]
    exact (Json.yields_number? x).map number
  | string s => by
    rw [toJson, ofJson?_string]
    exact Yields.some_self _
  | boolean b => by
    rw [toJson, ofJson?_boolean]
    exact Yields.some_self _
  | reference path => by
    have read : ((Entries.ofList [("path", Json.array (path.map .string))]).find? "path").bind
        Json.strings? = some path := by
      simp [Entries.ofList, Entries.find?_put, Json.strings?_map_string]
    rw [toJson, Json.record, ofJson?_reference, read]
    exact Yields.some_self _
  | call name arguments => by
    let members : Entries Json none :=
      .ofList [("name", .string name), ("args", .array (listToJson arguments))]
    have named : (members.find? "name").bind Json.string? = some name := by
      simp [members, Entries.ofList, Entries.find?_put, Json.string?]
    have listed : listAt? "args" members = listOfJson? (listToJson arguments) :=
      listAt?_of_find? (by simp [members, Entries.ofList, Entries.find?_put])
    rw [toJson, Json.record, ofJson?_call, named, listed]
    simp only [Everywhere, IsFinite]
    exact (Yields.some_self name).both (yields_listOfJson? arguments) call
  | binary op left right => by
    let members : Entries Json none :=
      .ofList [("operator", op.toJson), ("left", left.toJson), ("right", right.toJson)]
    have signed : (members.find? "operator").bind Json.operator? = some op := by
      simp [members, Entries.ofList, Entries.find?_put, Json.operator?_toJson]
    have first : termAt? "left" members = ofJson? left.toJson :=
      termAt?_of_find? (by simp [members, Entries.ofList, Entries.find?_put])
    have second : termAt? "right" members = ofJson? right.toJson :=
      termAt?_of_find? (by simp [members, Entries.ofList, Entries.find?_put])
    rw [toJson, Json.record, ofJson?_binary, signed, first, second]
    simp only [Everywhere, IsFinite, true_and]
    exact (yields_ofJson? left).both (yields_ofJson? right) (binary op)

theorem yields_listOfJson? : ∀ ts : List Term,
    Yields (listOfJson? (listToJson ts)) ts (EverywhereIn IsFinite ts)
  | [] => by
    rw [listToJson, listOfJson?, EverywhereIn]
    exact Yields.some_self _
  | t :: ts => by
    rw [listToJson, listOfJson?, EverywhereIn]
    exact (yields_ofJson? t).both (yields_listOfJson? ts) List.cons

end

end Term

end Inlay
