import Inlay.Json.Value
import Inlay.Proofs.Value.Within

/-!
# What a document keeps of a value

A document has nothing for undefined and for the numbers that are not finite, and null stands for
them. `Value.nulled` says what becomes of a value when it is written and read again: these give way
to null, however deep in arrays and objects they are, and everything else stays. So a value comes
back as it was exactly when nothing of the kind is within it, and what has come back once comes back
as it is.

The kinds of value share one form of document, without a mark that tells them apart, and a reader
tries them in the order of their declaration. `Json.firstReading?` does so, and `firstReading?_eq`
says that this is the value of the document: of every document there is one reading.
-/

namespace Inlay

/-! ## Reading by trying -/

namespace Json

mutual

/-- The first reading of a document: it is tried as null, a truth value, a number, a text, an array
and an object, in this order. It is not tried as undefined. -/
def firstReading? (document : Json) : Option Value :=
  (match document with
    | .null => some .null
    | _ => none)
  <|> document.boolean?.map .boolean
  <|> document.number?.map .number
  <|> document.string?.map .string
  <|> (match document with
    | .array items => (firstItems? items).map .array
    | _ => none)
  <|> match document with
    | .object members => (firstMembers? members).map .object
    | _ => none

/-- The first readings of several documents, if all have one. -/
def firstItems? : List Json → Option (List Value)
  | [] => some []
  | item :: items => do return (← item.firstReading?) :: (← firstItems? items)

/-- The first readings of documents under keys, if all have one. -/
def firstMembers? {low : Option String} : Entries Json low → Option (Entries Value low)
  | .empty => some .empty
  | .entry key above document rest => do
    return .entry key above (← document.firstReading?) (← firstMembers? rest)

end

mutual

/-- The first reading of a document is the value that the document holds. -/
theorem firstReading?_eq : ∀ document : Json,
    document.firstReading? = some document.toValue
  | .array items => by
    rw [firstReading?, toValue, firstItems?_eq items]
    rfl
  | .object members => by
    rw [firstReading?, toValue, firstMembers?_eq members]
    rfl
  | .null | .boolean _ | .integer _ | .number _ | .string _ => by
    rw [firstReading?, toValue]
    · rfl
    all_goals nofun

theorem firstItems?_eq : ∀ items : List Json, firstItems? items = some (itemsToValue items)
  | [] => by rw [firstItems?, itemsToValue]
  | item :: items => by
    rw [firstItems?, itemsToValue, item.firstReading?_eq, firstItems?_eq items]
    rfl

theorem firstMembers?_eq {low : Option String} : ∀ members : Entries Json low,
    firstMembers? members = some (membersToValue members)
  | .empty => by rw [firstMembers?, membersToValue]
  | .entry key above document rest => by
    rw [firstMembers?, membersToValue, document.firstReading?_eq, firstMembers?_eq rest]
    rfl

end

end Json

/-! ## What comes back -/

namespace Value

/-- Whether a document has nothing for a value. -/
def isLost : Value → Bool
  | undefined => true
  | number x => !x.isFinite
  | _ => false

/-- Whether nothing is lost of a value when it is written. -/
def Kept (v : Value) : Prop :=
  ∀ w, Within w v → w.isLost = false

mutual

/-- A value with null for whatever in it a document has nothing for. -/
def nulled : Value → Value
  | .null => .null
  | .undefined => .null
  | .boolean b => .boolean b
  | .number x => if x.isFinite then .number x else .null
  | .string s => .string s
  | .array items => .array (nulledItems items)
  | .object members => .object (nulledMembers members)

/-- Several values with null for whatever is lost. -/
def nulledItems : List Value → List Value
  | [] => []
  | item :: items => item.nulled :: nulledItems items

/-- Values under keys with null for whatever is lost. -/
def nulledMembers {low : Option String} : Entries Value low → Entries Value low
  | .empty => .empty
  | .entry key above value rest => .entry key above value.nulled (nulledMembers rest)

end

/-- Under a key stands the same value, with null for whatever is lost. -/
theorem find?_nulledMembers {key : String} {low : Option String} (members : Entries Value low) :
    (nulledMembers members).find? key = (members.find? key).map Value.nulled := by
  induction members with
  | empty => rfl
  | entry k above value rest ih =>
    rw [nulledMembers, Entries.find?, Entries.find?, ih]
    split <;> rfl

mutual

/-- A value that is written and read again has null for whatever is lost. -/
theorem toValue_toJson : ∀ v : Value, v.toJson.toValue = v.nulled
  | .null | .undefined | .boolean _ | .string _ => by rw [toJson, Json.toValue, nulled]
  | .number x => by
    rw [toJson, Json.ofNumber, nulled]
    split
    · rw [Json.toValue]
    · rw [Json.toValue]
  | .array items => by rw [toJson, Json.toValue, nulled, itemsToValue_itemsToJson items]
  | .object members => by rw [toJson, Json.toValue, nulled, membersToValue_membersToJson members]

theorem itemsToValue_itemsToJson : ∀ items : List Value,
    itemsToValue (itemsToJson items) = nulledItems items
  | [] => by rw [itemsToJson, itemsToValue, nulledItems]
  | item :: items => by
    rw [itemsToJson, itemsToValue, nulledItems, item.toValue_toJson,
      itemsToValue_itemsToJson items]

theorem membersToValue_membersToJson {low : Option String} : ∀ members : Entries Value low,
    membersToValue (membersToJson members) = nulledMembers members
  | .empty => by rw [membersToJson, membersToValue, nulledMembers]
  | .entry key above value rest => by
    rw [membersToJson, membersToValue, nulledMembers, value.toValue_toJson,
      membersToValue_membersToJson rest]

end

mutual

/-- What is null already is not lost again. -/
theorem nulled_nulled : ∀ v : Value, v.nulled.nulled = v.nulled
  | .null | .undefined | .boolean _ | .string _ => by rw [nulled, nulled]
  | .number x => by
    rw [nulled]
    split
    · rename_i finite
      rw [nulled, if_pos finite]
    · rw [nulled]
  | .array items => by rw [nulled, nulled, nulledItems_nulledItems items]
  | .object members => by rw [nulled, nulled, nulledMembers_nulledMembers members]

theorem nulledItems_nulledItems : ∀ items : List Value,
    nulledItems (nulledItems items) = nulledItems items
  | [] => by rw [nulledItems, nulledItems]
  | item :: items => by
    rw [nulledItems, nulledItems, item.nulled_nulled, nulledItems_nulledItems items]

theorem nulledMembers_nulledMembers {low : Option String} : ∀ members : Entries Value low,
    nulledMembers (nulledMembers members) = nulledMembers members
  | .empty => by rw [nulledMembers, nulledMembers]
  | .entry key above value rest => by
    rw [nulledMembers, nulledMembers, value.nulled_nulled, nulledMembers_nulledMembers rest]

end

/-- Nothing is lost of an array exactly when nothing is lost of its items. -/
theorem kept_array {items : List Value} : (array items).Kept ↔ ∀ item ∈ items, item.Kept := by
  constructor
  · intro kept item mem w within
    exact kept w (.item mem within)
  · intro kept w within
    cases within with
    | itself => rfl
    | item mem further => exact kept _ mem w further

/-- Nothing is lost of an object exactly when nothing is lost of what is under its keys. -/
theorem kept_object {members : Entries Value none} :
    (object members).Kept ↔ ∀ pair ∈ members.toList, pair.2.Kept := by
  constructor
  · intro kept pair mem w within
    exact kept w (.member mem within)
  · intro kept w within
    cases within with
    | itself => rfl
    | member mem further => exact kept _ mem w further

/-- Of a value without parts nothing is lost unless it is itself. -/
theorem kept_of_forall {v : Value} (alone : ∀ w, Within w v → w = v) :
    v.Kept ↔ v.isLost = false := by
  constructor
  · intro kept
    exact kept v .itself
  · intro whole w within
    rw [alone w within, whole]

mutual

/-- A value stays as it is exactly when nothing in it is lost. -/
theorem nulled_eq_iff : ∀ v : Value, v.nulled = v ↔ v.Kept
  | .null | .undefined | .boolean _ | .string _ => by
    rw [kept_of_forall (by rintro w ⟨⟩; rfl), nulled]
    simp [isLost]
  | .number x => by
    rw [kept_of_forall (by rintro w ⟨⟩; rfl), nulled, isLost]
    cases x.isFinite <;> simp
  | .array items => by
    rw [nulled, array.injEq, nulledItems_eq_iff items, kept_array]
  | .object members => by
    rw [nulled, object.injEq, nulledMembers_eq_iff members, kept_object]

theorem nulledItems_eq_iff : ∀ items : List Value,
    nulledItems items = items ↔ ∀ item ∈ items, item.Kept
  | [] => by simp [nulledItems]
  | item :: items => by
    rw [nulledItems, List.cons.injEq, item.nulled_eq_iff, nulledItems_eq_iff items,
      List.forall_mem_cons]

theorem nulledMembers_eq_iff {low : Option String} : ∀ members : Entries Value low,
    nulledMembers members = members ↔ ∀ pair ∈ members.toList, pair.2.Kept
  | .empty => by simp [nulledMembers, Entries.toList]
  | .entry key above value rest => by
    have whole : nulledMembers (.entry key above value rest) = .entry key above value rest ↔
        value.nulled = value ∧ nulledMembers rest = rest := by
      rw [nulledMembers]
      simp
    rw [whole, value.nulled_eq_iff, nulledMembers_eq_iff rest, Entries.toList,
      List.forall_mem_cons]

end

/-- A document is read as the first kind of value that it can be read as. A value that is written
and read again has null for undefined and for the numbers that are not finite, at any depth, and
nothing else changed. It is the same value exactly when there is nothing of the kind within it, and
what was read back is read back again as it is. Of a context this holds name by name. -/
theorem read_written :
    (∀ document : Json, document.firstReading? = some document.toValue) ∧
    (∀ v : Value, v.toJson.toValue = v.nulled) ∧
    (∀ v : Value, v.toJson.toValue = v ↔ v.Kept) ∧
    (∀ v : Value, v.nulled.toJson.toValue = v.nulled) ∧
    ∀ context : Context, ∃ back, context.toJson.toContext? = some back ∧
      (∀ name, back.find? name = (context.find? name).map nulled) ∧
      (back = context ↔ ∀ name v, context.find? name = some v → v.Kept) ∧
      back.toJson.toContext? = some back := by
  have throughout : ∀ context : Context,
      context.toJson.toContext? = some (nulledMembers context) := by
    intro context
    rw [Context.toJson, Json.toContext?, membersToValue_membersToJson]
  refine ⟨Json.firstReading?_eq, toValue_toJson, ?_, ?_, ?_⟩
  · intro v
    rw [toValue_toJson, nulled_eq_iff]
  · intro v
    rw [toValue_toJson, nulled_nulled]
  · intro context
    refine ⟨nulledMembers context, throughout context, fun name => find?_nulledMembers context,
      ?_, ?_⟩
    · rw [nulledMembers_eq_iff]
      simp only [Entries.find?_eq_some_iff, Prod.forall]
    · rw [throughout, nulledMembers_nulledMembers]

end Value

end Inlay
