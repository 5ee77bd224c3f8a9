/-!
# Tables with text keys

A table holds values under text keys, each key once and the keys in ascending order, by its type:
an entry can only stand before entries with greater keys. Two tables with the same look-ups are
therefore the same table, and whatever is listed from a table comes out in key order. Texts are
ordered by code point, which is the order of their UTF-8 bytes.

`Entries` carries a lower bound on its keys as an index; a `Table` is one without a bound. Objects,
contexts, methods and templates are all tables.
-/

namespace Inlay

/-- A key above a bound; every key is above the missing bound. -/
inductive Above : Option String → String → Prop
  | unbounded {key : String} : Above none key
  | bounded {low key : String} : low < key → Above (some low) key

instance instDecidableAbove : (low : Option String) → (key : String) → Decidable (Above low key)
  | none, _ => isTrue .unbounded
  | some low, key =>
    if h : low < key then isTrue (.bounded h) else isFalse fun | .bounded g => h g

/-- A key that differs from a bound and is not less is above it. -/
theorem Above.of_not_lt {low key : String} (h : ¬ key < low) (differ : key ≠ low) :
    Above (some low) key :=
  .bounded (Std.lt_of_le_of_ne (String.not_lt.mp h) (Ne.symm differ))

theorem Above.trans {low : Option String} {mid key : String} (above : Above low mid)
    (further : Above (some mid) key) : Above low key := by
  cases above with
  | unbounded => exact .unbounded
  | bounded less =>
    cases further with
    | bounded greater => exact .bounded (String.lt_trans less greater)

/-- Values under ascending keys, all of them above a bound. -/
inductive Entries (α : Type) : Option String → Type
  | empty {low : Option String} : Entries α low
  | entry {low : Option String} (key : String) (above : Above low key) (value : α)
      (rest : Entries α (some key)) : Entries α low

/-- Values under ascending keys. -/
abbrev Table (α : Type) := Entries α none

namespace Entries

variable {α β : Type} {low : Option String}

instance : Inhabited (Entries α low) := ⟨.empty⟩

/-- The value under a key. -/
def find? (key : String) {low : Option String} : Entries α low → Option α
  | .empty => none
  | .entry k _ value rest => if k = key then some value else rest.find? key

/-- A search that goes by the key of each entry looks up what it makes its answer of. -/
theorem search_eq_find? {key : String} {default : β} {read : α → β}
    (search : {low : Option String} → Entries α low → β)
    (empty : ∀ {low : Option String}, search (.empty : Entries α low) = default)
    (entry : ∀ {low : Option String} (k : String) (above : Above low k) (value : α)
      (rest : Entries α (some k)),
      search (.entry k above value rest) = if k = key then read value else search rest)
    {low : Option String} (entries : Entries α low) :
    search entries = (entries.find? key).elim default read := by
  induction entries with
  | empty => exact empty
  | entry k above value rest ih =>
    rw [entry, find?, ih]
    split <;> rfl

/-- Whether there is a value under a key. -/
def contains (entries : Entries α low) (key : String) : Bool :=
  (entries.find? key).isSome

/-- Puts a value under a key, in place of one that is already there. -/
def insert (key : String) (value : α) {low : Option String} (above : Above low key) :
    Entries α low → Entries α low
  | .empty => .entry key above value .empty
  | .entry k aboveK v rest =>
    if before : key < k then .entry key above value (.entry k (.bounded before) v rest)
    else if same : key = k then .entry k aboveK value rest
    else .entry k aboveK v (rest.insert key value (.of_not_lt before same))

/-- The entries as pairs, in ascending order of the keys. -/
def toList {low : Option String} : Entries α low → List (String × α)
  | .empty => []
  | .entry key _ value rest => (key, value) :: rest.toList

/-- The keys, in ascending order. -/
def keys (entries : Entries α low) : List String :=
  entries.toList.map (·.1)

@[simp] theorem find?_empty {key : String} : (empty : Entries α low).find? key = none := rfl

/-- What was put under a key is found there. -/
@[simp] theorem find?_insert_self {key : String} {value : α} {above : Above low key}
    {entries : Entries α low} : (entries.insert key value above).find? key = some value := by
  induction entries with
  | empty => simp [insert, find?]
  | entry k aboveK v rest ih =>
    simp only [insert]
    split
    · simp [find?]
    · split
      · rename_i same
        simp [find?, same]
      · rename_i differ
        rw [find?, if_neg (Ne.symm differ)]
        exact ih

/-- What is put under a key changes nothing under the others. -/
theorem find?_insert_of_ne {key other : String} {value : α} {above : Above low key}
    {entries : Entries α low} (differ : key ≠ other) :
    (entries.insert key value above).find? other = entries.find? other := by
  induction entries with
  | empty => simp [insert, find?, differ]
  | entry k aboveK v rest ih =>
    simp only [insert]
    split
    · simp [find?, differ]
    · split
      · rename_i same
        subst same
        simp [find?, differ]
      · simp only [find?, ih]

theorem above_of_mem {pair : String × α} {entries : Entries α low}
    (mem : pair ∈ entries.toList) : Above low pair.1 := by
  induction entries with
  | empty => cases mem
  | entry k aboveK v rest ih =>
    cases mem with
    | head => exact aboveK
    | tail _ further => exact aboveK.trans (ih further)

/-- What is found under a key is what is listed with it: no key is listed twice. -/
theorem find?_eq_some_iff {key : String} {value : α} {entries : Entries α low} :
    entries.find? key = some value ↔ (key, value) ∈ entries.toList := by
  induction entries with
  | empty => simp [toList]
  | entry k aboveK v rest ih =>
    rw [find?, toList, List.mem_cons, Prod.mk.injEq]
    split
    · rename_i same
      subst same
      have once : (k, value) ∉ rest.toList := by
        intro mem
        cases above_of_mem mem with
        | bounded less => exact Std.lt_irrefl less
      simp [once, eq_comm]
    · rename_i differ
      simp [Ne.symm differ, ih]

/-- Puts a value under a key of a table, in place of one that is already there. -/
def put (table : Table α) (key : String) (value : α) : Table α :=
  table.insert key value .unbounded

/-- What is found under a key after a value was put under it or under another one. -/
theorem find?_put {table : Table α} {key other : String} {value : α} :
    (table.put key value).find? other = if key = other then some value else table.find? other := by
  split
  · rename_i same
    subst same
    exact find?_insert_self
  · rename_i differ
    exact find?_insert_of_ne differ

/-- The table of several pairs. Of two with the same key the later one stays. -/
def ofList (pairs : List (String × α)) : Table α :=
  pairs.foldl (fun table pair => table.put pair.1 pair.2) .empty

end Entries

end Inlay
