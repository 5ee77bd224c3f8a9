import Inlay.Proofs.Term.Everywhere
import Inlay.Term.Variables

/-!
# What a term reads

`Reads` says which paths a term looks up in its context, without saying how they are found: every
reference in it counts, except that on the right of a pipe only the arguments of a call do. A bare
name there is a method, the name of a call is one everywhere, and anything else on the right of a
pipe is refused before it is looked into.

`mem_variableNames` ties this to the names that a term lists: they are the dotted forms of the paths
that it reads, no more and no fewer. In what order the parts of a term are looked through does not
show in the list: what counts is only what is found (`mem_gather`), since sorting and clearing of
repeats leave each name once and in its place (`pairwise_variableNames`).
-/

namespace Inlay.Term

/-- Whether a term reads a path. -/
inductive Reads (path : List String) : Term → Prop
  | reference : Reads path (reference path)
  | part {parts : List Term} {part : Term} : part ∈ parts → part.Reads path →
      Reads path (concat parts)
  | statement {t : Term} : t.Reads path → Reads path (expression (some t))
  | argument {name : String} {arguments : List Term} {argument : Term} : argument ∈ arguments →
      argument.Reads path → Reads path (call name arguments)
  | left {op : Operator} {left right : Term} : left.Reads path → Reads path (binary op left right)
  | right {op : Operator} {left right : Term} : op ≠ .pipe → right.Reads path →
      Reads path (binary op left right)
  | piped {input : Term} {name : String} {arguments : List Term} {argument : Term} :
      argument ∈ arguments → argument.Reads path →
      Reads path (binary .pipe input (call name arguments))

/-- What is read on the right of a pipe: an argument of a call reads the path. -/
def ReadsPiped (path : List String) (target : Term) : Prop :=
  ∃ name arguments argument, target = call name arguments ∧ argument ∈ arguments ∧
    argument.Reads path

/-- A pipe reads what its input reads and what is read on its right. -/
theorem reads_pipe_iff {path : List String} {input target : Term} :
    (binary .pipe input target).Reads path ↔ input.Reads path ∨ target.ReadsPiped path := by
  constructor
  · intro reads
    cases reads with
    | left reads => exact .inl reads
    | right other => exact absurd rfl other
    | piped mem reads => exact .inr ⟨_, _, _, rfl, mem, reads⟩
  · rintro (reads | ⟨name, arguments, argument, rfl, mem, reads⟩)
    · exact .left reads
    · exact .piped mem reads

/-- Any other operation reads what both its operands read. -/
theorem reads_binary_iff {path : List String} {op : Operator} {left right : Term}
    (other : op ≠ .pipe) :
    (binary op left right).Reads path ↔ left.Reads path ∨ right.Reads path := by
  constructor
  · intro reads
    cases reads with
    | left reads => exact .inl reads
    | right _ reads => exact .inr reads
    | piped => exact absurd rfl other
  · rintro (reads | reads)
    · exact .left reads
    · exact .right other reads

theorem reads_call_iff {path : List String} {name : String} {arguments : List Term} :
    (call name arguments).Reads path ↔ ∃ argument ∈ arguments, argument.Reads path := by
  constructor
  · rintro ⟨⟩
    exact ⟨_, ‹_›, ‹_›⟩
  · rintro ⟨argument, mem, reads⟩
    exact .argument mem reads

/-- A call reads the same on the right of a pipe as it does elsewhere. -/
theorem readsPiped_call_iff {path : List String} {name : String} {arguments : List Term} :
    (call name arguments).ReadsPiped path ↔ (call name arguments).Reads path := by
  rw [reads_call_iff]
  constructor
  · rintro ⟨_, _, argument, ⟨⟩, mem, reads⟩
    exact ⟨argument, mem, reads⟩
  · rintro ⟨argument, mem, reads⟩
    exact ⟨name, arguments, argument, rfl, mem, reads⟩

theorem reads_concat_iff {path : List String} {parts : List Term} :
    (concat parts).Reads path ↔ ∃ part ∈ parts, part.Reads path := by
  constructor
  · rintro ⟨⟩
    exact ⟨_, ‹_›, ‹_›⟩
  · rintro ⟨part, mem, reads⟩
    exact .part mem reads

theorem reads_expression_iff {path : List String} {statement : Option Term} :
    (expression statement).Reads path ↔ ∃ t ∈ statement, t.Reads path := by
  constructor
  · rintro ⟨⟩
    exact ⟨_, rfl, ‹_›⟩
  · rintro ⟨t, ⟨⟩, reads⟩
    exact .statement reads

theorem reads_reference_iff {path other : List String} :
    (reference other).Reads path ↔ other = path := by
  constructor
  · rintro ⟨⟩
    rfl
  · rintro rfl
    exact .reference

/-- A literal reads nothing. -/
theorem not_reads_number {path : List String} {x : Binary64} : ¬ (number x).Reads path := nofun

theorem not_reads_string {path : List String} {s : String} : ¬ (string s).Reads path := nofun

theorem not_reads_boolean {path : List String} {b : Bool} : ¬ (boolean b).Reads path := nofun

/-- A property that holds everywhere in a term holds of every reference that the term reads. -/
theorem Reads.of_everywhere {P : Term → Prop} {path : List String} {t : Term}
    (reads : t.Reads path) (everywhere : t.Everywhere P) : P (Term.reference path) := by
  induction reads with
  | reference => exact everywhere
  | part mem _ ih => exact ih (everywhereIn_iff.mp everywhere.2 _ mem)
  | statement _ ih => exact ih everywhere.2
  | argument mem _ ih => exact ih (everywhereIn_iff.mp everywhere.2 _ mem)
  | left _ ih => exact ih everywhere.2.1
  | right _ _ ih => exact ih everywhere.2.2
  | piped mem _ ih => exact ih (everywhereIn_iff.mp everywhere.2.2.2 _ mem)

/-! ## The names that a term lists -/

theorem readParts_of_ne {op : Operator} (other : op ≠ .pipe) (left right : Term) :
    (binary op left right).readParts = [left, right] := by
  cases op with
  | pipe => exact absurd rfl other
  | _ => rfl

/-- What a term that is no reference reads, one of its parts reads. -/
theorem reads_iff_readParts {path : List String} {t : Term} (whole : ∀ other, t ≠ reference other) :
    t.Reads path ↔ ∃ part ∈ t.readParts, part.Reads path := by
  cases t with
  | concat parts => exact reads_concat_iff
  | expression statement =>
    simp only [reads_expression_iff, readParts, Option.mem_toList, Option.mem_def]
  | number x => simp [readParts, not_reads_number]
  | string s => simp [readParts, not_reads_string]
  | boolean b => simp [readParts, not_reads_boolean]
  | reference other => exact absurd rfl (whole other)
  | call name arguments => exact reads_call_iff
  | binary op left right =>
    by_cases pipe : op = .pipe
    · subst pipe
      rw [reads_pipe_iff]
      cases right with
      | call name arguments => simp [readParts, readsPiped_call_iff, reads_call_iff]
      | _ => simp [readParts, ReadsPiped]
    · rw [reads_binary_iff pipe, readParts_of_ne pipe]
      simp

/-- The names found before stay, and those that pending terms read are added. -/
theorem mem_gather (pending : List Term) (found : Array String) {name : String} :
    name ∈ gather pending found ↔
      name ∈ found ∨ ∃ path, (∃ t ∈ pending, t.Reads path) ∧ dotted path = name := by
  -- A reference on top is found at once, and any other term gives way to its parts.
  fun_induction gather pending found with
  | case1 found => simp
  | case2 found path pending ih =>
    rw [ih, Array.mem_push, or_assoc, eq_comm (a := name)]
    simp only [List.mem_cons, or_and_right, exists_or, exists_eq_left, exists_eq_left',
      reads_reference_iff]
  | case3 found t pending whole ih =>
    rw [ih]
    simp only [List.mem_append, List.mem_reverse, or_and_right, exists_or, List.mem_cons,
      exists_eq_left, reads_iff_readParts whole]

/-! ### Names in order -/

theorem mem_unrepeated {names : List String} {name : String} :
    name ∈ unrepeated names ↔ name ∈ names := by
  fun_induction unrepeated names with
  | case1 first rest ih =>
    rw [ih]
    simp
  | case2 first second rest differ ih => rw [List.mem_cons, ih, ← List.mem_cons]
  | case3 names => rfl

/-- Names in order ascend strictly once none repeats the one before it. -/
theorem pairwise_unrepeated {names : List String} (sorted : names.Pairwise (· ≤ ·)) :
    (unrepeated names).Pairwise (· < ·) := by
  fun_induction unrepeated names with
  | case1 first rest ih => exact ih (List.pairwise_cons.mp sorted).2
  | case2 first second rest differ ih =>
    obtain ⟨least, others⟩ := List.pairwise_cons.mp sorted
    have less : first < second := Std.lt_of_le_of_ne (least second List.mem_cons_self) differ
    refine .cons (fun name mem => ?_) (ih others)
    rcases List.mem_cons.mp (mem_unrepeated.mp mem) with rfl | later
    · exact less
    · exact Std.lt_of_lt_of_le less ((List.pairwise_cons.mp others).1 name later)
  | case3 names short =>
    match names with
    | [] => exact .nil
    | [name] => exact List.pairwise_singleton _ name
    | first :: second :: rest => exact absurd rfl (short first second rest)

/-- Names that ascend strictly do not repeat one another. -/
theorem unrepeated_of_pairwise {names : List String} (ascending : names.Pairwise (· < ·)) :
    unrepeated names = names := by
  fun_induction unrepeated names with
  | case1 first rest _ =>
    obtain ⟨least, -⟩ := List.pairwise_cons.mp ascending
    exact absurd (least first List.mem_cons_self) Std.lt_irrefl
  | case2 first second rest _ ih => rw [ih (List.pairwise_cons.mp ascending).2]
  | case3 names => rfl

theorem pairwise_mergeSort (names : List String) : names.mergeSort.Pairwise (· ≤ ·) := by
  have sorted : names.mergeSort.Pairwise fun first second => decide (first ≤ second) = true := by
    apply List.pairwise_mergeSort
    · intro first second third le le'
      rw [decide_eq_true_eq] at le le' ⊢
      exact String.le_trans le le'
    · intro first second
      rw [Bool.or_eq_true, decide_eq_true_eq, decide_eq_true_eq]
      exact String.le_total first second
  exact sorted.imp of_decide_eq_true

/-- Names that are gathered in strictly ascending order are listed as they are. -/
theorem variableNames_of_gather {t : Term} {names : List String}
    (found : (gather [t] #[]).toList = names) (ascending : names.Pairwise (· < ·)) :
    t.variableNames = names := by
  have sorted : names.mergeSort = names :=
    List.mergeSort_of_pairwise (ascending.imp fun less => decide_eq_true (Std.le_of_lt less))
  rw [variableNames, found, sorted, unrepeated_of_pairwise ascending]

/-- The names that a term lists ascend strictly. -/
theorem pairwise_variableNames (t : Term) : t.variableNames.Pairwise (· < ·) :=
  pairwise_unrepeated (pairwise_mergeSort _)

/-- A term lists the dotted forms of the paths that it reads. -/
theorem mem_variableNames {t : Term} {name : String} :
    name ∈ t.variableNames ↔ ∃ path, t.Reads path ∧ dotted path = name := by
  rw [variableNames, mem_unrepeated, List.mem_mergeSort, Array.mem_toList_iff, mem_gather]
  simp

end Inlay.Term
