import Inlay.Proofs.Token.Seam

/-!
# Quotes that a text leaves open

A quote that occurs again begins a run in which nothing is a piece of its own, and whatever follows
a text can be what closes its quotes. `openQuotes` collects the quotes of a text that nothing in the
text closes: it passes over the runs that are closed. `mem_openQuotes_iff` says that these are the
quotes in plain text.

They are all that two texts put together can do to each other where a delimiter begins the second:
the pieces of both stay if and only if no quote that the first leaves open occurs in the second
(`LeftmostSplit.append` and `LeftmostSplit.closed`).
-/

namespace Inlay

open Delimiter

/-- The quotes that a text leaves open. What stands between a quote and the next that is the same is
passed over. -/
def openQuotes (cs : List Char) : List Char :=
  match cs with
  | [] => []
  | c :: rest =>
    if c ∈ quotes then
      if c ∈ rest then openQuotes ((rest.dropWhile (· != c)).drop 1) else c :: openQuotes rest
    else openQuotes rest
termination_by cs.length
decreasing_by
  · have shorter := (List.dropWhile_suffix (· != c) (l := rest)).length_le
    simp only [List.length_drop, List.length_cons]
    omega
  · exact Nat.lt_succ_self _
  · exact Nat.lt_succ_self _

/-- A closed run leaves nothing open. -/
theorem openQuotes_closed {quote : Char} {inner : List Char} (mem : quote ∈ quotes)
    (absent : quote ∉ inner) (after : List Char) :
    openQuotes (quote :: inner ++ [quote] ++ after) = openQuotes after := by
  have goes : ∀ c ∈ inner, (c != quote) = true := by
    intro c inside
    simpa using ne_of_mem_of_not_mem inside absent
  have rest : inner ++ [quote] ++ after = inner ++ quote :: after := by simp
  rw [List.cons_append, List.cons_append, rest, openQuotes, if_pos mem, if_pos (by simp),
    List.dropWhile_append_of_pos goes]
  simp

/-- Characters that are no quotes leave nothing open. -/
theorem openQuotes_append {text : List Char} (none : ∀ c ∈ text, c ∉ quotes) (after : List Char) :
    openQuotes (text ++ after) = openQuotes after := by
  induction text with
  | nil => rfl
  | cons c text ih =>
    obtain ⟨here, others⟩ := List.forall_mem_cons.mp none
    rw [List.cons_append, openQuotes, if_neg here, ih others]

/-- What begins another delimiter is no quote. -/
theorem notMem_quotes {kind : Delimiter} {c : Char} (begins : kind.opens c = true)
    (other : kind ≠ .quoted) : c ∉ quotes := by
  intro quote
  have opening : Delimiter.quoted.opens c = true := mem_quotes_iff.mp quote
  exact other (opens_unique begins opening)

/-- Delimiters leave no quote open. -/
theorem openQuotes_delimiter {kind : Delimiter} {text after : List Char}
    (fits : kind.Fits after text) : openQuotes (text ++ after) = openQuotes after := by
  have begins := fits.opens_head
  cases fits with
  | quoted quote absent => exact openQuotes_closed quote absent after
  | blanks _ all =>
    apply openQuotes_append
    intro c mem
    have blank : Delimiter.blanks.opens c = true := all c mem
    exact notMem_quotes blank nofun
  | doubled pair =>
    obtain ⟨c, -, rfl⟩ := mem_pairs_iff.mp pair
    have none := notMem_quotes (begins c rfl) nofun
    exact openQuotes_append (by simpa using none) after
  | @single c =>
    have none := notMem_quotes (begins c rfl) nofun
    exact openQuotes_append (by simpa using none) after

/-- Plain text leaves all its quotes open. -/
theorem openQuotes_plain {text after : List Char}
    (undelimited : ∀ rest, rest <:+ text → rest ≠ [] → ¬ Delimited (rest ++ after)) :
    openQuotes (text ++ after) = text.filter (· ∈ quotes) ++ openQuotes after := by
  induction text with
  | nil => rfl
  | cons c text ih =>
    have later := ih fun rest suffix => undelimited rest (suffix.trans (List.suffix_cons c text))
    have here : ¬ Delimited (c :: (text ++ after)) :=
      undelimited (c :: text) List.suffix_rfl (List.cons_ne_nil c text)
    rw [List.cons_append, openQuotes]
    by_cases quote : c ∈ quotes
    · have absent : c ∉ text ++ after := fun again => here (delimited_of_closed quote again)
      rw [if_pos quote, if_neg absent, later, List.filter_cons_of_pos (by simpa using quote)]
      rfl
    · rw [if_neg quote, later, List.filter_cons_of_neg (by simpa using quote)]

/-- The quotes that a text leaves open are those in its plain pieces. -/
theorem mem_openQuotes_iff {cs : List Char} {cuts : List Cut} (split : LeftmostSplit cs cuts)
    {c : Char} : c ∈ openQuotes cs ↔ ∃ text, .plain text ∈ cuts ∧ c ∈ text ∧ c ∈ quotes := by
  induction split with
  | nil => simp [openQuotes]
  | delimiter first _ ih =>
    rw [openQuotes_delimiter first.1, ih]
    simp
  | plain stretch _ ih =>
    rw [openQuotes_plain stretch.undelimited, List.mem_append, ih]
    simp

namespace LeftmostSplit

/-- The pieces before a seam are a split of what they are together. -/
theorem front {cs : List Char} {before later : List Cut}
    (split : LeftmostSplit cs (before ++ later)) :
    LeftmostSplit (before.map Cut.text).flatten before := by
  have ends : ∀ cut ∈ before.getLast?, cut.Stands [] := by
    intro cut last
    refine (split.stands cut last).before (fun _ _ => nofun) ?_
    rintro text rfl
    exact Stretch.replace (split.stands _ last) (fun _ _ _ => List.not_mem_nil) (fun _ _ _ => nofun)
      (.inl rfl)
  have whole := split.replace .nil (fun _ _ _ _ _ => List.not_mem_nil) ends
  simpa using whole

/-- Two texts put together have the pieces of both, if a delimiter begins the second that neither is
blank nor makes a doubled character with the end of the first, and no quote that the first leaves
open occurs in the second. -/
theorem append {cs cs' : List Char} {cuts cuts' : List Cut} (split : LeftmostSplit cs cuts)
    (split' : LeftmostSplit cs' cuts') (unclosed : ∀ c ∈ openQuotes cs, c ∉ cs')
    (begins : Delimited cs')
    (apart : ∀ c ∈ cs'.head?, Text.isBlank c = false ∧ cs.getLast? ≠ some c) :
    LeftmostSplit (cs ++ cs') (cuts ++ cuts') := by
  have whole := split.flatten_eq
  have unclosed' : ∀ text, .plain text ∈ cuts → ∀ c ∈ text, c ∈ quotes → c ∉ cs' := by
    intro text mem c inside quote
    exact unclosed c ((mem_openQuotes_iff split).mpr ⟨text, mem, inside, quote⟩)
  rw [← List.append_nil cuts] at split
  rw [← whole]
  refine split.replace split' unclosed' ?_
  intro cut last
  refine (split.stands cut last).before (fun _ _ c head => (apart c head).1) ?_
  rintro text rfl
  refine Stretch.replace (split.stands _ last) (unclosed' text (List.mem_of_getLast? last)) ?_
    (.inr begins)
  intro c ends _ head
  obtain ⟨front, rfl⟩ := List.getLast?_eq_some_iff.mp last
  obtain ⟨inner, rfl⟩ := List.getLast?_eq_some_iff.mp ends
  apply (apart c head).2
  rw [← whole]
  simp [Cut.text]

/-- Where two texts put together have the pieces of both, no quote that the first leaves open occurs
in the second. -/
theorem closed {cs : List Char} {before later : List Cut}
    (split : LeftmostSplit cs (before ++ later)) :
    ∀ c ∈ openQuotes (before.map Cut.text).flatten, c ∉ (later.map Cut.text).flatten := by
  intro c opened
  obtain ⟨text, mem, inside, quote⟩ := (mem_openQuotes_iff split.front).mp opened
  exact split.unclosed mem c inside quote

end LeftmostSplit

end Inlay
