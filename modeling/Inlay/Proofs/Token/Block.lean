import Inlay.Parse.State
import Inlay.Proofs.Term.Word
import Inlay.Proofs.Token.OpenQuote

/-!
# The pieces of a block

A block with one name in it is five pieces, whatever follows it (`LeftmostSplit.block`): no
character of a name begins a delimiter, so that the name is plain text between two blanks. The block
holds no quote, and so it closes none that is open before it.

Its opening braces can be told from all others by their place: the rest of the block holds no brace
of this kind, and where two texts around it have no such pair either, the source has only one
(`eq_of_append_pair` and `unbraced_block`).
-/

namespace Inlay

open Delimiter
open Parse (blockStart blockEnd)

/-! ## Names as pieces -/

/-- A character that begins no delimiter is plain text, whatever follows. -/
theorem Delimiter.not_delimited_of_opens {c : Char}
    (none : ∀ kind : Delimiter, kind.opens c = false) (rest : List Char) :
    ¬ Delimited (c :: rest) := by
  rintro ⟨kind, text, after, whole, fits⟩
  obtain ⟨d, text, rfl⟩ := List.exists_cons_of_ne_nil fits.ne_nil
  obtain rfl : d = c := (List.cons.inj whole).1
  cases (none kind).symm.trans (fits.opens_head d rfl)

namespace Word

/-- The characters of a name can be seen. -/
theorem visible_of_inName {c : Char} (inside : inName c = true) :
    0x21 ≤ c.toNat ∧ c.toNat ≤ 0x7e := by
  simp only [inName, Char.isAlphanum, Bool.or_eq_true, beq_iff_eq] at inside
  have begins : beginsName c = true ∨ c.isDigit = true ∨ c = '.' := by
    simp only [beginsName, Bool.or_eq_true, beq_iff_eq]
    tauto
  rcases begins with begins | digit | rfl
  · rcases toNat_of_beginsName begins with range | rfl
    · omega
    · decide
  · have range := Char.isDigit_iff_toNat.mp digit
    exact ⟨Nat.le_trans (by decide) range.1, Nat.le_trans range.2 (by decide)⟩
  · decide

/-- The characters of a name begin no delimiter. -/
theorem opens_of_inName {c : Char} (inside : inName c = true) (kind : Delimiter) :
    kind.opens c = false := by
  by_cases blanks : kind = .blanks
  · subst blanks
    have visible := visible_of_inName inside
    exact Text.isBlank_of_visible visible.1 visible.2
  · have apart : signs.all (!inName ·) = true := by decide
    rw [← Bool.not_eq_true]
    intro begins
    have outside := List.all_eq_true.mp apart c (mem_signs begins blanks)
    simp [inside] at outside

theorem inName_of_isName {cs : List Char} (name : isName cs = true) :
    cs ≠ [] ∧ ∀ c ∈ cs, inName c = true := by
  cases cs with
  | nil => cases name
  | cons c rest =>
    refine ⟨List.cons_ne_nil c rest, List.forall_mem_cons.mpr ⟨?_, ?_⟩⟩
    · have begins := beginsName_of_isName name
      simp only [beginsName, Bool.or_eq_true, beq_iff_eq] at begins
      simp only [inName, Char.isAlphanum, Bool.or_eq_true, beq_iff_eq]
      tauto
    · simp only [isName, Bool.and_eq_true, List.all_eq_true] at name
      exact name.1.2

end Word

/-- Characters that begin no delimiter are plain text before one and at the end. -/
theorem Stretch.of_unopened {text after : List Char} (filled : text ≠ [])
    (ordinary : ∀ c ∈ text, ∀ kind : Delimiter, kind.opens c = false)
    (maximal : after = [] ∨ Delimited after) : Stretch text after := by
  refine ⟨filled, ?_, maximal⟩
  intro rest suffix some
  obtain ⟨c, rest, rfl⟩ := List.exists_cons_of_ne_nil some
  exact not_delimited_of_opens (ordinary c (suffix.mem List.mem_cons_self)) (rest ++ after)

/-- A name is plain text before a delimiter. -/
theorem Stretch.of_isName {name after : List Char} (isName : Word.isName name = true)
    (begins : Delimited after) : Stretch name after :=
  have ⟨filled, inside⟩ := Word.inName_of_isName isName
  .of_unopened filled (fun c mem => Word.opens_of_inName (inside c mem)) (.inr begins)

/-! ## The block -/

/-- The pieces of a block with one name in it. -/
def blockCuts (name : List Char) : List Cut :=
  [.delimiter .doubled blockStart.toList, .delimiter .blanks [' '], .plain name,
    .delimiter .blanks [' '], .delimiter .doubled blockEnd.toList]

/-- The block before any other text has its own pieces. -/
theorem LeftmostSplit.block {name cs : List Char} {cuts : List Cut}
    (isName : Word.isName name = true) (split : LeftmostSplit cs cuts) :
    LeftmostSplit (((blockCuts name).map Cut.text).flatten ++ cs) (blockCuts name ++ cuts) := by
  obtain ⟨filled, inside⟩ := Word.inName_of_isName isName
  have space : ∀ c ∈ [' '], Text.isBlank c = true := List.all_eq_true.mp (by decide)
  have closing : LeftmostSplit (blockEnd.toList ++ cs)
      (.delimiter .doubled blockEnd.toList :: cuts) :=
    cons_iff.mpr ⟨cs, rfl, .doubled (by decide), split⟩
  have after : LeftmostSplit ([' '] ++ (blockEnd.toList ++ cs)) (.delimiter .blanks [' '] :: _) :=
    cons_iff.mpr ⟨_, rfl, .blanks nofun space (by simp [blockEnd]; decide), closing⟩
  have inner : LeftmostSplit (name ++ ([' '] ++ (blockEnd.toList ++ cs))) (.plain name :: _) :=
    cons_iff.mpr ⟨_, rfl, .of_isName isName (delimited_of_blank (by decide) _), after⟩
  have stops : ∀ c ∈ (name ++ ([' '] ++ (blockEnd.toList ++ cs))).head?,
      Text.isBlank c = false := by
    obtain ⟨c, rest, rfl⟩ := List.exists_cons_of_ne_nil filled
    have ordinary : Text.isBlank c = false :=
      Word.opens_of_inName (inside c List.mem_cons_self) .blanks
    simpa using ordinary
  have before : LeftmostSplit ([' '] ++ (name ++ ([' '] ++ (blockEnd.toList ++ cs))))
      (.delimiter .blanks [' '] :: _) :=
    cons_iff.mpr ⟨_, rfl, .blanks nofun space stops, inner⟩
  have opening : LeftmostSplit (blockStart.toList ++ _)
      (.delimiter .doubled blockStart.toList :: _) :=
    cons_iff.mpr ⟨_, rfl, .doubled (by decide), before⟩
  simpa [blockCuts, Cut.text] using opening

/-- The block holds no quote. -/
theorem notMem_block {name : List Char} (isName : Word.isName name = true) {c : Char}
    (quote : c ∈ quotes) : c ∉ ((blockCuts name).map Cut.text).flatten := by
  intro mem
  have inside : c ∈ "\x7b\x7b \x7d\x7d".toList ∨ c ∈ name := by
    simp [blockCuts, Cut.text, blockStart, blockEnd] at mem ⊢
    tauto
  rcases inside with sign | inside
  · have apart : "\x7b\x7b \x7d\x7d".toList.all (!quotes.contains ·) = true := by decide
    have outside := List.all_eq_true.mp apart c sign
    simp [quote] at outside
  · have opening : Delimiter.quoted.opens c = true := mem_quotes_iff.mp quote
    have ordinary := Word.opens_of_inName ((Word.inName_of_isName isName).2 c inside) .quoted
    cases ordinary.symm.trans opening

/-! ## Where the block is -/

/-- A pair of one character stands in two texts put together at the same place, if it stands nowhere
else in one of them. -/
theorem eq_of_append_pair {c : Char} {first first' second second' : List Char}
    (same : first ++ c :: c :: second = first' ++ c :: c :: second')
    (before : ¬ [c, c] <:+: first') (apart : first'.getLast? ≠ some c)
    (after : ¬ [c, c] <:+: c :: second') : first = first' := by
  rcases List.append_eq_append_iff.mp same with ⟨more, rfl, rest⟩ | ⟨more, rfl, rest⟩
  · cases more with
    | nil => exact (List.append_nil first).symm
    | cons d more =>
      obtain ⟨rfl, rest'⟩ := List.cons.inj rest
      cases more with
      | nil => exact absurd (by simp) apart
      | cons e more =>
        have again : c = e := (List.cons.inj rest').1
        exact absurd ⟨first, more, by simp [again]⟩ before
  · cases more with
    | nil => exact List.append_nil first'
    | cons d more =>
      obtain ⟨rfl, rest'⟩ := List.cons.inj rest
      exact absurd ⟨more, second, by rw [rest']; simp⟩ after

/-- What follows characters that are not of a pair holds the pair if all of it together does. -/
theorem pair_of_pair_append {c : Char} {text after : List Char} (absent : c ∉ text)
    (inside : [c, c] <:+: text ++ after) : [c, c] <:+: after := by
  induction text with
  | nil => exact inside
  | cons d text ih =>
    rw [List.mem_cons, not_or] at absent
    rcases List.infix_cons_iff.mp inside with begins | inside
    · cases absent.1 (List.cons_prefix_cons.mp begins).1
    · exact ih absent.2 inside

/-- Two braces stand nowhere else behind the first of the block. -/
theorem unbraced_block {name after : List Char} (isName : Word.isName name = true)
    (none : ¬ ['\x7b', '\x7b'] <:+: after) :
    ¬ ['\x7b', '\x7b'] <:+: '\x7b' :: (' ' :: name ++ " \x7d\x7d".toList ++ after) := by
  intro inside
  have absent : '\x7b' ∉ ' ' :: name ++ " \x7d\x7d".toList := by
    have notName : '\x7b' ∉ name := by
      intro mem
      cases (Word.inName_of_isName isName).2 _ mem
    simpa using notName
  rcases List.infix_cons_iff.mp inside with begins | inside
  · simp at begins
  · exact none (pair_of_pair_append absent inside)

end Inlay
