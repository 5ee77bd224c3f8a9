import Inlay.Proofs.Token.Leftmost

/-!
# Putting something else behind a piece

The first character of a delimiter tells of which kind it is, so that the order in which the kinds
are tried decides nothing: what fits a kind is the first delimiter (`Delimiter.Fits.first`). What
follows a piece matters to it in three ways only. Blanks go on as far as they can, plain text ends
at a delimiter, and a quote in plain text is closed by the next that is the same.

`LeftmostSplit.replace` draws the consequence for a text whose end is replaced: the pieces before
the seam stay, if the last of them stands before the new end and no quote left open before it occurs
there. Blanks put between two pieces are such a new end, and `LeftmostSplit.insert_blanks` says what
becomes of the pieces: the blanks join those that stand at the place, or are one more piece.
-/

namespace Inlay

namespace Delimiter

/-- The characters that a delimiter of a kind can begin with. -/
def opens : Delimiter → Char → Bool
  | doubled => Token.isDoubling
  | single => Token.isSingle
  | quoted => Token.isQuote
  | blanks => Text.isBlank

/-- The characters that begin a delimiter and are not blank. -/
def signs : List Char :=
  ['\x7b', '\x7d', '&', '|'] ++ singles ++ quotes

theorem mem_signs {kind : Delimiter} {c : Char} (begins : kind.opens c = true)
    (other : kind ≠ .blanks) : c ∈ signs := by
  rw [signs, List.mem_append, List.mem_append]
  cases kind with
  | doubled =>
    have listed : c = '\x7b' ∨ c = '\x7d' ∨ c = '&' ∨ c = '|' := by
      simpa [opens, Token.isDoubling, or_assoc] using begins
    simp [listed]
  | single => exact .inl (.inr (mem_singles_iff.mpr begins))
  | quoted => exact .inr (mem_quotes_iff.mpr begins)
  | blanks => cases other rfl

/-- No character begins delimiters of two kinds. -/
theorem opens_unique {kind kind' : Delimiter} {c : Char} (first : kind.opens c = true)
    (second : kind'.opens c = true) : kind = kind' := by
  have alone : (signs.all fun c => order.all fun kind => order.all fun kind' =>
      !(kind.opens c && kind'.opens c) || kind == kind') = true := by decide
  have all (kind : Delimiter) : kind ∈ order := by cases kind <;> decide
  by_cases sign : c ∈ signs
  · have one := List.all_eq_true.mp alone c sign
    have one := List.all_eq_true.mp (List.all_eq_true.mp one kind (all kind)) kind' (all kind')
    simpa [first, second] using one
  · -- A character that begins nothing else can only be a blank.
    have blank {kind : Delimiter} (begins : kind.opens c = true) : kind = .blanks := by
      by_contra other
      exact sign (mem_signs begins other)
    rw [blank first, blank second]

/-- What begins another delimiter is not blank. -/
theorem not_blank {kind : Delimiter} {c : Char} (begins : kind.opens c = true)
    (other : kind ≠ .blanks) : Text.isBlank c = false := by
  rw [← Bool.not_eq_true]
  intro blank
  have blanks : Delimiter.blanks.opens c = true := blank
  exact other (opens_unique begins blanks)

/-- A delimiter begins as its kind says. -/
theorem Fits.opens_head {kind : Delimiter} {text after : List Char} (fits : kind.Fits after text) :
    ∀ c ∈ text.head?, kind.opens c = true := by
  cases fits with
  | doubled pair =>
    obtain ⟨c, doubling, rfl⟩ := mem_pairs_iff.mp pair
    simpa [opens] using doubling
  | single alone => simpa [opens] using mem_singles_iff.mp alone
  | quoted quote => simpa [opens] using mem_quotes_iff.mp quote
  | blanks _ all =>
    intro c head
    exact all c (List.mem_of_mem_head? head)

/-- What fits a kind is the first delimiter where it stands. -/
theorem Fits.first {kind : Delimiter} {text after : List Char} (fits : kind.Fits after text) :
    kind.First text after := by
  have mem : kind ∈ order := by cases kind <;> decide
  obtain ⟨earlier, later, listed, absent⟩ := List.eq_append_cons_of_mem mem
  refine ⟨fits, earlier, later, listed, ?_⟩
  rintro other tried ⟨text', after', same, fits'⟩
  obtain ⟨c, rest, rfl⟩ := List.exists_cons_of_ne_nil fits.ne_nil
  obtain ⟨c', rest', rfl⟩ := List.exists_cons_of_ne_nil fits'.ne_nil
  obtain rfl : c' = c := (List.cons.inj same).1
  have one : other = kind := opens_unique (fits'.opens_head _ rfl) (fits.opens_head _ rfl)
  subst one
  exact absent tried

/-- A delimiter begins with a character that is doubled, that stands alone, that is a quote which
occurs again, or that is blank. -/
theorem delimited_cons_iff {c : Char} {rest : List Char} :
    Delimited (c :: rest) ↔ Token.isDoubling c = true ∧ rest.head? = some c ∨ c ∈ singles ∨
      c ∈ quotes ∧ c ∈ rest ∨ Text.isBlank c = true := by
  constructor
  · rintro ⟨kind, text, after, whole, fits⟩
    cases fits with
    | doubled pair =>
      obtain ⟨d, doubling, rfl⟩ := mem_pairs_iff.mp pair
      cases whole
      exact .inl ⟨doubling, rfl⟩
    | single alone =>
      cases whole
      exact .inr (.inl alone)
    | quoted quote absent =>
      cases whole
      exact .inr (.inr (.inl ⟨quote, by simp⟩))
    | blanks filled all =>
      obtain ⟨d, text, rfl⟩ := List.exists_cons_of_ne_nil filled
      cases whole
      exact .inr (.inr (.inr (all c List.mem_cons_self)))
  · rintro (⟨doubling, again⟩ | alone | ⟨quote, again⟩ | blank)
    · obtain ⟨rest, rfl⟩ := List.head?_eq_some_iff.mp again
      exact delimited_of_pair (mem_pairs_iff.mpr ⟨c, doubling, rfl⟩) rest
    · exact delimited_of_single alone rest
    · exact delimited_of_closed quote again
    · exact delimited_of_blank blank rest

end Delimiter

open Delimiter

/-! ## One piece -/

/-- Whether a piece is a run of blanks. -/
def Cut.isGap (cut : Cut) : Bool :=
  cut.text.head?.any Text.isBlank

/-- Whether a piece can stand before a text. -/
def Cut.Stands (after : List Char) : Cut → Prop
  | .delimiter kind text => kind.Fits after text
  | .plain text => Stretch text after

theorem Cut.isGap_of_blank {kind : Delimiter} {w : List Char} (filled : w ≠ [])
    (blank : ∀ c ∈ w, Text.isBlank c = true) : (Cut.delimiter kind w).isGap = true := by
  obtain ⟨c, rest, rfl⟩ := List.exists_cons_of_ne_nil filled
  exact blank c List.mem_cons_self

/-- Plain text stays as it is before another text, when no quote in it is closed there, its last
character is not doubled, and it cannot go on. -/
theorem Stretch.replace {text after after' : List Char} (stretch : Stretch text after)
    (unclosed : ∀ c ∈ text, c ∈ quotes → c ∉ after')
    (undoubled : ∀ c ∈ text.getLast?, Token.isDoubling c = true → after'.head? ≠ some c)
    (maximal : after' = [] ∨ Delimited after') : Stretch text after' := by
  refine ⟨stretch.filled, ?_, maximal⟩
  intro rest suffix filled
  obtain ⟨c, back, rfl⟩ := List.exists_cons_of_ne_nil filled
  have here := stretch.undelimited _ suffix filled
  rw [List.cons_append, delimited_cons_iff] at here ⊢
  rintro (⟨doubling, again⟩ | alone | ⟨quote, again⟩ | blank)
  · cases back with
    | nil =>
      have last : c ∈ text.getLast? := by
        obtain ⟨front, rfl⟩ := suffix
        simp
      exact undoubled c last doubling again
    | cons d back => exact here (.inl ⟨doubling, again⟩)
  · exact here (.inr (.inl alone))
  · rcases List.mem_append.mp again with again | again
    · exact here (.inr (.inr (.inl ⟨quote, List.mem_append_left _ again⟩)))
    · exact unclosed c (suffix.mem List.mem_cons_self) quote again
  · exact here (.inr (.inr (.inr blank)))

/-- The last character of plain text is not doubled. -/
theorem Stretch.undoubled {text after : List Char} (stretch : Stretch text after) :
    ∀ c ∈ text.getLast?, Token.isDoubling c = true → after.head? ≠ some c := by
  intro c last doubling again
  obtain ⟨front, rfl⟩ := List.getLast?_eq_some_iff.mp last
  have begins : Delimited (c :: after) := delimited_cons_iff.mpr (.inl ⟨doubling, again⟩)
  have parts : front ++ [c] = front ++ c :: [] := rfl
  exact stretch.not_delimited parts begins

/-- Other text may follow a piece if blanks do not go on there and plain text ends there. -/
theorem Cut.Stands.before {cut : Cut} {after after' : List Char} (stands : cut.Stands after)
    (stops : ∀ text, cut = .delimiter .blanks text → ∀ c ∈ after'.head?, Text.isBlank c = false)
    (ends : ∀ text, cut = .plain text → Stretch text after') : cut.Stands after' := by
  cases cut with
  | plain text => exact ends text rfl
  | delimiter kind text =>
    cases stands with
    | doubled pair => exact .doubled pair
    | single alone => exact .single alone
    | quoted quote absent => exact .quoted quote absent
    | blanks filled all => exact .blanks filled all (stops text rfl)

/-- A piece stands before every text that begins like one that it stands before, if no quote in it
is closed there. -/
theorem Cut.Stands.replace {cut : Cut} {after after' : List Char} (stands : cut.Stands after)
    (same : after'.head? = after.head?)
    (unclosed : ∀ text, cut = .plain text → ∀ c ∈ text, c ∈ quotes → c ∉ after')
    (maximal : cut.isPlain = true → after' = [] ∨ Delimited after') : cut.Stands after' := by
  refine stands.before ?_ ?_
  · rintro text rfl
    cases stands with
    | blanks _ _ stops => exact same ▸ stops
  · rintro text rfl
    refine Stretch.replace stands (unclosed text rfl) ?_ (maximal rfl)
    rw [same]
    exact Stretch.undoubled stands

/-- A piece that is not blank stands before blanks, if no quote in it is closed there. -/
theorem Cut.Stands.before_blanks {cut : Cut} {after w after' : List Char}
    (stands : cut.Stands after) (visible : cut.isGap = false) (filled : w ≠ [])
    (blank : ∀ c ∈ w, Text.isBlank c = true)
    (unclosed : ∀ text, cut = .plain text → ∀ c ∈ text, c ∈ quotes → c ∉ w ++ after') :
    cut.Stands (w ++ after') := by
  refine stands.before ?_ ?_
  · rintro text rfl
    cases stands with
    | blanks filled all => cases (Cut.isGap_of_blank filled all).symm.trans visible
  · rintro text rfl
    obtain ⟨c, rest, rfl⟩ := List.exists_cons_of_ne_nil filled
    have begins := blank c List.mem_cons_self
    refine Stretch.replace stands (unclosed text rfl) ?_ (.inr (delimited_of_blank begins _))
    rintro d - doubling ⟨⟩
    have opening : Delimiter.doubled.opens c = true := doubling
    cases (not_blank opening nofun).symm.trans begins

/-! ## Several pieces -/

namespace LeftmostSplit

/-- A text is split by its first piece and a split of the rest. -/
theorem cons_iff {cs : List Char} {cut : Cut} {cuts : List Cut} :
    LeftmostSplit cs (cut :: cuts) ↔
      ∃ after, cs = cut.text ++ after ∧ cut.Stands after ∧ LeftmostSplit after cuts := by
  constructor
  · intro split
    cases split with
    | delimiter first later => exact ⟨_, rfl, first.1, later⟩
    | plain stretch later => exact ⟨_, rfl, stretch, later⟩
  · rintro ⟨after, rfl, stands, later⟩
    cases cut with
    | delimiter kind text => exact .delimiter (Fits.first stands) later
    | plain text => exact .plain stands later

/-- Where the first piece is no plain text a delimiter begins. -/
theorem delimited {cs : List Char} {cut : Cut} {cuts : List Cut}
    (split : LeftmostSplit cs (cut :: cuts)) (notPlain : cut.isPlain = false) : Delimited cs := by
  cases split with
  | delimiter first _ => exact first.delimited
  | plain => cases notPlain

/-- The last pieces of a text are a split of what they are together. -/
theorem of_append {cs : List Char} {before later : List Cut}
    (split : LeftmostSplit cs (before ++ later)) :
    LeftmostSplit (later.map Cut.text).flatten later := by
  induction before generalizing cs with
  | nil =>
    have whole := split.flatten_eq
    rw [List.nil_append] at whole split
    rwa [whole]
  | cons cut before ih =>
    obtain ⟨after, -, -, rest⟩ := cons_iff.mp split
    exact ih rest

/-- The pieces before a seam stay when what follows is replaced. The induction is on these pieces:
each but the last stands before a text that begins as it did. -/
theorem replace {cs cs' : List Char} {before later later' : List Cut}
    (split : LeftmostSplit cs (before ++ later)) (split' : LeftmostSplit cs' later')
    (unclosed : ∀ text, .plain text ∈ before → ∀ c ∈ text, c ∈ quotes → c ∉ cs')
    (seam : ∀ cut ∈ before.getLast?, cut.Stands cs') :
    LeftmostSplit ((before.map Cut.text).flatten ++ cs') (before ++ later') := by
  induction before generalizing cs with
  | nil => exact split'
  | cons cut before ih =>
    obtain ⟨after, -, stands, rest⟩ := cons_iff.mp split
    cases before with
    | nil =>
      have last : cut.Stands cs' := seam cut rfl
      exact cons_iff.mpr ⟨cs', by simp, last, split'⟩
    | cons next before =>
      have tail : LeftmostSplit (((next :: before).map Cut.text).flatten ++ cs')
          (next :: before ++ later') :=
        ih rest (fun text mem => unclosed text (List.mem_cons_of_mem cut mem)) seam
      have same : (((next :: before).map Cut.text).flatten ++ cs').head? = after.head? :=
        (tail.head?_eq).symm.trans rest.head?_eq
      refine cons_iff.mpr ⟨_, by simp, stands.replace same ?_ ?_, tail⟩
      · rintro text rfl c mem quote again
        rcases List.mem_append.mp again with again | again
        · obtain ⟨front, back, parts⟩ := List.append_of_mem mem
          have whole : ((next :: before).map Cut.text).flatten ++
              (later.map Cut.text).flatten = after := by
            rw [← List.flatten_append, ← List.map_append]
            exact rest.flatten_eq
          have inside : c ∈ after := whole ▸ List.mem_append_left _ again
          exact Stretch.unclosed stands parts quote (List.mem_append_right back inside)
        · exact unclosed text List.mem_cons_self c mem quote again
      · intro isPlain
        -- Of two neighbours one at most is plain text.
        have apart := (List.isChain_cons_cons.mp split.apart).1.1
        have notPlain : next.isPlain = false := by
          rw [← Bool.not_eq_true]
          exact fun plain => apart ⟨isPlain, plain⟩
        exact .inr (tail.delimited notPlain)

/-- A quote in plain text does not occur after a seam behind it. -/
theorem unclosed {cs text : List Char} {before later : List Cut}
    (split : LeftmostSplit cs (before ++ later)) (mem : .plain text ∈ before) :
    ∀ c ∈ text, c ∈ quotes → c ∉ (later.map Cut.text).flatten := by
  intro c inside quote again
  obtain ⟨front, back, rfl⟩ := List.append_of_mem mem
  obtain ⟨ahead, behind, parts⟩ := List.append_of_mem inside
  rw [List.append_assoc, List.cons_append] at split
  apply split.stretch.unclosed parts quote
  rw [List.map_append, List.flatten_append]
  exact List.mem_append_right behind (List.mem_append_right _ again)

/-- The last piece before a seam stands before the pieces after it. -/
theorem stands {cs : List Char} {before later : List Cut}
    (split : LeftmostSplit cs (before ++ later)) :
    ∀ cut ∈ before.getLast?, cut.Stands (later.map Cut.text).flatten := by
  intro cut last
  obtain ⟨front, rfl⟩ := List.getLast?_eq_some_iff.mp last
  rw [List.append_assoc, List.singleton_append] at split
  obtain ⟨after, -, stands, rest⟩ := cons_iff.mp split.of_append
  rwa [rest.flatten_eq]

/-! ## Blanks between two pieces -/

/-- Blanks are one piece between two that are not, in place of those that were there. -/
theorem gap {cs w : List Char} {front back : List Cut} (old : List Cut)
    (split : LeftmostSplit cs (front ++ (old ++ back))) (filled : w ≠ [])
    (blank : ∀ c ∈ w, Text.isBlank c = true) (before : ∀ cut ∈ front.getLast?, cut.isGap = false)
    (behind : ∀ cut ∈ back.head?, cut.isGap = false) :
    LeftmostSplit ((front.map Cut.text).flatten ++ (w ++ (back.map Cut.text).flatten))
      (front ++ .delimiter .blanks w :: back) := by
  have later : LeftmostSplit (back.map Cut.text).flatten back := by
    rw [← List.append_assoc] at split
    exact split.of_append
  have stops : ∀ c ∈ (back.map Cut.text).flatten.head?, Text.isBlank c = false := by
    intro c head
    cases back with
    | nil => cases head
    | cons next back =>
      have visible : next.text.head?.any Text.isBlank = false := behind next rfl
      rw [later.head?_eq, Option.mem_def.mp head] at visible
      exact visible
  have gap : LeftmostSplit (w ++ (back.map Cut.text).flatten) (.delimiter .blanks w :: back) :=
    cons_iff.mpr ⟨_, rfl, .blanks filled blank stops, later⟩
  have unclosed : ∀ text, .plain text ∈ front → ∀ c ∈ text, c ∈ quotes →
      c ∉ w ++ (back.map Cut.text).flatten := by
    intro text mem c inside quote again
    rcases List.mem_append.mp again with again | again
    · have opening : Delimiter.quoted.opens c = true := mem_quotes_iff.mp quote
      cases (not_blank opening nofun).symm.trans (blank c again)
    · apply split.unclosed mem c inside quote
      rw [List.map_append, List.flatten_append]
      exact List.mem_append_right _ again
  refine split.replace gap unclosed ?_
  intro cut last
  refine (split.stands cut last).before_blanks (before cut last) filled blank ?_
  rintro text rfl
  exact unclosed text (List.mem_of_getLast? last)

/-- Neighbours of a blank piece are not blank. -/
theorem not_isGap_of_neighbours {cs : List Char} {before later : List Cut} {cut : Cut}
    (split : LeftmostSplit cs (before ++ cut :: later)) (isGap : cut.isGap = true) :
    (∀ previous ∈ before.getLast?, previous.isGap = false) ∧
      ∀ next ∈ later.head?, next.isGap = false := by
  obtain ⟨-, chain, joins⟩ := List.isChain_append.mp split.apart
  simp only [← Bool.not_eq_true]
  constructor
  · intro previous last blank
    exact (joins previous last cut rfl).2 ⟨blank, isGap⟩
  · intro next head blank
    exact ((List.isChain_cons.mp chain).1 next head).2 ⟨isGap, blank⟩

/-- Blanks that are put between two pieces join those that stand there, or are one more piece. -/
theorem insert_blanks {cs w : List Char} {before later : List Cut}
    (split : LeftmostSplit cs (before ++ later)) (filled : w ≠ [])
    (blank : ∀ c ∈ w, Text.isBlank c = true) :
    ∃ (front old back : List Cut) (gap : Cut), before ++ later = front ++ (old ++ back) ∧
      LeftmostSplit ((before.map Cut.text).flatten ++ (w ++ (later.map Cut.text).flatten))
        (front ++ gap :: back) ∧
      gap.isGap = true ∧ (∀ cut ∈ old, cut.isGap = true) ∧ (old = [] → back = later) := by
  by_cases behind : ∃ cut back, later = cut :: back ∧ cut.isGap = true
  · obtain ⟨cut, back, rfl, isGap⟩ := behind
    have all := (split.isBlank_iff (List.mem_append_right before List.mem_cons_self)).mp isGap
    have apart := split.not_isGap_of_neighbours isGap
    have longer : ∀ c ∈ w ++ cut.text, Text.isBlank c = true :=
      fun c mem => (List.mem_append.mp mem).elim (blank c) (all c)
    have some : w ++ cut.text ≠ [] := List.append_ne_nil_of_left_ne_nil filled _
    refine ⟨before, [cut], back, .delimiter .blanks (w ++ cut.text), rfl, ?_,
      Cut.isGap_of_blank some longer, by simpa using isGap, nofun⟩
    simpa using split.gap [cut] some longer apart.1 apart.2
  · have behind : ∀ next ∈ later.head?, next.isGap = false := by
      intro next head
      obtain ⟨back, rfl⟩ := List.head?_eq_some_iff.mp head
      rw [← Bool.not_eq_true]
      exact fun isGap => behind ⟨next, back, rfl, isGap⟩
    by_cases ahead : ∃ front cut, before = front ++ [cut] ∧ cut.isGap = true
    · obtain ⟨front, cut, rfl, isGap⟩ := ahead
      rw [List.append_assoc] at split
      have all := (split.isBlank_iff (List.mem_append_right front List.mem_cons_self)).mp isGap
      have apart := split.not_isGap_of_neighbours isGap
      have longer : ∀ c ∈ cut.text ++ w, Text.isBlank c = true :=
        fun c mem => (List.mem_append.mp mem).elim (all c) (blank c)
      have some : cut.text ++ w ≠ [] := List.append_ne_nil_of_right_ne_nil _ filled
      refine ⟨front, [cut], later, .delimiter .blanks (cut.text ++ w), List.append_assoc _ _ _, ?_,
        Cut.isGap_of_blank some longer, by simpa using isGap, nofun⟩
      simpa using split.gap [cut] some longer apart.1 apart.2
    · have ahead : ∀ previous ∈ before.getLast?, previous.isGap = false := by
        intro previous last
        obtain ⟨front, rfl⟩ := List.getLast?_eq_some_iff.mp last
        rw [← Bool.not_eq_true]
        exact fun isGap => ahead ⟨front, previous, rfl, isGap⟩
      exact ⟨before, [], later, .delimiter .blanks w, rfl,
        split.gap [] filled blank ahead behind, Cut.isGap_of_blank filled blank, nofun,
        fun _ => rfl⟩

end LeftmostSplit

end Inlay
