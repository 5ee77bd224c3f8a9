import Inlay.Proofs.Token.Delimiter
import Inlay.Proofs.Token.Texts
import Mathlib.Data.List.Chain

/-!
# The leftmost split

A source is read from the left. Where it goes on with a delimiter, the first one in the order of the
kinds is one piece; where it does not, all the characters up to the next delimiter or the end are
one. `LeftmostSplit` says this of a list of pieces, each with what it is, and does not say how the
pieces are found. Every text has one such split and no other, and `tokenize_leftmost` says that the
tokens of a source are its pieces.

What else is known of tokens follows from the split alone: what plain text cannot hold, which tokens
cannot stand side by side, and that a token is blank throughout when its first character is. The
quotes are the one rule that looks ahead without a bound: a quote stands in plain text only if no
other follows anywhere in the source.
-/

namespace Inlay

/-- A piece of a source: a delimiter of a kind, or plain text. -/
inductive Cut
  | delimiter (kind : Delimiter) (text : List Char)
  | plain (text : List Char)
  deriving DecidableEq, Repr

namespace Cut

/-- The characters of a piece. -/
def text : Cut → List Char
  | delimiter _ text => text
  | plain text => text

/-- Whether a piece is plain text. -/
def isPlain : Cut → Bool
  | delimiter .. => false
  | plain _ => true

/-- Two pieces can be neighbours: they are not both plain text, nor do both begin with a blank. -/
def Apart (first second : Cut) : Prop :=
  ¬ (first.isPlain = true ∧ second.isPlain = true) ∧
    ¬ (first.text.head?.any Text.isBlank = true ∧ second.text.head?.any Text.isBlank = true)

end Cut

open Delimiter

/-- Plain text as long as it can be: no delimiter begins in it, and what follows it is a delimiter
or nothing. -/
structure Stretch (text after : List Char) : Prop where
  filled : text ≠ []
  undelimited : ∀ rest, rest <:+ text → rest ≠ [] → ¬ Delimited (rest ++ after)
  maximal : after = [] ∨ Delimited after

/-- The pieces of a text when it is split from the left. -/
inductive LeftmostSplit : List Char → List Cut → Prop
  | nil : LeftmostSplit [] []
  | delimiter {kind : Delimiter} {text after : List Char} {cuts : List Cut} :
      kind.First text after → LeftmostSplit after cuts →
      LeftmostSplit (text ++ after) (.delimiter kind text :: cuts)
  | plain {text after : List Char} {cuts : List Cut} : Stretch text after →
      LeftmostSplit after cuts → LeftmostSplit (text ++ after) (.plain text :: cuts)

/-! ## Plain text -/

namespace Stretch

variable {text after : List Char}

/-- At no character of plain text does a delimiter begin. -/
theorem not_delimited (stretch : Stretch text after) {front back : List Char} {c : Char}
    (parts : text = front ++ c :: back) : ¬ Delimited (c :: (back ++ after)) :=
  stretch.undelimited (c :: back) ⟨front, parts.symm⟩ (List.cons_ne_nil c back)

/-- No delimiter begins where plain text begins. -/
theorem not_begins (stretch : Stretch text after) : ¬ Delimited (text ++ after) :=
  stretch.undelimited text List.suffix_rfl stretch.filled

/-- Plain text holds no delimiter of one character and no blank. -/
theorem ordinary (stretch : Stretch text after) {c : Char} (mem : c ∈ text) :
    c ∉ singles ∧ Text.isBlank c = false := by
  obtain ⟨front, back, parts⟩ := List.append_of_mem mem
  refine ⟨fun alone => ?_, Bool.eq_false_iff.mpr fun blank => ?_⟩
  · exact stretch.not_delimited parts (delimited_of_single alone _)
  · exact stretch.not_delimited parts (delimited_of_blank blank _)

/-- Plain text holds no delimiter of two characters. -/
theorem unpaired (stretch : Stretch text after) {pair : List Char} (mem : pair ∈ pairs) :
    ¬ pair <:+: text := by
  intro inside
  obtain ⟨front, back, parts⟩ := inside
  obtain ⟨c, -, rfl⟩ := mem_pairs_iff.mp mem
  have begins : Delimited (c :: (c :: back ++ after)) := delimited_of_pair mem (back ++ after)
  have place : text = front ++ c :: (c :: back) := by simp [← parts]
  exact stretch.not_delimited place begins

/-- A quote in plain text is the last of its kind. -/
theorem unclosed (stretch : Stretch text after) {front back : List Char} {quote : Char}
    (parts : text = front ++ quote :: back) (mem : quote ∈ quotes) : quote ∉ back ++ after :=
  fun closed => stretch.not_delimited parts (delimited_of_closed mem closed)

/-- A character before which no delimiter begins makes plain text longer. -/
theorem cons (stretch : Stretch text after) {c : Char}
    (ordinary : ¬ Delimited (c :: (text ++ after))) : Stretch (c :: text) after := by
  refine ⟨List.cons_ne_nil c text, ?_, stretch.maximal⟩
  intro rest suffix some
  rcases List.suffix_cons_iff.mp suffix with rfl | suffix
  · exact ordinary
  · exact stretch.undelimited rest suffix some

/-- A single character is plain text where no delimiter begins there and the end or a delimiter
follows. -/
theorem singleton {c : Char} (ordinary : ¬ Delimited (c :: after))
    (maximal : after = [] ∨ Delimited after) : Stretch [c] after := by
  refine ⟨List.cons_ne_nil c [], ?_, maximal⟩
  intro rest suffix some
  rcases List.suffix_cons_iff.mp suffix with rfl | suffix
  · exact ordinary
  · exact absurd (List.suffix_nil.mp suffix) some

/-- Of two stretches that begin a text neither is the longer. -/
theorem eq_of_append_eq {text' after' : List Char} (stretch : Stretch text after)
    (stretch' : Stretch text' after') (same : text ++ after = text' ++ after') :
    text = text' ∧ after = after' := by
  rcases List.append_eq_append_iff.mp same with ⟨more, rfl, rfl⟩ | ⟨more, rfl, rfl⟩
  · cases more with
    | nil => exact ⟨(List.append_nil text).symm, rfl⟩
    | cons c more =>
      have goes := stretch'.undelimited (c :: more) (List.suffix_append text _) nofun
      exact absurd (stretch.maximal.resolve_left nofun) goes
  · cases more with
    | nil => exact ⟨List.append_nil text', rfl⟩
    | cons c more =>
      have goes := stretch.undelimited (c :: more) (List.suffix_append text' _) nofun
      exact absurd (stretch'.maximal.resolve_left nofun) goes

end Stretch

/-! ## One split and no other -/

namespace LeftmostSplit

/-- The pieces put together are the text. -/
theorem flatten_eq {cs : List Char} {cuts : List Cut} (split : LeftmostSplit cs cuts) :
    (cuts.map Cut.text).flatten = cs := by
  induction split with
  | nil => rfl
  | delimiter _ _ ih | plain _ _ ih => rw [List.map_cons, List.flatten_cons, ih]; rfl

/-- A character before which no delimiter begins joins the plain text after it, or is plain text of
its own. -/
theorem extend {c : Char} {rest : List Char} {cuts : List Cut} (split : LeftmostSplit rest cuts)
    (ordinary : ¬ Delimited (c :: rest)) : ∃ cuts, LeftmostSplit (c :: rest) cuts := by
  cases split with
  | nil => exact ⟨_, .plain (.singleton ordinary (.inl rfl)) .nil⟩
  | delimiter first later =>
    exact ⟨_, .plain (.singleton ordinary (.inr first.delimited)) (.delimiter first later)⟩
  | plain stretch later => exact ⟨_, .plain (stretch.cons ordinary) later⟩

/-- Every text can be split. -/
theorem exists_cuts : ∀ cs : List Char, ∃ cuts, LeftmostSplit cs cuts
  | [] => ⟨[], .nil⟩
  | c :: rest => by
    by_cases begins : Delimited (c :: rest)
    · obtain ⟨kind, text, after, whole, first⟩ := delimited_iff.mp begins
      have shorter : after.length < (c :: rest).length := by
        have some := List.length_pos_iff.mpr first.1.ne_nil
        rw [← whole, List.length_append]
        omega
      obtain ⟨cuts, split⟩ := exists_cuts after
      exact ⟨_, whole ▸ split.delimiter first⟩
    · obtain ⟨cuts, split⟩ := exists_cuts rest
      exact split.extend begins
termination_by cs => cs.length
decreasing_by
  · exact shorter
  · exact Nat.lt_succ_self _

/-- Splitting leaves no choice. -/
theorem unique {cs cs' : List Char} {cuts cuts' : List Cut} (split : LeftmostSplit cs cuts)
    (split' : LeftmostSplit cs' cuts') (same : cs = cs') : cuts = cuts' := by
  induction split generalizing cs' cuts' with
  | nil =>
    cases split' with
    | nil => rfl
    | delimiter first => exact absurd (List.append_eq_nil_iff.mp same.symm).1 first.1.ne_nil
    | plain stretch => exact absurd (List.append_eq_nil_iff.mp same.symm).1 stretch.filled
  | delimiter first _ ih =>
    have begins := first.delimited
    cases split' with
    | nil => exact absurd (same ▸ begins) not_delimited_nil
    | delimiter first' later' =>
      obtain ⟨rfl, rfl, rfl⟩ := first.unique first' same
      rw [ih later' rfl]
    | plain stretch' => exact absurd (same ▸ begins) stretch'.not_begins
  | plain stretch _ ih =>
    cases split' with
    | nil => exact absurd (List.append_eq_nil_iff.mp same).1 stretch.filled
    | delimiter first' => exact absurd (same ▸ first'.delimited) stretch.not_begins
    | plain stretch' later' =>
      obtain ⟨rfl, rfl⟩ := stretch.eq_of_append_eq stretch' same
      rw [ih later' rfl]

end LeftmostSplit

/-! ## The split that is computed -/

namespace Token

/-- A delimiter is cut off, and the open run of plain text before it. -/
theorem splitFrom_of_first {kind : Delimiter} {text after : List Char}
    (first : kind.First text after) (done : List (List Char)) (plain : List Char) :
    splitFrom done plain (text ++ after) = splitFrom (text :: flush done plain) [] after := by
  have found := delimiter?_eq_some_iff.mpr ⟨rfl, kind, first⟩
  obtain ⟨c, rest, rfl⟩ := List.exists_cons_of_ne_nil first.1.ne_nil
  rw [List.cons_append] at found ⊢
  rw [splitFrom]
  split
  · rename_i found'
    cases found.symm.trans found'
    rfl
  · rename_i none
    cases found.symm.trans none

/-- Where no delimiter begins the run of plain text goes on. -/
theorem splitFrom_of_not_delimited {c : Char} {rest : List Char}
    (ordinary : ¬ Delimited (c :: rest)) (done : List (List Char)) (plain : List Char) :
    splitFrom done plain (c :: rest) = splitFrom done (c :: plain) rest := by
  have none := delimiter?_eq_none_iff.mpr ordinary
  rw [splitFrom]
  split
  · rename_i found
    cases none.symm.trans found
  · rfl

/-- Plain text is taken into the open run. -/
theorem splitFrom_append {text after : List Char}
    (undelimited : ∀ rest, rest <:+ text → rest ≠ [] → ¬ Delimited (rest ++ after))
    (done : List (List Char)) (plain : List Char) :
    splitFrom done plain (text ++ after) = splitFrom done (text.reverse ++ plain) after := by
  induction text generalizing plain with
  | nil => rfl
  | cons c text ih =>
    have here : ¬ Delimited (c :: (text ++ after)) :=
      undelimited (c :: text) List.suffix_rfl (List.cons_ne_nil c text)
    rw [List.cons_append, splitFrom_of_not_delimited here, ih, List.reverse_cons,
      List.append_assoc, List.singleton_append]
    intro rest suffix
    exact undelimited rest (suffix.trans (List.suffix_cons c text))

/-- At the end and at a delimiter the open run is cut off. -/
theorem splitFrom_flush {after : List Char} (stops : after = [] ∨ Delimited after)
    (done : List (List Char)) (plain : List Char) :
    splitFrom done plain after = splitFrom (flush done plain) [] after := by
  rcases stops with rfl | begins
  · rw [splitFrom, splitFrom]
    rfl
  · obtain ⟨kind, text, rest, rfl, first⟩ := delimited_iff.mp begins
    rw [splitFrom_of_first first, splitFrom_of_first first]
    rfl

theorem splitFrom_eq_of_leftmostSplit {cs : List Char} {cuts : List Cut}
    (split : LeftmostSplit cs cuts) (done : List (List Char)) :
    splitFrom done [] cs = done.reverse ++ cuts.map Cut.text := by
  induction split generalizing done with
  | nil =>
    rw [splitFrom]
    exact (List.append_nil _).symm
  | delimiter first _ ih =>
    rw [splitFrom_of_first first, ih, List.reverse_cons, List.append_assoc]
    rfl
  | @plain text after _ stretch _ ih =>
    have cut : flush done text.reverse = text :: done := by
      rw [flush, List.isEmpty_reverse, if_neg (by simpa using stretch.filled), List.reverse_reverse]
    rw [splitFrom_append stretch.undelimited, List.append_nil, splitFrom_flush stretch.maximal, cut,
      ih, List.reverse_cons, List.append_assoc]
    rfl

/-- The texts of a source are those of its pieces. -/
theorem split_eq_of_leftmostSplit {cs : List Char} {cuts : List Cut}
    (leftmost : LeftmostSplit cs cuts) : split cs = cuts.map Cut.text :=
  splitFrom_eq_of_leftmostSplit leftmost []

end Token

/-! ## Blanks and neighbours -/

namespace LeftmostSplit

/-- A piece of a text is plain text or a delimiter that is the first where it stands. -/
theorem of_mem {cs : List Char} {cuts : List Cut} (split : LeftmostSplit cs cuts) {cut : Cut}
    (mem : cut ∈ cuts) :
    (∃ text after, cut = .plain text ∧ Stretch text after) ∨
      ∃ kind text after, cut = .delimiter kind text ∧ First kind text after := by
  induction split with
  | nil => cases mem
  | delimiter first _ ih =>
    rcases List.mem_cons.mp mem with rfl | mem
    · exact .inr ⟨_, _, _, rfl, first⟩
    · exact ih mem
  | plain stretch _ ih =>
    rcases List.mem_cons.mp mem with rfl | mem
    · exact .inl ⟨_, _, rfl, stretch⟩
    · exact ih mem

/-- No piece is empty. -/
theorem text_ne_nil {cs : List Char} {cuts : List Cut} (split : LeftmostSplit cs cuts) {cut : Cut}
    (mem : cut ∈ cuts) : cut.text ≠ [] := by
  rcases split.of_mem mem with ⟨_, _, rfl, stretch⟩ | ⟨_, _, _, rfl, first⟩
  · exact stretch.filled
  · exact first.1.ne_nil

/-- A piece begins with a blank only if it is blank throughout. -/
theorem isBlank_iff {cs : List Char} {cuts : List Cut} (split : LeftmostSplit cs cuts) {cut : Cut}
    (mem : cut ∈ cuts) :
    cut.text.head?.any Text.isBlank = true ↔ ∀ c ∈ cut.text, Text.isBlank c = true := by
  constructor
  · intro begins
    rcases split.of_mem mem with ⟨text, _, rfl, stretch⟩ | ⟨kind, text, _, rfl, first⟩
    · obtain ⟨c, head, blank⟩ := (Option.any_eq_true _ _).mp begins
      have ordinary := stretch.ordinary (List.mem_of_head? head)
      cases ordinary.2.symm.trans blank
    · rw [Cut.text, first.1.isBlank_head, decide_eq_true_eq] at begins
      subst begins
      cases first.1 with
      | blanks _ all => exact all
  · intro all
    obtain ⟨c, rest, parts⟩ := List.exists_cons_of_ne_nil (split.text_ne_nil mem)
    rw [parts] at all ⊢
    exact all c List.mem_cons_self

/-- The first piece begins as the text does. -/
theorem head?_eq {cs : List Char} {cut : Cut} {cuts : List Cut}
    (split : LeftmostSplit cs (cut :: cuts)) : cut.text.head? = cs.head? := by
  obtain ⟨c, rest, parts⟩ := List.exists_cons_of_ne_nil (split.text_ne_nil List.mem_cons_self)
  rw [← split.flatten_eq, List.map_cons, parts]
  rfl

/-- Of two neighbours one at most is plain text and one at most is blank. -/
theorem apart {cs : List Char} {cuts : List Cut} (split : LeftmostSplit cs cuts) :
    cuts.IsChain Cut.Apart := by
  induction split with
  | nil => exact .nil
  | @delimiter kind text after cuts first later ih =>
    refine List.isChain_cons.mpr ⟨?_, ih⟩
    intro next head
    obtain ⟨cuts, rfl⟩ := List.head?_eq_some_iff.mp head
    refine ⟨nofun, ?_⟩
    rintro ⟨blank, blank'⟩
    rw [Cut.text, first.1.isBlank_head, decide_eq_true_eq] at blank
    subst blank
    rw [later.head?_eq] at blank'
    obtain ⟨c, begins, blank'⟩ := (Option.any_eq_true _ _).mp blank'
    cases first.1 with
    | blanks _ _ stops => cases (stops c begins).symm.trans blank'
  | @plain text after cuts stretch later ih =>
    refine List.isChain_cons.mpr ⟨?_, ih⟩
    intro next head
    obtain ⟨cuts, rfl⟩ := List.head?_eq_some_iff.mp head
    constructor
    · rintro ⟨-, plain⟩
      cases later with
      | delimiter => cases plain
      | @plain text' after' _ stretch' =>
        rcases stretch.maximal with none | begins
        · exact stretch'.filled (List.append_eq_nil_iff.mp none).1
        · exact stretch'.not_begins begins
    · rintro ⟨blank, -⟩
      obtain ⟨c, begins, blank⟩ := (Option.any_eq_true _ _).mp blank
      cases (stretch.ordinary (List.mem_of_head? begins)).2.symm.trans blank

/-- Plain text among the pieces is as long as it can be where it stands. -/
theorem stretch {cs : List Char} {before later : List Cut} {text : List Char}
    (split : LeftmostSplit cs (before ++ .plain text :: later)) :
    Stretch text (later.map Cut.text).flatten := by
  induction before generalizing cs with
  | nil =>
    cases split with
    | plain stretch rest =>
      rw [rest.flatten_eq]
      exact stretch
  | cons first before ih =>
    cases split with
    | delimiter _ rest | plain _ rest => exact ih rest

end LeftmostSplit

/-- A source has one leftmost split, and the tokens are its pieces. In plain text stands no
delimiter of one or two characters and no blank, and a quote only if the rest of the source has none
of the same kind. No two pieces of plain text are neighbours, nor are two blank tokens, and a token
that begins with a blank is blank throughout. -/
theorem tokenize_leftmost (source : String) :
    ∃ cuts : List Cut, (∀ others, LeftmostSplit source.toList others ↔ others = cuts) ∧
      (tokenize source).map Token.text = cuts.map (String.ofList ·.text) ∧
      (∀ text, .plain text ∈ cuts →
        (∀ c ∈ text, c ∉ singles ∧ Text.isBlank c = false) ∧ ∀ pair ∈ pairs, ¬ pair <:+: text) ∧
      (∀ before text later, cuts = before ++ .plain text :: later →
        ∀ front quote back, text = front ++ quote :: back → quote ∈ quotes →
          quote ∉ back ++ (later.map Cut.text).flatten) ∧
      (cuts.IsChain fun cut next => ¬ (cut.isPlain = true ∧ next.isPlain = true)) ∧
      ((tokenize source).IsChain fun t next => ¬ (t.isBlank = true ∧ next.isBlank = true)) ∧
      ∀ t ∈ tokenize source, t.isBlank = true ↔ ∀ c ∈ t.text.toList, Text.isBlank c = true := by
  obtain ⟨cuts, split⟩ := LeftmostSplit.exists_cuts source.toList
  have texts : (tokenize source).map Token.text = cuts.map (String.ofList ·.text) := by
    rw [map_text_tokenize, Token.split_eq_of_leftmostSplit split, List.map_map]
    rfl
  refine ⟨cuts, ?_, texts, ?_, ?_, ?_, ?_, ?_⟩
  · intro others
    constructor
    · intro other
      exact other.unique split rfl
    · rintro rfl
      exact split
  · intro text mem
    rcases split.of_mem mem with ⟨_, _, same, stretch⟩ | ⟨_, _, _, other, _⟩
    · cases same
      exact ⟨fun c mem => stretch.ordinary mem, fun pair mem => stretch.unpaired mem⟩
    · cases other
  · rintro before text later rfl front quote back parts mem
    exact split.stretch.unclosed parts mem
  · exact split.apart.imp fun cut next apart => apart.1
  · have chain : ((tokenize source).map Token.text).IsChain fun text next =>
        ¬ (text.toList.head?.any Text.isBlank = true ∧
          next.toList.head?.any Text.isBlank = true) := by
      rw [texts, List.isChain_map]
      simp only [String.toList_ofList]
      exact split.apart.imp fun cut next apart => apart.2
    exact (List.isChain_map _).mp chain
  · intro t mem
    have listed := List.mem_map_of_mem (f := Token.text) mem
    rw [texts, List.mem_map] at listed
    obtain ⟨cut, mem, same⟩ := listed
    rw [Token.isBlank, ← same, String.toList_ofList]
    exact split.isBlank_iff mem

/-- A quote that is never closed stays in plain text, and of three braces two are a delimiter. -/
theorem tokenize_leftmost_open_quote :
    let source := "a\"b\x7b\x7b\x7b  c"
    let later : List Cut :=
      [.delimiter .doubled "\x7b\x7b".toList, .plain ['\x7b'], .delimiter .blanks "  ".toList,
        .plain ['c']]
    LeftmostSplit source.toList (.plain "a\"b".toList :: later) ∧
      '"' ∉ ['b'] ++ (later.map Cut.text).flatten ∧
      ⟨"  ", ⟨1, 7⟩⟩ ∈ tokenize source ∧ ∀ c ∈ "  ".toList, Text.isBlank c = true := by
  intro source later
  have ordinary {cs : List Char} (none : Token.delimiter? cs = none) : ¬ Delimited cs :=
    Token.delimiter?_eq_none_iff.mp none
  have delimited {cs : List Char} (some : Token.delimiter? cs ≠ none) : Delimited cs :=
    not_not.mp (mt Token.delimiter?_eq_none_iff.mpr some)
  have last : LeftmostSplit ['c'] [.plain ['c']] :=
    .plain (.singleton (ordinary (by decide)) (.inl rfl)) .nil
  have gap : First .blanks "  ".toList ['c'] := by
    have spaces : ∀ c ∈ "  ".toList, Text.isBlank c = true := List.all_eq_true.mp (by decide)
    have stops : ∀ c ∈ ['c'].head?, Text.isBlank c = false := by simp; decide
    refine ⟨.blanks nofun spaces stops, [.doubled, .single, .quoted], [], rfl, ?_⟩
    intro other mem
    apply find?_eq_none_iff.mp
    revert other
    decide
  have brace : LeftmostSplit "\x7b  c".toList (later.drop 1) :=
    .plain (.singleton (ordinary (by decide)) (.inr (delimited (by decide)))) (.delimiter gap last)
  have braces : First .doubled "\x7b\x7b".toList "\x7b  c".toList :=
    ⟨.doubled (by decide), [], [.single, .quoted, .blanks], rfl, nofun⟩
  have block : LeftmostSplit "\x7b\x7b\x7b  c".toList later := .delimiter braces brace
  have quote : Stretch "a\"b".toList "\x7b\x7b\x7b  c".toList :=
    .cons (.cons (.singleton (ordinary (by decide)) (.inr (delimited (by decide))))
      (ordinary (by decide))) (ordinary (by decide))
  have parts : source.toList = "a\"b".toList ++ "\x7b\x7b\x7b  c".toList := by decide
  have split : LeftmostSplit source.toList (.plain "a\"b".toList :: later) :=
    parts ▸ .plain quote block
  have mem : ⟨"  ", ⟨1, 7⟩⟩ ∈ tokenize source := by decide +kernel
  obtain ⟨cuts, unique, -, -, quotes, -, -, blank⟩ := tokenize_leftmost source
  have whole := (unique _).mp split
  refine ⟨split, ?_, mem, (blank _ mem).mp (by decide)⟩
  exact quotes [] _ later whole.symm ['a'] '"' ['b'] rfl (by decide)

end Inlay
