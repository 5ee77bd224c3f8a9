import Inlay.Proofs.Token.Texts
import Mathlib.Data.String.Basic

/-!
# Where tokens stand

The tokens of a source stand side by side, none of them empty, and the place that each carries is
that of its first byte. `Position.advance` finds a place by going from character to character;
`Position.Past` says it by counting instead: a text is finished lines and a last line, and the place
past it has as many lines before it as there are line feeds and as many columns as the last line has
bytes.

Bytes are those of the UTF-8 form. `Token.Fills` says of a token that it is what a source holds
between two of its character boundaries, so that nothing of a token is lost where characters of
several bytes stand around it.
-/

namespace Inlay

/-- A place is past finished lines and a last line. Each finished line ends with a line feed, and
the last one has none. -/
structure Position.Past (p : Position) (lines line : String) : Prop where
  finished : lines = "" ∨ lines.toList.getLast? = some '\n'
  unbroken : '\n' ∉ line.toList
  line_eq : p.line = 1 + (lines ++ line).toList.count '\n'
  column_eq : p.column = 1 + line.utf8ByteSize

namespace Position

theorem past_start : start.Past "" "" :=
  ⟨.inl rfl, List.not_mem_nil, rfl, rfl⟩

/-- A line feed finishes the last line, and any other character makes it longer by its bytes. -/
theorem Past.advance {p : Position} {lines line : String} (past : p.Past lines line) (c : Char) :
    ∃ lines' line', lines' ++ line' = (lines ++ line).push c ∧ (p.advance c).Past lines' line' := by
  obtain ⟨finished, unbroken, lineEq, columnEq⟩ := past
  by_cases feed : c = '\n'
  · subst feed
    refine ⟨(lines ++ line).push '\n', "", String.append_empty, ?_, List.not_mem_nil, ?_, rfl⟩
    · exact .inr (by simp)
    · rw [String.append_empty, String.toList_push, List.count_append]
      show p.line + 1 = _
      rw [lineEq]
      rfl
  · have stays : p.advance c = ⟨p.line, p.column + c.utf8Size⟩ := if_neg feed
    have longer : lines ++ line.push c = (lines ++ line).push c := by
      apply String.ext
      simp
    refine ⟨lines, line.push c, longer, finished, ?_, ?_, ?_⟩
    · simpa [String.toList_push, eq_comm] using ⟨unbroken, feed⟩
    · have none : [c].count '\n' = 0 := List.count_eq_zero.mpr (by simpa [eq_comm] using feed)
      rw [stays, longer, String.toList_push, List.count_append, none]
      exact lineEq
    · rw [stays, String.utf8ByteSize_push, ← Nat.add_assoc]
      exact congrArg (· + c.utf8Size) columnEq

/-- Going on through a text leads past what was read before and the text. -/
theorem Past.after {p : Position} {lines line : String} (past : p.Past lines line)
    (text : List Char) :
    ∃ lines' line', lines' ++ line' = lines ++ line ++ String.ofList text ∧
      (p.after text).Past lines' line' := by
  induction text generalizing p lines line with
  | nil => exact ⟨lines, line, by simp, past⟩
  | cons c text ih =>
    obtain ⟨_, _, first, past'⟩ := past.advance c
    obtain ⟨lines', line', whole, past''⟩ := ih past'
    refine ⟨lines', line', ?_, past''⟩
    rw [whole, first]
    apply String.ext
    simp

/-- The place past a text that begins a source. -/
theorem past_after_start (read : String) :
    ∃ lines line, lines ++ line = read ∧ (start.after read.toList).Past lines line := by
  obtain ⟨lines, line, whole, past⟩ := past_start.after read.toList
  exact ⟨lines, line, by simpa using whole, past⟩

end Position

namespace Token

/-- A token is what a source holds from the end of a text that was read to its own end, both of
which are boundaries between characters. -/
structure Fills (t : Token) (read source : String) : Prop where
  begins : read.rawEndPos.IsValid source
  ends : (read ++ t.text).rawEndPos.IsValid source
  slice : String.Pos.Raw.extract source read.rawEndPos (read ++ t.text).rawEndPos = t.text

/-- What stands between two texts is a slice of the whole. -/
theorem fills_of_append {t : Token} {read later source : String}
    (whole : read ++ t.text ++ later = source) : t.Fills read source := by
  subst whole
  refine ⟨?_, ?_, ?_⟩
  · exact String.Pos.Raw.isValid_iff_exists_append.mpr
      ⟨read, t.text ++ later, String.append_assoc, rfl⟩
  · exact String.Pos.Raw.isValid_iff_exists_append.mpr ⟨read ++ t.text, later, rfl, rfl⟩
  · have slice := String.extract_of_valid read.toList t.text.toList later.toList
    simpa [String.rawEndPos, ← String.utf8Len_toList, String.append_assoc] using slice

/-! ## Places in the order of the texts -/

theorem locateFrom_eq (done : List Token) (place : Position) (texts : List (List Char)) :
    locateFrom done place texts = done.reverse ++ locateFrom [] place texts := by
  induction texts generalizing done place with
  | nil => exact (List.append_nil _).symm
  | cons text texts ih =>
    rw [locateFrom, locateFrom, ih, ih [_], List.reverse_cons, List.append_assoc]
    rfl

/-- The place of a token is past the texts of all tokens before it. -/
theorem position_of_locateFrom {place : Position} {texts : List (List Char)}
    {before after : List Token} {t : Token}
    (found : locateFrom [] place texts = before ++ t :: after) :
    t.position = place.after (String.join (before.map text)).toList := by
  induction texts generalizing place before with
  | nil => simp [locateFrom] at found
  | cons text texts ih =>
    rw [locateFrom, locateFrom_eq, List.reverse_singleton, List.singleton_append] at found
    cases before with
    | nil =>
      rw [List.nil_append, List.cons.injEq] at found
      rw [← found.1]
      rfl
    | cons first before =>
      rw [List.cons_append, List.cons.injEq] at found
      rw [ih found.2, ← Position.after_append, ← found.1, List.map_cons, String.join_cons]
      simp

end Token

/-- The place of a token of a source is past the texts of all tokens before it. -/
theorem position_of_tokenize {source : String} {before after : List Token} {t : Token}
    (found : tokenize source = before ++ t :: after) :
    t.position = Position.start.after (String.join (before.map Token.text)).toList :=
  Token.position_of_locateFrom found

/-- The tokens of a source are not empty and are the source when put together. Each stands at the
place that line feeds and bytes before it count up to: its line begins no later than it does, its
column is the distance in bytes from there, and it fills the source from one boundary between
characters to another. -/
theorem tokenize_places (source : String) :
    (∀ t ∈ tokenize source, t.text ≠ "") ∧
    String.join ((tokenize source).map Token.text) = source ∧
    ∀ (before after : List Token) (t : Token), tokenize source = before ++ t :: after →
      ∃ read lines line : String, read = String.join (before.map Token.text) ∧
        read = lines ++ line ∧ t.position.Past lines line ∧
        lines.utf8ByteSize ≤ read.utf8ByteSize ∧
        t.position.column = read.utf8ByteSize - lines.utf8ByteSize + 1 ∧
        t.Fills read source := by
  refine ⟨fun t mem => text_ne_empty_of_mem_tokenize mem, join_tokenize source, ?_⟩
  · intro before after t found
    obtain ⟨lines, line, whole, past⟩ :=
      Position.past_after_start (String.join (before.map Token.text))
    rw [← position_of_tokenize found] at past
    have size := congrArg String.utf8ByteSize whole
    rw [String.utf8ByteSize_append] at size
    have column := past.column_eq
    refine ⟨_, lines, line, rfl, whole.symm, past, by omega, by omega, ?_⟩
    have all := join_tokenize source
    rw [found, List.map_append, List.map_cons, String.join_append, String.join_cons,
      ← String.append_assoc] at all
    exact Token.fills_of_append all

/-- A name after a quoted run that goes over two lines and holds characters of several bytes. -/
theorem tokenize_places_after_quoted :
    let source := "ü 'a\nbé' x"
    let before : List Token := [⟨"ü", ⟨1, 1⟩⟩, ⟨" ", ⟨1, 3⟩⟩, ⟨"'a\nbé'", ⟨1, 4⟩⟩, ⟨" ", ⟨2, 5⟩⟩]
    let t : Token := ⟨"x", ⟨2, 6⟩⟩
    tokenize source = before ++ [t] ∧
      ∃ lines line : String, "ü 'a\nbé' " = lines ++ line ∧ t.position.Past lines line ∧
        6 = "ü 'a\nbé' ".utf8ByteSize - lines.utf8ByteSize + 1 ∧ t.Fills "ü 'a\nbé' " source := by
  intro source before t
  have tokens : tokenize source = before ++ [t] := by decide +kernel
  refine ⟨tokens, ?_⟩
  obtain ⟨read, lines, line, joined, whole, past, -, column, fills⟩ :=
    (tokenize_places source).2.2 before [] t tokens
  have reads : read = "ü 'a\nbé' " := joined.trans (by decide +kernel)
  subst reads
  exact ⟨lines, line, whole, past, column, fills⟩

end Inlay
