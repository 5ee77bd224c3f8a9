import Inlay.Proofs.Token.Place
import Mathlib.Data.List.TakeWhile

/-!
# Places and bytes

A place can be read off the bytes of a source alone: its line counts the line feeds in front of a
byte, and its column counts the bytes since the last of them. `Position.ofByte` says this of every
byte, be it the first of a character or not, and `Position.ofByte_injective` that no two bytes of a
source have the same place. So a place names one byte at most.

No byte of a character other than the line feed looks like one, and therefore the places that
`Position.after` finds by going from character to character are the places of bytes.
-/

namespace Inlay

/-- The bytes of a text in UTF-8. -/
def utf8 (text : String) : List UInt8 :=
  text.toUTF8.data.toList

/-- The byte of a line feed. -/
def lineFeed : UInt8 := 10

theorem utf8_append (first second : String) :
    utf8 (first ++ second) = utf8 first ++ utf8 second := by
  simp [utf8, String.toUTF8_eq_toByteArray]

theorem length_utf8 (text : String) : (utf8 text).length = text.utf8ByteSize := rfl

theorem utf8_eq_flatMap (text : String) :
    utf8 text = text.toList.flatMap String.utf8EncodeChar := by
  have encoded : text.toByteArray = text.toList.utf8Encode := String.utf8Encode_toList.symm
  rw [utf8, String.toUTF8_eq_toByteArray, encoded, List.utf8Encode, List.toList_data_toByteArray]

/-- A byte of a character is a line feed only if the character is one. -/
theorem count_utf8EncodeChar (c : Char) :
    (String.utf8EncodeChar c).count lineFeed = [c].count '\n' := by
  by_cases feed : c = '\n'
  · subst feed
    decide
  · have value : c.val.toNat ≠ 10 := fun same => feed (Char.ext (UInt32.toNat_inj.mp same))
    have none : [c].count '\n' = 0 := List.count_eq_zero.mpr (by simpa [eq_comm] using feed)
    rw [none, List.count_eq_zero]
    unfold String.utf8EncodeChar lineFeed
    dsimp only
    generalize c.val.toNat = v at value
    -- A character of one byte is that byte; all bytes of a longer one are above the line feed.
    split
    · simp [← UInt8.toNat_inj]
      omega
    · split
      · simp [← UInt8.toNat_inj]
        omega
      · split
        · simp [← UInt8.toNat_inj]
          omega
        · simp [← UInt8.toNat_inj]
          omega

/-- The line feeds of a text are those among its bytes. -/
theorem count_utf8 (text : String) : (utf8 text).count lineFeed = text.toList.count '\n' := by
  rw [utf8_eq_flatMap]
  induction text.toList with
  | nil => rfl
  | cons c cs ih =>
    rw [List.flatMap_cons, List.count_append, count_utf8EncodeChar, ih, ← List.count_append,
      List.singleton_append]

namespace Position

/-- The place of a byte of a source, or of the end: the line feeds and the bytes since the last of
them are counted in what stands before it. -/
def ofByte (bytes : List UInt8) (offset : Nat) : Position :=
  let before := bytes.take offset
  ⟨1 + before.count lineFeed, 1 + (before.reverse.takeWhile (· != lineFeed)).length⟩

/-- The bytes between two places of one line make the column of the later one greater. -/
theorem column_lt_of_count_eq (before : List UInt8) {between : List UInt8} (some : between ≠ [])
    (none : lineFeed ∉ between) :
    (before.reverse.takeWhile (· != lineFeed)).length <
      ((before ++ between).reverse.takeWhile (· != lineFeed)).length := by
  have all : ∀ b ∈ between.reverse, (b != lineFeed) = true := by
    intro b mem
    have other : b ≠ lineFeed := ne_of_mem_of_not_mem (List.mem_reverse.mp mem) none
    simpa using other
  have longer := List.length_pos_iff.mpr some
  rw [List.reverse_append, List.takeWhile_append_of_pos all, List.length_append,
    List.length_reverse]
  omega

theorem ofByte_ne_of_lt {bytes : List UInt8} {first second : Nat} (lt : first < second)
    (le : second ≤ bytes.length) : ofByte bytes first ≠ ofByte bytes second := by
  intro same
  obtain ⟨between, parts, some⟩ :
      ∃ between, bytes.take second = bytes.take first ++ between ∧ between ≠ [] := by
    refine ⟨(bytes.drop first).take (second - first), ?_, ?_⟩
    · rw [← List.take_add, Nat.add_sub_cancel' (Nat.le_of_lt lt)]
    · rw [← List.length_pos_iff, List.length_take, List.length_drop]
      omega
  simp only [ofByte, parts, Position.mk.injEq, List.count_append] at same
  have none : lineFeed ∉ between := List.count_eq_zero.mp (by omega)
  have longer := column_lt_of_count_eq (bytes.take first) some none
  omega

/-- No two bytes of a source have the same place. -/
theorem ofByte_injective {bytes : List UInt8} {first second : Nat} (le : first ≤ bytes.length)
    (le' : second ≤ bytes.length) (same : ofByte bytes first = ofByte bytes second) :
    first = second := by
  rcases Nat.lt_trichotomy first second with lt | eq | gt
  · exact absurd same (ofByte_ne_of_lt lt le')
  · exact eq
  · exact absurd same.symm (ofByte_ne_of_lt gt le)

/-- The bytes of a last line are those since the last line feed. -/
theorem Past.takeWhile_utf8 {p : Position} {lines line : String} (past : p.Past lines line) :
    (utf8 (lines ++ line)).reverse.takeWhile (· != lineFeed) = (utf8 line).reverse := by
  have unbroken : ∀ b ∈ (utf8 line).reverse, (b != lineFeed) = true := by
    intro b mem
    have none : lineFeed ∉ utf8 line := by
      rw [← List.count_eq_zero, count_utf8, List.count_eq_zero]
      exact past.unbroken
    have other : b ≠ lineFeed := ne_of_mem_of_not_mem (List.mem_reverse.mp mem) none
    simpa using other
  have stops : (utf8 lines).reverse.takeWhile (· != lineFeed) = [] := by
    rcases past.finished with rfl | ends
    · rfl
    · obtain ⟨front, parts⟩ := List.getLast?_eq_some_iff.mp ends
      have last : utf8 lines = front.flatMap String.utf8EncodeChar ++ [lineFeed] := by
        rw [utf8_eq_flatMap, parts, List.flatMap_append]
        rfl
      simp [last]
  rw [utf8_append, List.reverse_append, List.takeWhile_append_of_pos unbroken, stops,
    List.append_nil]

/-- The place past a text that begins a source is that of the byte that follows the text. -/
theorem after_start_eq_ofByte (read later : String) :
    start.after read.toList = ofByte (utf8 (read ++ later)) read.utf8ByteSize := by
  obtain ⟨lines, line, rfl, past⟩ := past_after_start read
  have front : (utf8 (lines ++ line ++ later)).take (lines ++ line).utf8ByteSize =
      utf8 (lines ++ line) := by
    rw [utf8_append, ← length_utf8, List.take_left]
  rw [ofByte, front, count_utf8, past.takeWhile_utf8, List.length_reverse, length_utf8,
    ← past.line_eq, ← past.column_eq]

end Position

end Inlay
