import Inlay.Proofs.Grammar.Soundness
import Inlay.Proofs.Parse.Viable
import Inlay.Proofs.Token.Offset

/-!
# Where a refusal points

A refusal of a source points at one token, or past the end. Which token it is and what the fault
says of it is `ParseError.Names`, token by token: an operator without a left operand is named
itself, one without a right operand too, and only blanks follow it; a token that is no operand is
named where an operator waits for one before it.

The place of the token is that of its first byte, and `parse_error_placed` says that no other byte
of the source has this place, so that the line and the column of a refusal are enough to find it.
-/

namespace Inlay

open Parse Grammar

/-- What a refusal says of one token among others: where it stands, and a fault that carries its
text. -/
inductive ParseError.Names (before after : List Token) (t : Token) : ParseError → Prop
  | unexpected : Names before after t ⟨t.position, .unexpectedToken t.text⟩
  | rightOperand {earlier between : List Token} {op : Operator} {sign : Token} :
      before = earlier ++ sign :: between → sign.text = op.symbol → Blanks between →
      Names before after t ⟨t.position, .unexpectedRightOperand t.text⟩
  | leftOperand {op : Operator} : t.text = op.symbol →
      Names before after t ⟨t.position, .missingLeftOperand op.symbol⟩
  | waiting {op : Operator} : t.text = op.symbol → Blanks after →
      Names before after t ⟨t.position, .missingRightOperand op.symbol⟩

/-- A refusal that names a token points at it. -/
theorem ParseError.Names.position_eq {before after : List Token} {t : Token} {e : ParseError}
    (names : e.Names before after t) : e.position = t.position := by
  cases names <;> rfl

/-- A refusal that names a token does not say that the source ends too early. -/
theorem ParseError.Names.fault_ne {before after : List Token} {t : Token} {e : ParseError}
    (names : e.Names before after t) : e.fault ≠ .unexpectedEnd := by
  cases names <;> exact nofun

/-- A token at which reading stops is named. -/
theorem Parse.StopsAt.names {mode : Mode} {before : List Token} {t : Token} {e : ParseError}
    (stops : StopsAt mode before t e) (after : List Token) : e.Names before after t := by
  obtain ⟨s, reached, refused⟩ := stops
  obtain ⟨first, own, parts, -, reads⟩ := State.reads_of_reaches reached
  cases State.refuses_of_step refused with
  | unexpected => exact .unexpected
  | @rightOperand op sign waits =>
    rw [waits] at reads
    obtain ⟨earlier, between, rfl, symbol, blanks, -⟩ := reads
    rw [← List.append_assoc] at parts
    exact .rightOperand parts symbol blanks
  | leftOperand symbol =>
    rw [symbol]
    exact .leftOperand symbol

/-- A refusal at the end either names the operator that waits there or points past the end. -/
theorem names_of_finish {mode : Mode} {ts : List Token} {s : State} {e : ParseError}
    {stop : Position} (reached : Reaches (.start mode) ts s) (refused : s.finish stop = .error e) :
    e = ⟨stop, .unexpectedEnd⟩ ∨
      ∃ before t after, ts = before ++ t :: after ∧ e.Names before after t := by
  obtain ⟨first, own, parts, -, reads⟩ := State.reads_of_reaches reached
  unfold State.finish at refused
  split at refused
  · rename_i op sign waits
    rw [waits] at reads
    obtain ⟨earlier, between, rfl, symbol, blanks, -⟩ := reads
    rw [← List.append_assoc] at parts
    cases refused
    refine .inr ⟨first ++ earlier, sign, between, parts, ?_⟩
    rw [symbol]
    exact .waiting symbol blanks
  · cases refused
  · cases refused
    exact .inl rfl

/-- Tokens that are refused are refused at one of them or past the last. -/
theorem names_of_parse {mode : Mode} {ts : List Token} {e : ParseError}
    (refused : parse mode ts = .error e) :
    e = ⟨stopOf ts, .unexpectedEnd⟩ ∨
      ∃ before t after, ts = before ++ t :: after ∧ e.Names before after t := by
  rcases stopsAt_or_finish_of_parse refused with stops | finished
  · obtain ⟨before, t, after, whole, stops⟩ := stops
    exact .inr ⟨before, t, after, whole, stops.names after⟩
  · obtain ⟨s, reached, finished⟩ := finished
    exact names_of_finish reached finished

/-! ## Tokens of a source -/

/-- The place past the last token is the place past the source. -/
theorem stopOf_tokenize (source : String) :
    stopOf (tokenize source) = Position.start.after source.toList := by
  rcases List.eq_nil_or_concat (tokenize source) with none | ⟨before, last, parts⟩
  · have empty := join_tokenize source
    rw [none] at empty
    rw [none, ← empty]
    rfl
  · rw [List.concat_eq_append] at parts
    have joined := join_tokenize source
    rw [parts, List.map_append, String.join_append] at joined
    rw [parts, stopOf, List.getLast?_concat, Option.map_some, Option.getD_some, Token.stop,
      position_of_tokenize parts, ← Position.after_append, ← String.toList_append, ← joined]
    simp

/-- A token of a source stands at the place of the byte that follows the tokens before it, and no
other byte has this place. -/
theorem offset_of_tokenize {source : String} {before after : List Token} {t : Token}
    (found : tokenize source = before ++ t :: after) {offset : Nat}
    (le : offset ≤ (utf8 source).length) :
    Position.ofByte (utf8 source) offset = t.position ↔
      offset = (String.join (before.map Token.text)).utf8ByteSize := by
  have joined := join_tokenize source
  rw [found, List.map_append, String.join_append] at joined
  have here := position_of_tokenize found
  rw [Position.after_start_eq_ofByte _ (String.join ((t :: after).map Token.text)), joined] at here
  have within : (String.join (before.map Token.text)).utf8ByteSize ≤ (utf8 source).length := by
    rw [length_utf8, ← joined, String.utf8ByteSize_append]
    exact Nat.le_add_right _ _
  rw [here]
  constructor
  · intro same
    exact Position.ofByte_injective le within same
  · intro same
    rw [same]

/-- A refusal of a source is of one of two sorts. That the source ends too early is said of the
place past all of it. Every other refusal names a token of the source and has the place of its first
byte, which no other byte of the source has. -/
theorem parse_error_placed {source : String} {mode : Mode} {e : ParseError}
    (refused : parse mode (tokenize source) = .error e) :
    (e.fault = .unexpectedEnd →
      e.position = .ofByte (utf8 source) (utf8 source).length) ∧
    (e.fault ≠ .unexpectedEnd → ∃ before t after, tokenize source = before ++ t :: after ∧
      e.Names before after t ∧
      (String.join (before.map Token.text)).utf8ByteSize < (utf8 source).length ∧
      ∀ offset ≤ (utf8 source).length, Position.ofByte (utf8 source) offset = e.position ↔
        offset = (String.join (before.map Token.text)).utf8ByteSize) := by
  rcases names_of_parse refused with rfl | ⟨before, t, after, found, names⟩
  · refine ⟨?_, fun other => absurd rfl other⟩
    intro _
    have past := Position.after_start_eq_ofByte source ""
    rw [String.append_empty, ← length_utf8] at past
    rw [stopOf_tokenize, past]
  · refine ⟨fun ends => absurd ends names.fault_ne, ?_⟩
    intro _
    refine ⟨before, t, after, found, names, ?_, ?_⟩
    · have joined := congrArg String.utf8ByteSize (join_tokenize source)
      have mem : t ∈ tokenize source := by
        rw [found]
        exact List.mem_append_right before List.mem_cons_self
      have filled : t.text.utf8ByteSize ≠ 0 := by
        rw [Ne, String.utf8ByteSize_eq_zero_iff]
        exact text_ne_empty_of_mem_tokenize mem
      rw [found, List.map_append, List.map_cons, String.join_append, String.join_cons,
        String.utf8ByteSize_append, String.utf8ByteSize_append] at joined
      rw [length_utf8]
      omega
    · intro offset le
      rw [names.position_eq]
      exact offset_of_tokenize found le

/-- After a quoted run that goes over two lines an argument is missing: at the parenthesis, which is
the tenth byte, or at the end. -/
theorem parse_error_placed_missing_argument :
    let source := "f('é\n', )"
    let e : ParseError := ⟨⟨2, 4⟩, .unexpectedToken ")"⟩
    parse .expression (tokenize source) = .error e ∧
      (∃ before t after, tokenize source = before ++ t :: after ∧ e.Names before after t ∧
        ∀ offset ≤ (utf8 source).length, Position.ofByte (utf8 source) offset = ⟨2, 4⟩ ↔
          offset = 9) ∧
      parse .expression (tokenize "f('é\n', ") = .error ⟨⟨2, 4⟩, .unexpectedEnd⟩ ∧
      Position.ofByte (utf8 "f('é\n', ") 9 = ⟨2, 4⟩ := by
  intro source e
  have front : tokenize "f('é\n', " = [⟨"f", ⟨1, 1⟩⟩, ⟨"(", ⟨1, 2⟩⟩, ⟨"'é\n'", ⟨1, 3⟩⟩,
      ⟨",", ⟨2, 2⟩⟩, ⟨" ", ⟨2, 3⟩⟩] := by decide +kernel
  have whole : tokenize source = [⟨"f", ⟨1, 1⟩⟩, ⟨"(", ⟨1, 2⟩⟩, ⟨"'é\n'", ⟨1, 3⟩⟩,
      ⟨",", ⟨2, 2⟩⟩, ⟨" ", ⟨2, 3⟩⟩, ⟨")", ⟨2, 4⟩⟩] := by decide +kernel
  have refused : parse .expression (tokenize source) = .error e := by
    rw [whole]
    rfl
  have ended : parse .expression (tokenize "f('é\n', ") = .error ⟨⟨2, 4⟩, .unexpectedEnd⟩ := by
    rw [front]
    rfl
  obtain ⟨before, t, after, found, names, -, only⟩ := (parse_error_placed refused).2 nofun
  have tenth : 9 = (String.join (before.map Token.text)).utf8ByteSize :=
    (only 9 (by decide +kernel)).mp (by decide +kernel)
  rw [← tenth] at only
  exact ⟨refused, ⟨before, t, after, found, names, only⟩, ended,
    ((parse_error_placed ended).1 rfl).symm⟩

end Inlay
