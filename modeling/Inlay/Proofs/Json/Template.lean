import Inlay.Json.Template
import Inlay.Proofs.Grammar.Acceptance
import Inlay.Proofs.Json.Term

/-!
# Templates written and read again

A template is written without its term, and reading it reads its source anew. So a document with a
source is a template exactly where the source compiles, with the term that it compiles to, and
otherwise it is refused for what the source is refused for. A template that is written and read
again is the same one whatever numbers its term holds, though the term by itself may have no
document to be read from.
-/

namespace Inlay

namespace Term

/-- A term that can be written is equal to itself, as one that holds what is not a number is not. -/
theorem equals_self_of_isFinite {t : Term} (finite : t.Everywhere IsFinite) :
    t.equals t = true := by
  apply equals_self _ finite
  rintro x (isFinite : x.isFinite = true)
  rw [Binary64.equals_self_iff]
  rintro rfl
  cases isFinite

end Term

namespace Parse.Mode

theorem ofJson?_toJson (mode : Parse.Mode) : ofJson? mode.toJson = some mode := by
  cases mode <;> rfl

end Parse.Mode

namespace Template

/-- The mode that the members of an object name, if they name one: an expression is meant where
nothing is said of a mode. -/
def modeOf? (members : Entries Json none) : Option Parse.Mode :=
  match members.find? "mode" with
  | none => some .expression
  | some document => Parse.Mode.ofJson? document

variable {members : Entries Json none} {source : String} {mode : Parse.Mode}

/-- An object with a source and a mode is what the source compiles to. -/
theorem ofJson_object (hasSource : members.find? "source" = some (.string source))
    (hasMode : modeOf? members = some mode) :
    ofJson (.object members) = (compile mode source).mapError .source := by
  rw [ofJson, hasSource]
  simp only [ofParts, Json.string?]
  rw [modeOf?] at hasMode
  cases named : members.find? "mode" with
  | none =>
    rw [named] at hasMode
    cases hasMode
    rfl
  | some document =>
    rw [named] at hasMode
    simp only [Option.getD_some, hasMode]

/-- A template compiles to itself. -/
theorem compile_self (template : Template) :
    compile template.mode template.source = .ok template :=
  compile_of_parse template.parsed

theorem ofJson_toJson (template : Template) : ofJson template.toJson = .ok template := by
  have hasSource : (Entries.ofList [("source", Json.string template.source),
      ("mode", template.mode.toJson)]).find? "source" = some (.string template.source) := by
    simp [Entries.ofList, Entries.find?_put]
  have hasMode : modeOf? (.ofList [("source", .string template.source),
      ("mode", template.mode.toJson)]) = some template.mode := by
    simp [modeOf?, Entries.ofList, Entries.find?_put, Parse.Mode.ofJson?_toJson]
  rw [toJson, Json.record, ofJson_object hasSource hasMode, compile_self]
  rfl

/-- A template is equal to itself: no source spells what is not a number. -/
theorem equals_self (template : Template) : template.equals template = true := by
  have term := Grammar.equals_self_of_source (source_of_parse template.parsed)
  rw [equals, term, beq_self_eq_true, beq_self_eq_true]
  rfl

/-- A term is read back from its document as itself, or not at all if a number in it is not finite.
A template is always read back as itself. An object with a source, and with a mode or none, is a
template exactly where the source compiles in that mode or as an expression, and then the one that
it compiles to; otherwise it is refused with the words of the refusal of the source. Whatever a
template was made from, its term is what its source is read as. -/
theorem rebuilt_from_document :
    (∀ t u : Term, Term.ofJson? t.toJson = some u ↔ u = t ∧ t.Everywhere Term.IsFinite) ∧
    (∀ t : Term, t.Everywhere Term.IsFinite → t.equals t = true) ∧
    (∀ template : Template,
      ofJson template.toJson = .ok template ∧ template.equals template = true) ∧
    (∀ (members : Entries Json none) (source : String) (mode : Parse.Mode),
      members.find? "source" = some (.string source) → modeOf? members = some mode →
      (∀ template, ofJson (.object members) = .ok template ↔ compile mode source = .ok template) ∧
      ∀ error, compile mode source = .error error →
        ofJson (.object members) = .error (.source error) ∧
        (TemplateFault.source error).message? =
          some ("Failed to parse template: " ++ (Error.parse error).message)) ∧
    ∀ template : Template,
      parse template.mode (tokenize template.source) = .ok template.term := by
  refine ⟨Term.yields_ofJson?, fun t => Term.equals_self_of_isFinite,
    fun template => ⟨template.ofJson_toJson, template.equals_self⟩, ?_, Template.parsed⟩
  intro members source mode hasSource hasMode
  rw [ofJson_object hasSource hasMode]
  refine ⟨?_, ?_⟩
  · intro template
    cases compile mode source <;> simp [Except.mapError]
  · intro error refused
    rw [refused]
    exact ⟨rfl, rfl⟩

/-- Where no mode is named the source is an expression; a block that lacks an operand is refused
where text is meant; and infinity has no document. -/
theorem rebuilt_from_document_unnamed :
    ∃ plain text : Entries Json none,
      plain = .ofList [("source", .string "name")] ∧ modeOf? plain = some .expression ∧
      text = .ofList [("source", .string "\x7b\x7b 1 +"), ("mode", .string "Concat")] ∧
      modeOf? text = some .concat ∧
      (∃ template, ofJson (.object plain) = .ok template ∧
        template.term = .expression (some (.reference ["name"]))) ∧
      ofJson (.object text) = .error (.source ⟨⟨1, 6⟩, .missingRightOperand "+"⟩) ∧
      (∀ u, Term.ofJson? (Term.number (.infinite false)).toJson ≠ some u) := by
  obtain ⟨terms, -, -, objects, -⟩ := rebuilt_from_document
  have word : tokenize "name" = [⟨"name", ⟨1, 1⟩⟩] := by decide +kernel
  have read : parse .expression (tokenize "name") =
      .ok (.expression (some (.reference ["name"]))) := by
    rw [word]
    rfl
  have block : tokenize "\x7b\x7b 1 +" =
      [⟨"\x7b\x7b", ⟨1, 1⟩⟩, ⟨" ", ⟨1, 3⟩⟩, ⟨"1", ⟨1, 4⟩⟩, ⟨" ", ⟨1, 5⟩⟩, ⟨"+", ⟨1, 6⟩⟩] := by
    decide +kernel
  have refused : parse .concat (tokenize "\x7b\x7b 1 +") =
      .error ⟨⟨1, 6⟩, .missingRightOperand "+"⟩ := by
    rw [block]
    rfl
  refine ⟨_, _, rfl, rfl, rfl, rfl, ⟨⟨_, _, _, read⟩, ?_, rfl⟩, ?_, ?_⟩
  · exact ((objects _ "name" .expression rfl rfl).1 _).mpr (compile_of_parse read)
  · exact ((objects _ "\x7b\x7b 1 +" .concat rfl rfl).2 _ (compile_of_refused refused)).1
  · intro u found
    have finite := ((terms _ u).mp found).2
    cases finite

end Template

end Inlay
