import Inlay.Proofs.Evaluation.Recursive
import Inlay.Proofs.Grammar.Blocks
import Inlay.Proofs.Token.Texts

/-!
# What text evaluates to

Text evaluates to the texts of its parts put together, each part evaluated as if it stood alone, and
fails as the first of its parts that fails. A source in which no block opens is its own value.
-/

namespace Inlay

open Parse (blockStart)

namespace Term

variable (context : Context) (methods : Methods)

/-- What a part of a text comes to inside the text. -/
def rendered (part : Term) : Except EvalError String :=
  (part.evaluate context methods).result.map Value.splicedText

theorem rendered_eq_traced (part : Term) :
    part.rendered context methods =
      (traced context methods part).result.map Value.splicedText := by
  rw [rendered, evaluate_result]

/-- Literal text comes to itself. -/
theorem rendered_string (s : String) : (string s).rendered context methods = .ok s := by
  rw [rendered_eq_traced, traced]
  rfl

/-- Parts come to what each of them comes to, put together up to the first failure. -/
theorem tracedParts_result (parts : List Term) :
    (tracedParts context methods parts).result =
      (parts.mapM (rendered context methods)).map String.join := by
  induction parts with
  | nil => rfl
  | cons part parts ih =>
    rw [List.mapM_cons, rendered_eq_traced, tracedParts, Traced.result_andThen]
    cases (traced context methods part).result with
    | error error => rfl
    | ok v =>
      have rest : ((tracedParts context methods parts).map (v.splicedText ++ ·)).result =
          (parts.mapM (rendered context methods)).map fun texts =>
            String.join (v.splicedText :: texts) := by
        rw [Traced.result_map, ih]
        cases parts.mapM (rendered context methods) with
        | error error => rfl
        | ok texts => exact congrArg Except.ok String.join_cons.symm
      refine Eq.trans rest ?_
      cases parts.mapM (rendered context methods) <;> rfl

/-- Text evaluates to its parts put together. -/
theorem evaluate_concat_result (parts : List Term) :
    ((concat parts).evaluate context methods).result =
      (parts.mapM (rendered context methods)).map fun texts => .string (String.join texts) := by
  rw [evaluate_result, traced, Traced.result_map, tracedParts_result]
  cases parts.mapM (rendered context methods) <;> rfl

/-- Literal texts leave behind no more than themselves. -/
theorem tracedParts_strings (texts : List String) :
    tracedParts context methods (texts.map string) = .value (String.join texts) := by
  induction texts with
  | nil => rfl
  | cons text texts ih =>
    rw [List.map_cons, tracedParts, ih, traced, String.join_cons]
    rfl

/-- Text of literal parts evaluates to their texts put together, without any call. -/
theorem evaluate_concat_strings (texts : List String) :
    (concat (texts.map string)).evaluate context methods =
      ⟨.ok (.string (String.join texts)), []⟩ := by
  rw [evaluate, run_nil, Traced.outcome_toRun, traced, tracedParts_strings]
  rfl

end Term

open Term Grammar

/-- A source in which no block opens is read as text that evaluates to the source. -/
theorem parse_concat_of_literals {source : String}
    (literal : ∀ t ∈ tokenize source, t.text ≠ blockStart) :
    ∃ t, parse .concat (tokenize source) = .ok t ∧
      ∀ context methods, t.evaluate context methods = ⟨.ok (.string source), []⟩ := by
  refine ⟨_, parse_concat_iff.mpr ⟨_, rfl, text_of_literals literal⟩, ?_⟩
  intro context methods
  have texts : (tokenize source).map (fun t => string t.text) =
      ((tokenize source).map Token.text).map string := List.map_map.symm
  rw [texts, evaluate_concat_strings, join_tokenize]

/-- Reading as text accepts literal tokens and blocks one after the other, a block being accepted
exactly when its inside is accepted as an expression, and yields the literal tokens' texts and the
terms that the insides are. The value is what these come to put together, or the first failure among
them. So a source without blocks is its own value, and text after text has the parts of both. -/
theorem parse_concat_blocks :
    (∀ (ts : List Token) (t : Term), parse .concat ts = .ok t ↔
      ∃ (pieces : List (List Token)) (parts : List Term), List.Forall₂ Piece pieces parts ∧
        ts = pieces.flatten ∧ t = .concat parts) ∧
    (∀ (parts : List Term) (context : Context) (methods : Methods),
      ((concat parts).evaluate context methods).result =
        (parts.mapM (rendered context methods)).map fun texts => .string (String.join texts)) ∧
    (∀ (s : String) (context : Context) (methods : Methods),
      (string s).rendered context methods = .ok s) ∧
    (∀ source : String, (∀ t ∈ tokenize source, t.text ≠ blockStart) →
      ∃ t, parse .concat (tokenize source) = .ok t ∧
        ∀ context methods, t.evaluate context methods = ⟨.ok (.string source), []⟩) ∧
    ∀ (ts us : List Token) (parts others : List Term), parse .concat ts = .ok (.concat parts) →
      parse .concat us = .ok (.concat others) →
      parse .concat (ts ++ us) = .ok (.concat (parts ++ others)) := by
  refine ⟨?_, ?_, ?_, ?_, ?_⟩
  · intro ts t
    rw [parse_concat_iff]
    constructor
    · rintro ⟨parts, rfl, formed⟩
      obtain ⟨pieces, each, whole⟩ := text_iff_pieces.mp formed
      exact ⟨pieces, parts, each, whole, rfl⟩
    · rintro ⟨pieces, parts, each, whole, rfl⟩
      exact ⟨parts, rfl, text_iff_pieces.mpr ⟨pieces, each, whole⟩⟩
  · intro parts context methods
    exact evaluate_concat_result context methods parts
  · intro s context methods
    exact rendered_string context methods s
  · intro source literal
    exact parse_concat_of_literals literal
  · intro ts us parts others first second
    obtain ⟨_, ⟨⟩, formed⟩ := parse_concat_iff.mp first
    obtain ⟨_, ⟨⟩, formed'⟩ := parse_concat_iff.mp second
    exact parse_concat_iff.mpr ⟨_, rfl, formed.append formed'⟩

/-- A lone apostrophe is literal, and a block may follow literal text. -/
theorem parse_concat_blocks_greeting :
    (∃ t, parse .concat (tokenize "it's me") = .ok t ∧
      ∀ context methods, t.evaluate context methods = ⟨.ok (.string "it's me"), []⟩) ∧
    parse .concat ([⟨"Hi", .start⟩] ++
        [⟨blockStart, .start⟩, ⟨"name", .start⟩, ⟨Parse.blockEnd, .start⟩]) =
      .ok (.concat ([.string "Hi"] ++ [.expression (some (.reference ["name"]))])) :=
  ⟨parse_concat_blocks.2.2.2.1 "it's me" (by decide +kernel),
    parse_concat_blocks.2.2.2.2 _ _ _ _ rfl rfl⟩

end Inlay
