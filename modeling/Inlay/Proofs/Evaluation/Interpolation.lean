import Inlay.Proofs.Evaluation.Text
import Inlay.Proofs.Parse.Unplaced
import Inlay.Proofs.Token.Block
import Inlay.Template

/-!
# A name set into text

Text with one name set into it evaluates to the text with the value of the name in its place, unless
the block cannot be seen. A source is cut into tokens without regard to how it will be read, so that
a quote which the text before the block leaves open goes on to the next that is the same, and if
this stands after the block, the block is inside the quotes and literal. `concat_interpolates` says
that nothing else in the surrounding text matters: not its other quotes, its operators or its
blanks.

That the block is seen when no such quote occurs follows from the pieces of the texts around it
(`LeftmostSplit.append`). For the converse, two braces stand nowhere in the source but at the ends
of the block, and a token of them would leave the text before it to itself.
-/

namespace Inlay

open Delimiter
open Parse (blockStart blockEnd)

/-! ## Values of parts -/

namespace Term

variable {context : Context} {methods : Methods}

/-- Literal texts before other parts are put before what these leave behind. -/
theorem tracedParts_strings_append (texts : List String) {parts : List Term} {text : String}
    (later : tracedParts context methods parts = .value text) :
    tracedParts context methods (texts.map string ++ parts) =
      .value (String.join texts ++ text) := by
  induction texts with
  | nil => simpa using later
  | cons first texts ih =>
    rw [List.map_cons, List.cons_append, tracedParts, ih, traced, String.join_cons,
      String.append_assoc]
    rfl

/-- A reference to a name without points is the value that the context has under the name. -/
theorem traced_ofName {name : String} {v : Value} (undotted : '.' ∉ name.toList)
    (bound : context.find? name = some v) :
    traced context methods (ofName name) = .value v := by
  have path : segments name = [name] := by
    rw [segments, List.splitOn_eq_singleton undotted]
    simp
  rw [ofName, path, traced, Context.resolve, bound]
  rfl

/-- Text around one part that has a value. -/
theorem evaluate_concat_around (texts texts' : List String) {part : Term} {v : Value}
    (value : traced context methods part = .value v) :
    (concat (texts.map string ++ (part :: texts'.map string))).evaluate context methods =
      ⟨.ok (.string (String.join texts ++ (v.splicedText ++ String.join texts'))), []⟩ := by
  have later : tracedParts context methods (part :: texts'.map string) =
      .value (v.splicedText ++ String.join texts') := by
    rw [tracedParts, value, tracedParts_strings]
    rfl
  rw [evaluate, run_nil, Traced.outcome_toRun, traced, tracedParts_strings_append texts later]
  rfl

end Term

/-! ## The block in the source -/

/-- The source of a name set into text. -/
def interpolated (before name after : String) : String :=
  before ++ (blockStart ++ " " ++ name ++ " " ++ blockEnd) ++ after

theorem toList_interpolated (before name after : String) :
    (interpolated before name after).toList =
      before.toList ++ (((blockCuts name.toList).map Cut.text).flatten ++ after.toList) := by
  simp [interpolated, blockCuts, Cut.text]

/-- If a token of the source opens a block, it is the one that was set in, and no quote that is left
open before it occurs after it. -/
theorem closed_of_blockStart {before name after : String} (isName : IsName name)
    (apart : before.toList.getLast? ≠ some '\x7b')
    (none : ¬ blockStart.toList <:+: before.toList) (none' : ¬ blockStart.toList <:+: after.toList)
    {t : Token} (mem : t ∈ tokenize (interpolated before name after))
    (opens : t.text = blockStart) :
    ∀ c ∈ openQuotes before.toList, c ∉ after.toList := by
  obtain ⟨cuts, split⟩ := LeftmostSplit.exists_cuts (interpolated before name after).toList
  have piece : t.unplaced ∈ cuts.map Cut.token := by
    rw [← map_unplaced_tokenize split]
    exact List.mem_map_of_mem mem
  obtain ⟨cut, mem, same⟩ := List.mem_map.mp piece
  have text : cut.text = blockStart.toList := by
    have text := congrArg (·.text.toList) same
    simpa [Cut.token, opens] using text
  obtain ⟨front, later, rfl⟩ := List.append_of_mem mem
  have whole := split.flatten_eq
  rw [toList_interpolated, List.map_append, List.flatten_append, List.map_cons, List.flatten_cons,
    text] at whole
  have first : (front.map Cut.text).flatten = before.toList :=
    eq_of_append_pair whole none apart (unbraced_block isName.1 none')
  have rest := split.closed
  rw [first] at rest whole
  intro c opened inside
  apply rest c opened
  rw [List.map_cons, List.flatten_cons, text, List.append_cancel_left whole]
  exact List.mem_append_right _ inside

/-- Text that does not hold the two braces has no token that opens a block. -/
theorem literal_of_unbraced {source : String} (none : ¬ blockStart.toList <:+: source.toList) :
    ∀ t ∈ tokenize source, t.text ≠ blockStart := by
  intro t mem opens
  obtain ⟨front, back, parts⟩ := List.append_of_mem mem
  have joined := congrArg String.toList (join_tokenize source)
  rw [parts, List.map_append, List.map_cons, String.join_append, String.join_cons, opens] at joined
  apply none
  rw [← joined, String.toList_append, String.toList_append]
  exact List.infix_append' _ _ _

namespace Grammar

/-- The block is one part of text. -/
theorem text_block {name : String} (isName : IsName name) :
    Text ((blockCuts name.toList).map Cut.token) [.expression (some (.ofName name))] := by
  have space : Blanks [⟨" ", .start⟩] := blanks_singleton (by decide)
  have operand : Operand ([⟨" ", .start⟩] ++ [⟨name, .start⟩]) (.ofName name) :=
    .name space isName
  have inner : Expression (([] ++ ([⟨" ", .start⟩] ++ [⟨name, .start⟩])) ++ [⟨" ", .start⟩])
      (some (.ofName name)) :=
    (Expression.operand (.empty blanks_nil) operand).blank (by decide)
  have formed : Text ([] ++ ⟨blockStart, .start⟩ :: (_ ++ [⟨blockEnd, .start⟩])) ([] ++ [_]) :=
    .block .empty rfl inner rfl
  simpa [blockCuts, Cut.token, Cut.text] using formed

/-- Text without a block is read as its tokens, wherever they stand. -/
theorem text_of_unbraced {source : String} {cuts : List Cut}
    (split : LeftmostSplit source.toList cuts) (none : ¬ blockStart.toList <:+: source.toList) :
    Text (cuts.map Cut.token) (((tokenize source).map Token.text).map .string) := by
  rw [← map_unplaced_tokenize split]
  have literal : ∀ t ∈ (tokenize source).map Token.unplaced, t.text ≠ blockStart := by
    intro t mem
    obtain ⟨u, listed, rfl⟩ := List.mem_map.mp mem
    exact literal_of_unbraced none u listed
  have formed := text_of_literals literal
  rw [List.map_map] at formed ⊢
  exact formed

end Grammar

open Grammar

/-- Where no quote that is left open before the block occurs after it, the block is read. -/
theorem parse_interpolated {before name after : String} (isName : IsName name)
    (apart : before.toList.getLast? ≠ some '\x7b')
    (none : ¬ blockStart.toList <:+: before.toList) (none' : ¬ blockStart.toList <:+: after.toList)
    (closed : ∀ c ∈ openQuotes before.toList, c ∉ after.toList) :
    parse .concat (tokenize (interpolated before name after)) =
      .ok (.concat (((tokenize before).map Token.text).map .string ++
        (.expression (some (.ofName name)) :: ((tokenize after).map Token.text).map .string))) := by
  obtain ⟨cuts, split⟩ := LeftmostSplit.exists_cuts before.toList
  obtain ⟨cuts', split'⟩ := LeftmostSplit.exists_cuts after.toList
  have seen := split'.block isName.1
  have unclosed : ∀ c ∈ openQuotes before.toList,
      c ∉ ((blockCuts name.toList).map Cut.text).flatten ++ after.toList := by
    intro c opened again
    obtain ⟨_, _, _, quote⟩ := (mem_openQuotes_iff split).mp opened
    rcases List.mem_append.mp again with again | again
    · exact notMem_block isName.1 quote again
    · exact closed c opened again
  have brace : ∀ c ∈ (((blockCuts name.toList).map Cut.text).flatten ++ after.toList).head?,
      Text.isBlank c = false ∧ before.toList.getLast? ≠ some c := by
    rintro c ⟨⟩
    exact ⟨by decide, apart⟩
  have whole := split.append seen unclosed (seen.delimited rfl) brace
  rw [← toList_interpolated] at whole
  rw [parse_tokenize_eq_ok_iff whole, parse_concat_iff]
  refine ⟨_, rfl, ?_⟩
  rw [List.map_append, List.map_append]
  exact (text_of_unbraced split none).append
    ((text_block isName).append (text_of_unbraced split' none'))

/-- A name set into text is replaced by its value, and everything around it is literal, exactly when
no quote that is left open before the block occurs after it. Otherwise the block is inside quotes,
and the whole source is literal. It is a template in both cases, and no method is called. -/
theorem concat_interpolates {before name after : String} {context : Context} {v : Value}
    (isName : IsName name) (undotted : '.' ∉ name.toList) (bound : context.find? name = some v)
    (none : ¬ blockStart.toList <:+: before.toList) (none' : ¬ blockStart.toList <:+: after.toList)
    (apart : before.toList.getLast? ≠ some '\x7b') :
    ∃ template, Template.compile .concat (interpolated before name after) = .ok template ∧
      ((∀ c ∈ openQuotes before.toList, c ∉ after.toList) → ∀ methods,
        template.evaluate context methods =
          ⟨.ok (.string (before ++ v.splicedText ++ after)), []⟩) ∧
      ((∃ c ∈ openQuotes before.toList, c ∈ after.toList) → ∀ methods,
        template.evaluate context methods =
          ⟨.ok (.string (interpolated before name after)), []⟩) := by
  by_cases closed : ∀ c ∈ openQuotes before.toList, c ∉ after.toList
  · have parsed := parse_interpolated isName apart none none' closed
    refine ⟨_, Template.compile_of_parse parsed, ?_, ?_⟩
    · intro _ methods
      have part : Term.traced context methods (.expression (some (.ofName name))) = .value v := by
        rw [Term.traced, Term.traced_ofName undotted bound]
      have value := Term.evaluate_concat_around ((tokenize before).map Token.text)
        ((tokenize after).map Token.text) part
      rw [join_tokenize, join_tokenize, ← String.append_assoc] at value
      exact value
    · intro opened
      obtain ⟨c, opened, inside⟩ := opened
      exact absurd inside (closed c opened)
  · have literal : ∀ t ∈ tokenize (interpolated before name after), t.text ≠ blockStart := by
      intro t mem opens
      exact closed (closed_of_blockStart isName apart none none' mem opens)
    obtain ⟨t, parsed, value⟩ := parse_concat_of_literals literal
    refine ⟨_, Template.compile_of_parse parsed, ?_, ?_⟩
    · intro closed'
      exact absurd closed' closed
    · intro _ methods
      exact value context methods

/-- Before the block quotes are closed, and an apostrophe is left open; after it stand other quotes
and operators. -/
theorem concat_interpolates_after_apostrophe :
    let before := "\"Well\", it's "
    let after := "!\" -- he && she"
    let context : Context := .ofList [("name", .string "Ann")]
    IsName "name" ∧ '.' ∉ "name".toList ∧ context.find? "name" = some (.string "Ann") ∧
      openQuotes before.toList = ['\''] ∧ '\'' ∉ after.toList ∧
      ∃ template, Template.compile .concat (before ++ "\x7b\x7b name \x7d\x7d" ++ after) =
          .ok template ∧
        ∀ methods, template.evaluate context methods =
          ⟨.ok (.string (before ++ "Ann" ++ after)), []⟩ := by
  intro before after context
  have isName : IsName "name" := ⟨by decide, by decide, by decide⟩
  have bound : context.find? "name" = some (.string "Ann") := rfl
  have opened : openQuotes before.toList = ['\''] := by simp [before, openQuotes, quotes]
  have none : ¬ blockStart.toList <:+: before.toList := by decide +kernel
  have none' : ¬ blockStart.toList <:+: after.toList := by decide +kernel
  obtain ⟨template, compiled, value, -⟩ :=
    concat_interpolates isName (by decide) bound none none' (by decide)
  have other : '\'' ∉ after.toList := by decide +kernel
  have closed : ∀ c ∈ openQuotes before.toList, c ∉ after.toList := by
    rw [opened]
    simpa using other
  exact ⟨isName, by decide, bound, opened, other, template, compiled, value closed⟩

/-- Not all text around a block is literal: two apostrophes with the block between them hide it. -/
theorem not_all_interpolated :
    ¬ ∀ (before name after : String) (context : Context) (v : Value), IsName name →
      '.' ∉ name.toList → context.find? name = some v → ¬ blockStart.toList <:+: before.toList →
      ¬ blockStart.toList <:+: after.toList → before.toList.getLast? ≠ some '\x7b' →
      ∃ template, Template.compile .concat (interpolated before name after) = .ok template ∧
        ∀ methods, template.evaluate context methods =
          ⟨.ok (.string (before ++ v.splicedText ++ after)), []⟩ := by
  intro always
  let context : Context := .ofList [("name", .string "Ann")]
  have isName : IsName "name" := ⟨by decide, by decide, by decide⟩
  have bound : context.find? "name" = some (.string "Ann") := rfl
  have none : ¬ blockStart.toList <:+: "It's ".toList := by decide +kernel
  have none' : ¬ blockStart.toList <:+: "'s turn".toList := by decide +kernel
  obtain ⟨template, compiled, value⟩ :=
    always "It's " "name" "'s turn" context _ isName (by decide) bound none none' (by decide)
  have literal : ∀ t ∈ tokenize (interpolated "It's " "name" "'s turn"), t.text ≠ blockStart := by
    decide +kernel
  obtain ⟨t, parsed, same⟩ := parse_concat_of_literals literal
  cases (Template.compile_of_parse parsed).symm.trans compiled
  have outcomes := (same context .empty).symm.trans (value .empty)
  injection outcomes with results
  injection results with values
  injection values with texts
  have differ : interpolated "It's " "name" "'s turn" ≠ "It's " ++ "Ann" ++ "'s turn" := by
    decide +kernel
  exact differ texts

end Inlay
