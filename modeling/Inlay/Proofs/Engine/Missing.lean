import Inlay.Engine.Basic
import Inlay.Proofs.Evaluation.Dependence
import Inlay.Proofs.Text.ByteOrder

/-!
# The names that a template lists and those that a context lacks

A path is a list of segments where a term is evaluated, and a dotted name where a template lists it
or an engine reports it missing. Between the two it is put together with points and cut at the
points again, and this loses nothing in a term that was read from a source: there every reference
is `Term.Unambiguous`, be its name one with several points in a row.

So `Template.variables_listed` can speak of the paths that a template reads. It lists each of them
once, in the order of the bytes of their names, and nothing else; and what an engine reports missing
are those among them that evaluation finds undefined.
-/

namespace Inlay

/-- Whether the path of a reference is its dotted name cut at the points. -/
def Term.Unambiguous : Term → Prop
  | reference path => segments (dotted path) = path
  | _ => True

namespace Template

/-- No path in a template is lost when it is put together and cut again. -/
theorem everywhere_unambiguous (template : Template) :
    template.term.Everywhere Term.Unambiguous := by
  apply Grammar.everywhere_of_spelled_source _ (source_of_parse template.parsed)
  intro t _ spelled
  cases t with
  | reference path => exact spelled.named.segments_dotted
  | _ => trivial

/-- What is missing of a template that is stored are the paths that it reads and that lead to
undefined. -/
theorem mem_missingVariables {template : Template} {engine : Engine} {name : String}
    (stored : engine.template? name = some template) (context : Context) {listed : String} :
    listed ∈ engine.missingVariables name context ↔
      ∃ path, template.term.Reads path ∧ dotted path = listed ∧
        context.resolve path = .undefined := by
  simp only [Engine.missingVariables, stored, List.mem_filter, variableNames,
    Term.mem_variableNames, Value.isUndefined_iff]
  constructor
  · rintro ⟨⟨path, reads, rfl⟩, missing⟩
    rw [template.segments_dotted_of_reads reads] at missing
    exact ⟨path, reads, rfl, missing⟩
  · rintro ⟨path, reads, rfl, missing⟩
    rw [template.segments_dotted_of_reads reads]
    exact ⟨⟨path, reads, rfl⟩, missing⟩

/-- A template lists the dotted names of the paths that it reads, each once and in ascending order
of their bytes. Everywhere in it a path is its dotted name cut at the points, and of the names that
it lists an engine that stores it reports as missing those whose paths lead to undefined in a
context, in the same order. -/
theorem variables_listed (template : Template) :
    (template.variableNames.Pairwise fun first second => utf8 first < utf8 second) ∧
    (∀ name, name ∈ template.variableNames ↔
      ∃ path, template.term.Reads path ∧ dotted path = name) ∧
    template.term.Everywhere Term.Unambiguous ∧
    ∀ (engine : Engine) (name : String) (context : Context),
      engine.template? name = some template →
      (engine.missingVariables name context).Sublist template.variableNames ∧
      ∀ listed, listed ∈ engine.missingVariables name context ↔
        ∃ path, template.term.Reads path ∧ dotted path = listed ∧
          context.resolve path = .undefined := by
  refine ⟨template.term.pairwise_variableNames.imp utf8_lt_utf8, fun name => Term.mem_variableNames,
    template.everywhere_unambiguous, ?_⟩
  intro engine name context stored
  refine ⟨?_, fun listed => mem_missingVariables stored context⟩
  rw [Engine.missingVariables, stored]
  exact List.filter_sublist

/-- Two points in a row stand around an empty key, and a context that has it does not lack the
name. -/
theorem variables_listed_points_in_a_row :
    ∃ (template : Template) (engine : Engine), template.source = "user..name + count" ∧
      engine.template? "total" = some template ∧
      template.variableNames = ["count", "user..name"] ∧
      ∀ context : Context,
        context = .ofList [("user", .object (.ofList
          [("", .object (.ofList [("name", .string "Ann")]))]))] →
        "count" ∈ engine.missingVariables "total" context ∧
          "user..name" ∉ engine.missingVariables "total" context := by
  have tokens : tokenize "user..name + count" =
      [⟨"user..name", ⟨1, 1⟩⟩, ⟨" ", ⟨1, 11⟩⟩, ⟨"+", ⟨1, 12⟩⟩, ⟨" ", ⟨1, 13⟩⟩,
        ⟨"count", ⟨1, 14⟩⟩] := by decide +kernel
  have parsed : parse .expression (tokenize "user..name + count") =
      .ok (.expression (some (.binary .addition (.reference ["user", "", "name"])
        (.reference ["count"])))) := by
    rw [tokens]
    rfl
  have listed : variableNames ⟨_, _, _, parsed⟩ = ["count", "user..name"] := by
    apply Term.variableNames_of_gather
    · dsimp only
      decide +kernel
    · decide +kernel
  let engine : Engine := ⟨.put .empty "total" ⟨_, _, _, parsed⟩, .empty⟩
  have stored : engine.template? "total" = some ⟨_, _, _, parsed⟩ := by
    rw [Engine.template?, Entries.find?_put, if_pos rfl]
  refine ⟨_, engine, rfl, stored, listed, ?_⟩
  rintro context rfl
  obtain ⟨-, -, -, missing⟩ := variables_listed ⟨_, _, _, parsed⟩
  obtain ⟨-, missing⟩ := missing engine "total" _ stored
  refine ⟨(missing "count").mpr ⟨["count"], ?_, rfl, rfl⟩, fun mem => ?_⟩
  · exact .statement (.right nofun .reference)
  · obtain ⟨path, reads, dots, lacks⟩ := (missing "user..name").mp mem
    have cut := segments_dotted_of_reads _ reads
    rw [dots] at cut
    subst cut
    cases lacks

end Template

end Inlay
