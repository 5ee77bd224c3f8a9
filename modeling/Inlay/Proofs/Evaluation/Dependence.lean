import Inlay.Proofs.Evaluation.Recursive
import Inlay.Proofs.Grammar.Acceptance
import Inlay.Proofs.Term.Reads
import Inlay.Template

/-!
# What an evaluation depends on

An evaluation sees its context only through the paths that its term reads: two contexts in which
these lead to the same values cannot be told apart, neither by the result nor by the calls that are
made on the way. This holds of every term. Of a term that was read from a source it can be said with
the names that the term lists, because there a path is its dotted name cut at the points.
-/

namespace Inlay

/-- An operator goes on in the same way where what it can turn to on its right is the same: the
target if it is a pipe, the right operand if it is not. -/
theorem Operator.continued_congr {op : Operator} {right right' : Traced Value}
    {target target' : Value → Traced Value} (operand : op ≠ .pipe → right = right')
    (piped : op = .pipe → target = target') :
    op.continued right target = op.continued right' target' := by
  by_cases pipe : op = .pipe
  · rw [piped pipe, pipe]
    rfl
  · rw [operand pipe]
    cases op <;> first | rfl | exact absurd rfl pipe

namespace Term

variable {c d : Context} (methods : Methods)

mutual

/-- A term leaves the same behind in two contexts that agree on the paths that it reads. -/
theorem traced_congr : ∀ (t : Term), (∀ path, t.Reads path → c.resolve path = d.resolve path) →
    traced c methods t = traced d methods t
  | concat parts, agree => by
    have same := tracedParts_congr parts fun part mem path reads => agree path (.part mem reads)
    rw [traced, traced, same]
  | expression none, _ => rfl
  | expression (some t), agree => by
    rw [traced, traced, traced_congr t fun path reads => agree path (.statement reads)]
  | number _, _ | string _, _ | boolean _, _ => rfl
  | reference path, agree => by
    rw [traced, traced, agree path .reference]
  | call name arguments, agree => by
    have same := tracedArguments_congr arguments fun argument mem path reads =>
      agree path (.argument mem reads)
    rw [traced, traced, same]
  | binary op left right, agree => by
    have first := traced_congr left fun path reads => agree path (.left reads)
    have next : op.continued (traced c methods right) (tracedTarget c methods right) =
        op.continued (traced d methods right) (tracedTarget d methods right) := by
      apply Operator.continued_congr
      · intro other
        exact traced_congr right fun path reads => agree path (.right other reads)
      · rintro rfl
        funext input
        exact tracedTarget_congr right (fun path piped =>
          agree path (reads_pipe_iff.mpr (.inr piped))) input
    rw [traced, traced, first, next]

theorem tracedTarget_congr : ∀ (t : Term),
    (∀ path, t.ReadsPiped path → c.resolve path = d.resolve path) →
    ∀ input, tracedTarget c methods t input = tracedTarget d methods t input
  | call name arguments, agree, input => by
    have same := tracedArguments_congr arguments fun argument mem path reads =>
      agree path ⟨name, arguments, argument, rfl, mem, reads⟩
    rw [tracedTarget, tracedTarget, same]
  | reference _, _, _ => rfl
  | concat _, _, _ | expression _, _, _ | number _, _, _ | string _, _, _ | boolean _, _, _
  | binary .., _, _ => rfl

theorem tracedArguments_congr : ∀ (ts : List Term),
    (∀ t ∈ ts, ∀ path, t.Reads path → c.resolve path = d.resolve path) →
    tracedArguments c methods ts = tracedArguments d methods ts
  | [], _ => rfl
  | t :: ts, agree => by
    have first := traced_congr t (agree t List.mem_cons_self)
    have others := tracedArguments_congr ts fun u mem => agree u (List.mem_cons_of_mem t mem)
    rw [tracedArguments, tracedArguments, first, others]

theorem tracedParts_congr : ∀ (ts : List Term),
    (∀ t ∈ ts, ∀ path, t.Reads path → c.resolve path = d.resolve path) →
    tracedParts c methods ts = tracedParts d methods ts
  | [], _ => rfl
  | t :: ts, agree => by
    have first := traced_congr t (agree t List.mem_cons_self)
    have others := tracedParts_congr ts fun u mem => agree u (List.mem_cons_of_mem t mem)
    rw [tracedParts, tracedParts, first, others]

end

/-- A term evaluates alike, with the same calls, in two contexts that agree on the paths that it
reads. -/
theorem evaluate_congr {t : Term} (agree : ∀ path, t.Reads path → c.resolve path = d.resolve path) :
    t.evaluate c methods = t.evaluate d methods := by
  rw [evaluate_eq_traced, evaluate_eq_traced, traced_congr methods t agree]

end Term

namespace Template

/-- A path that a template reads is its dotted form cut at the points. -/
theorem segments_dotted_of_reads (template : Template) {path : List String}
    (reads : template.term.Reads path) : segments (dotted path) = path := by
  have named := Grammar.everywhere_named_of_source (source_of_parse template.parsed)
  exact (reads.of_everywhere named).segments_dotted

/-- The names that a template lists are those of the paths that it reads, and they bound what its
evaluation depends on: in two contexts that resolve each of them to the same value it ends alike,
having made the same calls on the same arguments, whatever the contexts hold besides. What a pipe
names on its right is not among them, nor is what stands there without being a method. -/
theorem evaluate_depends_on_variables (template : Template) (methods : Methods) :
    (∀ name, name ∈ template.variableNames ↔
      ∃ path, template.term.Reads path ∧ dotted path = name) ∧
    ∀ c d : Context,
      (∀ name ∈ template.variableNames, c.resolve (segments name) = d.resolve (segments name)) →
      template.evaluate c methods = template.evaluate d methods := by
  refine ⟨fun name => Term.mem_variableNames, ?_⟩
  intro c d agree
  apply Term.evaluate_congr
  intro path reads
  have listed : dotted path ∈ template.variableNames :=
    Term.mem_variableNames.mpr ⟨path, reads, rfl⟩
  have same := agree (dotted path) listed
  rwa [template.segments_dotted_of_reads reads] at same

/-- A method that the context binds as a variable is still not read from it. -/
theorem evaluate_depends_on_variables_piped :
    ∃ template : Template, template.source = "price | fixed(places)" ∧
      template.variableNames = ["places", "price"] ∧
      ∀ c d : Context, c = .ofList [("places", .number 2), ("price", .number 1)] →
        d = c.put "fixed" .null → c.resolve ["fixed"] ≠ d.resolve ["fixed"] ∧
        ∀ methods, template.evaluate c methods = template.evaluate d methods := by
  have tokens : tokenize "price | fixed(places)" =
      [⟨"price", ⟨1, 1⟩⟩, ⟨" ", ⟨1, 6⟩⟩, ⟨"|", ⟨1, 7⟩⟩, ⟨" ", ⟨1, 8⟩⟩, ⟨"fixed", ⟨1, 9⟩⟩,
        ⟨"(", ⟨1, 14⟩⟩, ⟨"places", ⟨1, 15⟩⟩, ⟨")", ⟨1, 21⟩⟩] := by decide +kernel
  have parsed : parse .expression (tokenize "price | fixed(places)") =
      .ok (.expression (some (.binary .pipe (.reference ["price"])
        (.call "fixed" [.reference ["places"]])))) := by
    rw [tokens]
    rfl
  have listed : variableNames ⟨_, _, _, parsed⟩ = ["places", "price"] := by
    apply Term.variableNames_of_gather
    · dsimp only
      decide +kernel
    · decide +kernel
  refine ⟨⟨_, _, _, parsed⟩, rfl, listed, ?_⟩
  rintro c d rfl rfl
  refine ⟨nofun, fun methods => (evaluate_depends_on_variables _ methods).2 _ _ ?_⟩
  intro name mem
  simp only [listed, List.mem_cons, List.not_mem_nil, or_false] at mem
  rcases mem with rfl | rfl <;> rfl

end Template

end Inlay
