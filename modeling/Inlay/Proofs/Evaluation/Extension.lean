import Inlay.Proofs.Evaluation.Failure

/-!
# More methods

A table of methods extends another when it has every method of it under the same name. What happens
when a term is evaluated against the wider table in place of the narrower one follows from what
happens where a name is looked up: either both tables give the same answer, or the narrower one has
no method and the evaluation against it is over, while the other goes on. So the calls that are made
with fewer methods are those that are made first with more of them, and where they are not all of
them, the evaluation with fewer methods failed for the lack of one that the wider table has.

`evaluate_extends` puts this together with what an evaluation can fail for at all.
-/

namespace Inlay

/-- Whether a table has every method of another under the same name. -/
def Methods.Extends (more fewer : Methods) : Prop :=
  ∀ name method, fewer.find? name = some method → more.find? name = some method

/-- A method under a name that had none is one more. -/
theorem Methods.extends_put {methods : Methods} {name : String}
    (missing : methods.find? name = none) (method : Method) :
    Methods.Extends (methods.put name method) methods := by
  intro other m found
  have differ : name ≠ other := by
    rintro rfl
    rw [missing] at found
    cases found
  rw [Entries.find?_put, if_neg differ, found]

namespace Traced

variable {α β : Type} {more fewer : Methods}

/-- How the same computation ends with fewer and with more methods: it leaves the same behind, or
the fewer methods lack one that is among the others, and then it had come as far with these. -/
inductive GoesOn (more : Methods) : Traced α → Traced α → Prop
  | unchanged (m : Traced α) : GoesOn more m m
  | beyond {m n : Traced α} {name : String} : m.result = .error (.unknownMethod name) →
      (more.find? name).isSome = true → m.calls <+: n.calls → GoesOn more m n

/-- The calls of a computation come before those of what follows it. -/
theorem calls_prefix_andThen (first : Traced α) (next : α → Traced β) :
    first.calls <+: (first.andThen next).calls := by
  rw [andThen]
  cases first.result with
  | ok a => exact List.prefix_append _ _
  | error error => exact List.prefix_refl _

/-- A computation that fails is followed by nothing. -/
theorem andThen_of_error {first : Traced α} {error : EvalError}
    (failed : first.result = .error error) (next : α → Traced β) :
    first.andThen next = ⟨.error error, first.calls⟩ := by
  rw [andThen, failed]

theorem andThen_of_ok {first : Traced α} {a : α} (ended : first.result = .ok a)
    (next : α → Traced β) :
    first.andThen next = ⟨(next a).result, first.calls ++ (next a).calls⟩ := by
  rw [andThen, ended]

/-- If the first computation is cut short there is no second one, and if it is not the second one
starts from the same value. -/
theorem GoesOn.andThen {first first' : Traced α} {next next' : α → Traced β}
    (start : GoesOn more first first') (further : ∀ a, GoesOn more (next a) (next' a)) :
    GoesOn more (first.andThen next) (first'.andThen next') := by
  cases start with
  | beyond missed found before =>
    rw [andThen_of_error missed]
    exact .beyond rfl found (before.trans (calls_prefix_andThen first' next'))
  | unchanged =>
    cases ended : first.result with
    | error error =>
      rw [andThen_of_error ended, andThen_of_error ended]
      exact .unchanged _
    | ok a =>
      rw [andThen_of_ok ended, andThen_of_ok ended]
      generalize next a = second, next' a = second', further a = rest
      cases rest with
      | unchanged => exact .unchanged _
      | beyond missed found before =>
        exact .beyond missed found ((List.prefix_append_right_inj _).mpr before)

theorem GoesOn.map {first first' : Traced α} (f : α → β) (start : GoesOn more first first') :
    GoesOn more (first.map f) (first'.map f) :=
  start.andThen fun a => .unchanged (value (f a))

/-- Only the look-up of a method tells the tables apart. -/
theorem goesOn_method (wider : more.Extends fewer) (name : String) :
    GoesOn more (method fewer name) (method more name) := by
  cases found : fewer.find? name with
  | some m =>
    rw [method, method, found, wider name m found]
    exact .unchanged _
  | none =>
    cases added : more.find? name with
    | none =>
      rw [method, method, found, added]
      exact .unchanged _
    | some m =>
      rw [method, found]
      exact .beyond rfl (by rw [added]; rfl) (List.nil_prefix)

end Traced

/-- An operator goes on on either side that it turns to. -/
theorem Operator.goesOn_continued (op : Operator) {more : Methods} {right right' : Traced Value}
    {target target' : Value → Traced Value} (operand : Traced.GoesOn more right right')
    (piped : ∀ v, Traced.GoesOn more (target v) (target' v)) (v : Value) :
    Traced.GoesOn more (op.continued right target v) (op.continued right' target' v) := by
  cases op with
  | pipe => exact piped v
  | and | or =>
    simp only [continued]
    split
    all_goals first | exact operand | exact .unchanged _
  | _ => exact operand.map _

namespace Term

variable {context : Context} {more fewer : Methods}

mutual

/-- Evaluating a term goes on with more methods as it does with fewer, and may go further. -/
theorem goesOn_traced (wider : more.Extends fewer) : ∀ t : Term,
    Traced.GoesOn more (traced context fewer t) (traced context more t)
  | concat parts => by
    rw [traced, traced]
    exact (goesOn_tracedParts wider parts).map _
  | expression none => by
    rw [traced, traced]
    exact .unchanged _
  | expression (some t) => by
    rw [traced, traced]
    exact goesOn_traced wider t
  | number _ | string _ | boolean _ | reference _ => by
    rw [traced, traced]
    exact .unchanged _
  | call name arguments => by
    rw [traced, traced]
    refine (Traced.goesOn_method wider name).andThen fun method => ?_
    exact (goesOn_tracedArguments wider arguments).andThen fun values => .unchanged _
  | binary op left right => by
    rw [traced, traced]
    refine (goesOn_traced wider left).andThen fun v => ?_
    exact op.goesOn_continued (goesOn_traced wider right) (goesOn_tracedTarget wider right) v

theorem goesOn_tracedTarget (wider : more.Extends fewer) : ∀ (t : Term) (input : Value),
    Traced.GoesOn more (tracedTarget context fewer t input) (tracedTarget context more t input)
  | reference path, input => by
    rw [tracedTarget, tracedTarget]
    exact (Traced.goesOn_method wider (dotted path)).andThen fun method => .unchanged _
  | call name arguments, input => by
    rw [tracedTarget, tracedTarget]
    refine (Traced.goesOn_method wider name).andThen fun method => ?_
    exact (goesOn_tracedArguments wider arguments).andThen fun values => .unchanged _
  | concat _, _ | expression _, _ | number _, _ | string _, _ | boolean _, _ | binary .., _ => by
    simp only [tracedTarget]
    exact .unchanged _

theorem goesOn_tracedArguments (wider : more.Extends fewer) : ∀ ts : List Term,
    Traced.GoesOn more (tracedArguments context fewer ts) (tracedArguments context more ts)
  | [] => by
    rw [tracedArguments, tracedArguments]
    exact .unchanged _
  | t :: ts => by
    rw [tracedArguments, tracedArguments]
    refine (goesOn_traced wider t).andThen fun v => ?_
    exact (goesOn_tracedArguments wider ts).map _

theorem goesOn_tracedParts (wider : more.Extends fewer) : ∀ ts : List Term,
    Traced.GoesOn more (tracedParts context fewer ts) (tracedParts context more ts)
  | [] => by
    rw [tracedParts, tracedParts]
    exact .unchanged _
  | t :: ts => by
    rw [tracedParts, tracedParts]
    refine (goesOn_traced wider t).andThen fun v => ?_
    exact (goesOn_tracedParts wider ts).map _

end

/-- A term has the same outcome with more methods, or it fails with fewer for a method that is among
the others, after calls that are made with these as well. -/
theorem evaluate_same_or_beyond (wider : more.Extends fewer) (t : Term) (context : Context) :
    t.evaluate context more = t.evaluate context fewer ∨
      ∃ name, (t.evaluate context fewer).result = .error (.unknownMethod name) ∧
        (more.find? name).isSome = true ∧
        (t.evaluate context fewer).calls <+: (t.evaluate context more).calls := by
  rw [evaluate_eq_traced, evaluate_eq_traced]
  have goes : Traced.GoesOn more (traced context fewer t) (traced context more t) :=
    goesOn_traced wider t
  generalize traced context fewer t = m, traced context more t = n at goes ⊢
  cases goes with
  | unchanged => exact .inl rfl
  | beyond missed found before => exact .inr ⟨_, missed, found, before⟩

/-- The outcome of a term does not depend on methods that it does not miss. Where a table is
extended, a value stays, with the same calls, and so does a failure unless it is for a method that
was added; the calls made before are always the first of those made after. A term can fail for
nothing but a method that is not registered, under a name that a call in the term goes by or that is
bare on the right of a pipe, and a pipe into what is neither a name nor a call, whose kind the
failure says. A term without the two therefore has a value in every context. -/
theorem evaluate_extends (wider : more.Extends fewer) (t : Term) (context : Context) :
    (∀ v, (t.evaluate context fewer).result = .ok v →
      t.evaluate context more = t.evaluate context fewer) ∧
    (∀ kind, (t.evaluate context fewer).result = .error (.invalidPipeTarget kind) →
      t.evaluate context more = t.evaluate context fewer) ∧
    (∀ name, (t.evaluate context fewer).result = .error (.unknownMethod name) →
      more.find? name = none → t.evaluate context more = t.evaluate context fewer) ∧
    (t.evaluate context fewer).calls <+: (t.evaluate context more).calls ∧
    (∀ error, (t.evaluate context fewer).result = .error error →
      (∃ name, error = .unknownMethod name ∧ fewer.find? name = none ∧
        t.Somewhere (GoesBy name)) ∨
      ∃ kind, error = .invalidPipeTarget kind ∧ t.Somewhere (Misleads kind)) ∧
    ((∀ name, t.Somewhere (GoesBy name) → (fewer.find? name).isSome = true) →
      (∀ kind, ¬ t.Somewhere (Misleads kind)) →
      ∀ other, ∃ v, (t.evaluate other fewer).result = .ok v) := by
  have compared := evaluate_same_or_beyond wider t context
  refine ⟨?_, ?_, ?_, ?_, ?_, exists_value_of_registered⟩
  · intro v ended
    obtain same | ⟨name, missed, -, -⟩ := compared
    · exact same
    · cases ended.symm.trans missed
  · intro kind failed
    obtain same | ⟨name, missed, -, -⟩ := compared
    · exact same
    · cases failed.symm.trans missed
  · intro name failed missing
    obtain same | ⟨other, missed, found, -⟩ := compared
    · exact same
    · cases failed.symm.trans missed
      rw [missing] at found
      cases found
  · obtain same | ⟨name, -, -, before⟩ := compared
    · exact ⟨[], by rw [same, List.append_nil]⟩
    · exact before
  · intro error failed
    have explained := explains_of_evaluate failed
    cases error with
    | unknownMethod name => exact .inl ⟨name, rfl, explained⟩
    | invalidPipeTarget kind => exact .inr ⟨kind, rfl, explained⟩

/-- The input of a pipe has made its call before the method on the right is missed. Another method
does not help; with the one that is missed the pipe has a value, in every context. -/
theorem evaluate_extends_by_one :
    ∃ (t : Term) (methods : Methods),
      t = binary .pipe (call "side" []) (call "late" [call "side" []]) ∧
      methods = .ofList [("side", .array)] ∧
      Methods.Extends (methods.put "late" .array) methods ∧
      ∀ context, (t.evaluate context methods).result = .error (.unknownMethod "late") ∧
        (t.evaluate context methods).calls = [⟨"side", []⟩] ∧
        t.evaluate context (methods.put "other" .array) = t.evaluate context methods ∧
        (t.evaluate context methods).calls <+:
          (t.evaluate context (methods.put "late" .array)).calls ∧
        ∃ v, (t.evaluate context (methods.put "late" .array)).result = .ok v := by
  let t := binary .pipe (call "side" []) (call "late" [call "side" []])
  let methods : Methods := .ofList [("side", .array)]
  have other : Methods.Extends (methods.put "other" .array) methods := Methods.extends_put rfl _
  have late : Methods.Extends (methods.put "late" .array) methods := Methods.extends_put rfl _
  have itself : Methods.Extends (methods.put "late" .array) (methods.put "late" .array) :=
    fun _ _ => id
  have side : ∀ P, (call "side" []).Somewhere P → P (call "side" []) := by
    intro P somewhere
    cases somewhere with
    | here holds => exact holds
    | argument mem _ => cases mem
  have parts : ∀ P, t.Somewhere P →
      P t ∨ P (call "late" [call "side" []]) ∨ P (call "side" []) := by
    intro P (somewhere : (binary .pipe _ _).Somewhere P)
    cases somewhere with
    | here holds => exact .inl holds
    | left input => exact .inr (.inr (side P input))
    | right target =>
      cases target with
      | here holds => exact .inr (.inl holds)
      | argument mem argument =>
        cases List.mem_singleton.mp mem
        exact .inr (.inr (side P argument))
  refine ⟨t, methods, rfl, rfl, late, fun context => ?_⟩
  have failed : (t.evaluate context methods).result = .error (.unknownMethod "late") := by
    rw [evaluate_eq_traced]
    rfl
  refine ⟨failed, by rw [evaluate_eq_traced]; rfl, ?_, ?_, ?_⟩
  · exact (evaluate_extends other t context).2.2.1 "late" failed rfl
  · exact (evaluate_extends late t context).2.2.2.1
  · refine (evaluate_extends itself t context).2.2.2.2.2 ?_ ?_ context
    · intro name somewhere
      obtain goes | goes | goes := parts _ somewhere
      all_goals cases goes
      all_goals rfl
    · intro kind somewhere
      obtain ⟨astray, -⟩ | astray | astray := parts _ somewhere
      all_goals cases astray

end Term

end Inlay
