import Inlay.Proofs.Parse.Unplaced
import Inlay.Proofs.Parse.Viable
import Inlay.Proofs.Token.Seam

/-!
# Blanks in an expression

A blank in an expression leaves a state as it was, except that a name can no longer begin a call. So
an expression is read as what is `visible` of its tokens: those that are not blank, and of each
opening parenthesis whether a blank stands directly before it. `State.foldlM_step_visible` says so
of every run of tokens, by going through them one by one.

For sources there is one thing more to know, which `LeftmostSplit.insert_blanks` says: blanks that
are put between two tokens leave all others as they are.
-/

namespace Inlay

namespace Parse

/-- What can be seen of tokens in an expression: those that are not blank, each with whether it is
an opening parenthesis after a blank. The flag says whether a blank stands before the first. -/
def visible : Bool → List Token → List (Token × Bool)
  | _, [] => []
  | spaced, t :: ts =>
    if t.isBlank then visible true ts
    else (t, spaced && t.text == "(") :: visible false ts

namespace State

/-- What a blank leaves of a state. -/
def pause (s : State) : State :=
  match s.phase with
  | .waiting .. => s
  | _ => s.settle

/-- Takes in a token that is not blank, perhaps after a blank. -/
def stepVisible (s : State) (seen : Token × Bool) : Except ParseError State :=
  (if seen.2 then s.pause else s).step seen.1

variable {s : State} {t : Token}

theorem pause_pause (s : State) : s.pause.pause = s.pause := by
  obtain ⟨top, below, phase⟩ := s
  cases phase <;> rfl

theorem finish_pause (s : State) (stop : Position) : s.pause.finish stop = s.finish stop := by
  obtain ⟨top, below, phase⟩ := s
  cases phase <;> cases below <;> rfl

theorem Sound.pause {mode : Mode} (sound : s.Sound mode) : s.pause.Sound mode := by
  obtain ⟨top, below, phase⟩ := s
  cases phase with
  | waiting => exact sound
  | ready | named => exact ⟨sound.stacked, trivial⟩

/-- No part of an expression is text. -/
theorem Sound.isText (sound : s.Sound .expression) : s.top.isText = false := by
  obtain ⟨top, below, phase⟩ := s
  cases sound.stacked with
  | expression | call => rfl

/-- A blank is taken in, whatever the state is. -/
theorem step_blank (noText : s.top.isText = false) (blank : t.isBlank = true) :
    s.step t = .ok s.pause := by
  rw [step_eq_ok_iff]
  obtain ⟨top, below, phase⟩ := s
  cases phase with
  | waiting => exact .wait blank
  | ready | named => exact .blank rfl noText blank

/-- A blank before a token makes no difference to it if it does not open a call. -/
theorem step_pause (noText : s.top.isText = false) (notCall : t.text ≠ "(") :
    s.pause.step t = s.step t := by
  obtain ⟨top, below, phase⟩ := s
  cases phase with
  | waiting | ready => rfl
  | named name =>
    have calm : (Phase.named name).isWaiting = false := rfl
    rw [step_eq_inExpression calm noText notCall]
    exact step_eq_inExpression rfl noText notCall

/-- A token is taken in as what is seen of it. -/
theorem step_eq_stepVisible (noText : s.top.isText = false) (spaced : Bool) :
    (if spaced then s.pause else s).step t = s.stepVisible (t, spaced && t.text == "(") := by
  cases spaced with
  | false => rfl
  | true =>
    by_cases opening : t.text = "("
    · rw [stepVisible, Bool.true_and, beq_iff_eq.mpr opening]
    · have other : (t.text == "(") = false := beq_eq_false_iff_ne.mpr opening
      rw [stepVisible, Bool.true_and, other]
      exact step_pause noText opening

/-- Tokens are taken in as what is seen of them, up to a blank at the end. The induction is on the
tokens, and blanks that were not followed yet by another token are in the flag. -/
theorem foldlM_step_visible (sound : s.Sound .expression) (spaced : Bool) (ts : List Token) :
    (ts.foldlM step (if spaced then s.pause else s)).map pause =
      ((visible spaced ts).foldlM stepVisible s).map pause := by
  induction ts generalizing s spaced with
  | nil =>
    cases spaced with
    | false => rfl
    | true => exact congrArg Except.ok s.pause_pause
  | cons t ts ih =>
    have here : (if spaced then s.pause else s).Sound .expression := by
      split
      · exact sound.pause
      · exact sound
    rw [List.foldlM_cons, visible]
    by_cases blank : t.isBlank = true
    · have paused : (if spaced then s.pause else s).pause = s.pause := by
        split
        · exact s.pause_pause
        · rfl
      rw [step_blank here.isText blank, if_pos blank, paused]
      exact ih sound true
    · rw [if_neg blank, List.foldlM_cons, ← step_eq_stepVisible sound.isText]
      cases taken : (if spaced then s.pause else s).step t with
      | error e => rfl
      | ok s' => exact ih (here.step (step_of_step taken)) false

/-- What is refused while tokens are taken in is refused because of a token. -/
theorem isEnd_of_foldlM_stepVisible {seen : List (Token × Bool)} {e : ParseError}
    (refused : seen.foldlM stepVisible s = .error e) : e.fault.isEnd = false := by
  induction seen generalizing s with
  | nil => cases refused
  | cons first seen ih =>
    rw [List.foldlM_cons] at refused
    cases taken : s.stepVisible first with
    | error e' =>
      rw [taken] at refused
      cases refused
      exact (blames_of_step taken).isEnd
    | ok s' =>
      rw [taken] at refused
      exact ih refused

end State

end Parse

/-! ## What decides how an expression is read -/

/-- A refusal of tokens that end at a place. Only a source that ends too early is refused there. -/
def ParseError.endingAt (stop : Position) (e : ParseError) : ParseError :=
  if e.fault = .unexpectedEnd then ⟨stop, e.fault⟩ else e

theorem ParseError.fault_endingAt (e : ParseError) (stop : Position) :
    (e.endingAt stop).fault = e.fault := by
  unfold endingAt
  split <;> rfl

namespace Parse

theorem State.finish_endingAt (s : State) (stop stop' : Position) :
    s.finish stop' = (s.finish stop).mapError (.endingAt stop') := by
  obtain ⟨top, below, phase⟩ := s
  cases phase <;> cases below <;> rfl

/-- An expression is read as what is seen of its tokens. -/
theorem parse_expression_eq_visible (ts : List Token) :
    parse .expression ts =
      (visible false ts).foldlM State.stepVisible (.start .expression) >>=
        (·.finish (stopOf ts)) := by
  have same := State.foldlM_step_visible (State.sound_start .expression) false ts
  have ends (read : Except ParseError State) :
      read >>= (·.finish (stopOf ts)) = read.map State.pause >>= (·.finish (stopOf ts)) := by
    cases read with
    | error e => rfl
    | ok s => exact (s.finish_pause (stopOf ts)).symm
  unfold parse
  rw [ends, ends (List.foldlM _ _ _), ← same]
  rfl

/-- Expressions of which the same is seen are read alike, up to the place of an early end. -/
theorem parse_expression_congr {ts us : List Token} (same : visible false ts = visible false us) :
    parse .expression us = (parse .expression ts).mapError (.endingAt (stopOf us)) := by
  rw [parse_expression_eq_visible, parse_expression_eq_visible, same]
  cases read : (visible false us).foldlM State.stepVisible (.start .expression) with
  | error e =>
    have blaming := State.isEnd_of_foldlM_stepVisible read
    have other : e.fault ≠ .unexpectedEnd := by
      intro ends
      rw [ends] at blaming
      cases blaming
    exact congrArg Except.error (if_neg other).symm
  | ok s => exact s.finish_endingAt (stopOf ts) (stopOf us)

/-! ## Blanks that are put in -/

/-- Blanks in front of other tokens are seen as one. -/
theorem visible_blanks {blanks : List Token} (all : ∀ t ∈ blanks, t.isBlank = true)
    (ts : List Token) : visible true (blanks ++ ts) = visible true ts := by
  induction blanks with
  | nil => rfl
  | cons blank blanks ih =>
    rw [List.cons_append, visible, if_pos (all blank List.mem_cons_self)]
    exact ih fun t mem => all t (List.mem_cons_of_mem blank mem)

/-- A blank before tokens that do not begin with an opening parenthesis is not seen. -/
theorem visible_eq_of_head {ts : List Token} (notCall : ∀ t ∈ ts.head?, t.text ≠ "(")
    (spaced spaced' : Bool) : visible spaced ts = visible spaced' ts := by
  cases ts with
  | nil => rfl
  | cons t ts =>
    have other : (t.text == "(") = false := beq_eq_false_iff_ne.mpr (notCall t rfl)
    simp only [visible, other, Bool.and_false]

/-- A blank in place of others, or of none before anything but an opening parenthesis, is not
seen. -/
theorem visible_insert {front old back : List Token} {gap : Token} (blank : gap.isBlank = true)
    (blanks : ∀ t ∈ old, t.isBlank = true) (notCall : old = [] → ∀ t ∈ back.head?, t.text ≠ "(")
    (spaced : Bool) :
    visible spaced (front ++ gap :: back) = visible spaced (front ++ (old ++ back)) := by
  induction front generalizing spaced with
  | nil =>
    rw [List.nil_append, List.nil_append, visible, if_pos blank]
    cases old with
    | nil => exact visible_eq_of_head (notCall rfl) true spaced
    | cons first old =>
      rw [List.cons_append, visible, if_pos (blanks first List.mem_cons_self)]
      exact (visible_blanks (fun t mem => blanks t (List.mem_cons_of_mem first mem)) back).symm
  | cons t front ih =>
    rw [List.cons_append, List.cons_append, visible, visible, ih, ih]

end Parse

open Parse

@[simp] theorem Cut.isBlank_token (cut : Cut) : cut.token.isBlank = cut.isGap := by
  rw [token, Token.isBlank, String.toList_ofList, isGap]

/-- Tokens put together are their pieces put together. -/
theorem toList_join_of_unplaced {ts : List Token} {cuts : List Cut}
    (same : cuts.map Cut.token = ts.map Token.unplaced) :
    (String.join (ts.map Token.text)).toList = (cuts.map Cut.text).flatten := by
  have texts : ts.map Token.text = (ts.map Token.unplaced).map Token.text := by
    rw [List.map_map]
    rfl
  rw [String.toList_join, texts, ← same, List.map_map, List.flatMap_map, List.flatten_eq_flatMap,
    List.flatMap_map]
  simp [Cut.token]

/-- Blanks that are put between two tokens of a source are not seen, except before an opening
parenthesis. -/
theorem visible_tokenize_insert {source blanks : String} {before after : List Token}
    (found : tokenize source = before ++ after) (notCall : ∀ t ∈ after.head?, t.text ≠ "(")
    (all : ∀ c ∈ blanks.toList, Text.isBlank c = true) :
    visible false ((tokenize (String.join (before.map Token.text) ++ blanks ++
        String.join (after.map Token.text))).map Token.unplaced) =
      visible false ((tokenize source).map Token.unplaced) := by
  by_cases empty : blanks = ""
  · subst empty
    have whole := join_tokenize source
    rw [found, List.map_append, String.join_append] at whole
    rw [String.append_empty, whole]
  · obtain ⟨cuts, split⟩ := LeftmostSplit.exists_cuts source.toList
    have tokens := map_unplaced_tokenize split
    rw [found, List.map_append] at tokens
    obtain ⟨first, second, rfl, ahead, behind⟩ := List.map_eq_append_iff.mp tokens.symm
    have filled : blanks.toList ≠ [] := by simpa using empty
    obtain ⟨front, old, back, gap, parts, split', isGap, gaps, kept⟩ :=
      split.insert_blanks filled all
    rw [← toList_join_of_unplaced ahead, ← toList_join_of_unplaced behind, ← List.append_assoc,
      ← String.toList_append, ← String.toList_append] at split'
    rw [map_unplaced_tokenize split', map_unplaced_tokenize split, parts]
    simp only [List.map_append, List.map_cons]
    apply visible_insert
    · simpa using isGap
    · simpa using gaps
    · intro none t head
      rw [kept (List.map_eq_nil_iff.mp none), behind, List.head?_map, Option.mem_def,
        Option.map_eq_some_iff] at head
      obtain ⟨t, head, rfl⟩ := head
      exact notCall t head

/-- Blanks do not change what an expression is read as. Tokens are read alike when the same is seen
of them: the tokens that are not blank, and whether a blank stands directly before an opening
parenthesis. Only the place of an early end is that of the end. And blanks that are put between two
tokens of a source, except before an opening parenthesis, leave its term, or the fault for which it
is refused. -/
theorem parse_ignores_blanks :
    (∀ ts us : List Token, visible false ts = visible false us →
      parse .expression us = (parse .expression ts).mapError (.endingAt (stopOf us))) ∧
    ∀ (source blanks : String) (before after : List Token), tokenize source = before ++ after →
      (∀ t ∈ after.head?, t.text ≠ "(") → (∀ c ∈ blanks.toList, Text.isBlank c = true) →
      (parse .expression (tokenize (String.join (before.map Token.text) ++ blanks ++
          String.join (after.map Token.text)))).mapError ParseError.fault =
        (parse .expression (tokenize source)).mapError ParseError.fault := by
  constructor
  · intro ts us same
    exact parse_expression_congr same
  · intro source blanks before after found notCall all
    rw [← parse_unplaced, ← parse_unplaced _ (tokenize source),
      parse_expression_congr (visible_tokenize_insert found notCall all).symm]
    cases parse .expression ((tokenize source).map Token.unplaced) with
    | error e => exact congrArg Except.error (e.fault_endingAt _)
    | ok t => rfl

/-- A blank before a sign, and a line feed inside a call, before a quoted run that holds a blank. -/
theorem parse_ignores_blanks_in_call :
    let ts : List Token := [⟨"a", ⟨1, 1⟩⟩, ⟨"+", ⟨1, 3⟩⟩]
    let us : List Token := [⟨"a", ⟨1, 1⟩⟩, ⟨" ", ⟨1, 2⟩⟩, ⟨"+", ⟨1, 3⟩⟩]
    let before : List Token := [⟨"f", ⟨1, 1⟩⟩, ⟨"(", ⟨1, 2⟩⟩]
    let after : List Token := [⟨"'b c'", ⟨1, 3⟩⟩, ⟨")", ⟨1, 8⟩⟩]
    visible false ts = visible false us ∧
      parse .expression us = .error ⟨⟨1, 3⟩, .missingRightOperand "+"⟩ ∧
      tokenize "f('b c')" = before ++ after ∧
      (parse .expression (tokenize "f(\n 'b c')")).mapError ParseError.fault =
        .ok (.expression (some (.call "f" [.string "b c"]))) := by
  intro ts us before after
  have seen : visible false ts = visible false us := by decide
  have tokens : tokenize "f('b c')" = before ++ after := by decide +kernel
  have same := parse_ignores_blanks.2 "f('b c')" "\n " before after tokens (by simp [after])
    (List.all_eq_true.mp (by decide))
  have joined : String.join (before.map Token.text) ++ "\n " ++ String.join (after.map Token.text) =
      "f(\n 'b c')" := by decide
  rw [joined, tokens] at same
  exact ⟨seen, parse_ignores_blanks.1 ts us seen, tokens, same⟩

end Inlay
