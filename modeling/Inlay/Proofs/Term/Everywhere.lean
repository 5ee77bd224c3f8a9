import Inlay.Term.Basic

/-!
# Properties of all parts of a term

A property holds everywhere in a term when it holds of the term and everywhere in its parts: the
parts of a text, the statement of an expression, the arguments of a call and the operands of an
operation. It holds somewhere in a term when it holds of the term or of one of these parts.
-/

namespace Inlay.Term

mutual

/-- Whether a property holds of a term and of all its parts, at any depth. -/
def Everywhere (P : Term → Prop) : Term → Prop
  | concat parts => P (concat parts) ∧ EverywhereIn P parts
  | expression none => P (expression none)
  | expression (some t) => P (expression (some t)) ∧ t.Everywhere P
  | call name arguments => P (call name arguments) ∧ EverywhereIn P arguments
  | binary op left right => P (binary op left right) ∧ left.Everywhere P ∧ right.Everywhere P
  | number x => P (number x)
  | string s => P (string s)
  | boolean b => P (boolean b)
  | reference path => P (reference path)

/-- Whether a property holds everywhere in several terms. -/
def EverywhereIn (P : Term → Prop) : List Term → Prop
  | [] => True
  | t :: ts => t.Everywhere P ∧ EverywhereIn P ts

end

theorem everywhereIn_append (P : Term → Prop) (ts us : List Term) :
    EverywhereIn P (ts ++ us) ↔ EverywhereIn P ts ∧ EverywhereIn P us := by
  induction ts with
  | nil => simp only [List.nil_append, EverywhereIn, true_and]
  | cons t ts ih => simp only [List.cons_append, EverywhereIn, ih, and_assoc]

/-- A property holds everywhere in several terms when it does in each. -/
theorem everywhereIn_iff {P : Term → Prop} {ts : List Term} :
    EverywhereIn P ts ↔ ∀ t ∈ ts, t.Everywhere P := by
  induction ts with
  | nil => simp [EverywhereIn]
  | cons t ts ih => simp [EverywhereIn, ih]

mutual

/-- A term is equal to itself where all numbers in it are. -/
theorem equals_self {P : Term → Prop} (each : ∀ x, P (number x) → x.equals x = true) :
    ∀ {t : Term}, t.Everywhere P → t.equals t = true
  | concat _, ⟨_, parts⟩ => by
    rw [equals]
    exact listEquals_self each parts
  | expression none, _ => by rw [equals]
  | expression (some _), ⟨_, statement⟩ => by
    rw [equals]
    exact equals_self each statement
  | number x, holds => by
    rw [equals]
    exact each x holds
  | string _, _ | boolean _, _ | reference _, _ => by rw [equals, beq_self_eq_true]
  | call _ _, ⟨_, arguments⟩ => by
    rw [equals, beq_self_eq_true, Bool.true_and]
    exact listEquals_self each arguments
  | binary op _ _, ⟨_, left, right⟩ => by
    have same : (op == op) = true := by rw [beq_self_eq_true]
    rw [equals, same, equals_self each left, equals_self each right]
    rfl

theorem listEquals_self {P : Term → Prop} (each : ∀ x, P (number x) → x.equals x = true) :
    ∀ {ts : List Term}, EverywhereIn P ts → listEquals ts ts = true
  | [], _ => by rw [listEquals]
  | _ :: _, ⟨first, others⟩ => by
    rw [listEquals, equals_self each first, listEquals_self each others]
    rfl

end

/-- Whether a property holds of a term or of any of its parts, at any depth. -/
inductive Somewhere (P : Term → Prop) : Term → Prop
  | here {t : Term} : P t → Somewhere P t
  | part {parts : List Term} {part : Term} : part ∈ parts → part.Somewhere P →
      Somewhere P (concat parts)
  | statement {t : Term} : t.Somewhere P → Somewhere P (expression (some t))
  | argument {name : String} {arguments : List Term} {argument : Term} : argument ∈ arguments →
      argument.Somewhere P → Somewhere P (call name arguments)
  | left {op : Operator} {left right : Term} : left.Somewhere P → Somewhere P (binary op left right)
  | right {op : Operator} {left right : Term} : right.Somewhere P →
      Somewhere P (binary op left right)

/-- What is the whole of a text or of an expression, as no part of a statement is. -/
def isWhole : Term → Bool
  | concat _ | expression _ => true
  | _ => false

end Inlay.Term
