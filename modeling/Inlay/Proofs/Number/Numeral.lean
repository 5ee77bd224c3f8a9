import Inlay.Number.Numeral
import Inlay.Proofs.Number.Decimal

/-!
# The characters of numerals

A text that counts as a number has nothing in it but letters and digits of ASCII, points, signs and
the blanks around it (`ofText_eq_nan`). A decimal has no letters but the mark of its exponent, so
that it is neither the name of an infinity nor digits of another base, and counts as the number
nearest to it (`ofText_of_written`).
-/

namespace Inlay

/-! ## Blanks at the ends -/

namespace Text

theorem mem_dropWhile_isBlank {cs : List Char} {c : Char} (mem : c ∈ cs)
    (visible : isBlank c = false) : c ∈ cs.dropWhile isBlank := by
  induction cs with
  | nil => cases mem
  | cons first rest ih =>
    rw [List.dropWhile_cons]
    split
    · rename_i blank
      rcases List.mem_cons.mp mem with rfl | further
      · rw [visible] at blank
        cases blank
      · exact ih further
    · exact mem

/-- Trimming takes nothing but blanks. -/
theorem mem_trimBlank {cs : List Char} {c : Char} (mem : c ∈ cs) (visible : isBlank c = false) :
    c ∈ trimBlank cs := by
  rw [trimBlank, List.mem_reverse]
  apply mem_dropWhile_isBlank _ visible
  rw [List.mem_reverse]
  exact mem_dropWhile_isBlank mem visible

/-- Trimming takes the blanks around what neither begins nor ends with one. -/
theorem trimBlank_append {before cs after : List Char}
    (blank : ∀ c ∈ before ++ after, isBlank c = true)
    (starts : ∀ c ∈ cs.head?, isBlank c = false) (ends : ∀ c ∈ cs.getLast?, isBlank c = false) :
    trimBlank (before ++ cs ++ after) = cs := by
  obtain ⟨blankBefore, blankAfter⟩ := List.forall_mem_append.mp blank
  have stops {cs : List Char} (starts : ∀ c ∈ cs.head?, isBlank c = false) :
      cs.dropWhile isBlank = cs := by
    cases cs with
    | nil => rfl
    | cons c cs => rw [List.dropWhile_cons, starts c rfl]; rfl
  rw [trimBlank, List.append_assoc, List.dropWhile_append_of_pos blankBefore]
  cases cs with
  | nil =>
    have gone := @List.dropWhile_append_of_pos _ isBlank after [] blankAfter
    rw [List.append_nil, List.dropWhile_nil] at gone
    rw [List.nil_append, gone]
    rfl
  | cons c cs =>
    rw [List.cons_append, List.dropWhile_cons, starts c rfl, if_neg Bool.false_ne_true,
      ← List.cons_append, List.reverse_append, List.dropWhile_append_of_pos, stops,
      List.reverse_reverse]
    · rwa [List.head?_reverse]
    · exact fun c mem => blankAfter c (List.mem_reverse.mp mem)

theorem trimBlank_of_visible {cs : List Char} (visible : ∀ c ∈ cs, isBlank c = false) :
    trimBlank cs = cs := by
  have starts : ∀ c ∈ cs.head?, isBlank c = false := fun c first =>
    visible c (List.mem_of_mem_head? first)
  have ends : ∀ c ∈ cs.getLast?, isBlank c = false := fun c last =>
    visible c (List.mem_of_getLast? last)
  have bare := @trimBlank_append [] cs [] nofun starts ends
  rwa [List.nil_append, List.append_nil] at bare

end Text

namespace Number

/-! ## Characters of numerals -/

/-- Whether a character occurs in texts that count as numbers, the blanks around them apart. -/
def isNumeral (c : Char) : Bool :=
  c.isAlphanum || c == '.' || c == '+' || c == '-'

/-- Whether a character occurs in decimals. -/
def isDecimal (c : Char) : Bool :=
  c.isDigit || c == '.' || c == 'e' || c == 'E' || c == '+' || c == '-'

end Number

namespace Decimal

open Number

theorem isDecimal_of_isDigit {c : Char} (digit : c.isDigit = true) : isDecimal c = true := by
  rw [isDecimal, digit]
  rfl

theorem Sign.isDecimal {negative : Bool} {sign : List Char} (signed : Sign negative sign) :
    ∀ c ∈ sign, isDecimal c = true := by
  cases signed <;> exact List.all_eq_true.mp rfl

theorem Written.isDecimal {d : Decimal} {cs : List Char} (written : Written d cs) :
    ∀ c ∈ cs, isDecimal c = true := by
  obtain ⟨signed, all, pointed, -, marked⟩ := written
  simp only [List.forall_mem_append]
  refine ⟨signed.isDecimal, fun c mem => isDecimal_of_isDigit (all c mem), ?_, ?_⟩
  · cases pointed with
    | none => nofun
    | point digits =>
      rw [List.forall_mem_cons]
      exact ⟨rfl, fun c mem => isDecimal_of_isDigit (digits c mem)⟩
  · cases marked with
    | none => nofun
    | marked isMark signed digits =>
      rw [List.forall_mem_cons, List.forall_mem_append]
      refine ⟨?_, signed.isDecimal, fun c mem => isDecimal_of_isDigit ?_⟩
      · rcases isMark with rfl | rfl <;> rfl
      · exact (isDigits_iff.mp digits).2 c mem

theorem Written.ne_nil {d : Decimal} {cs : List Char} (written : Written d cs) : cs ≠ [] := by
  obtain ⟨-, -, pointed, some, -⟩ := written
  intro none
  simp only [List.append_eq_nil_iff] at none
  obtain ⟨-, rfl, rfl, -⟩ := none
  cases pointed
  exact some rfl

end Decimal

namespace Number

open Decimal

theorem isBlank_of_isDecimal {c : Char} (decimal : isDecimal c = true) :
    Text.isBlank c = false := by
  simp only [isDecimal, Bool.or_eq_true, beq_iff_eq] at decimal
  rcases decimal with ((((digit | rfl) | rfl) | rfl) | rfl) | rfl
  · have range := Char.isDigit_iff_toNat.mp digit
    exact Text.isBlank_of_visible (Nat.le_trans (by decide) range.1)
      (Nat.le_trans range.2 (by decide))
  all_goals decide

/-- The marks of the other bases. -/
def marks : List Char :=
  ['x', 'X', 'o', 'O', 'b', 'B']

/-- Behind a zero and the mark of a base stand its digits. -/
theorem exists_mark_of_takeBase? {cs digits : List Char} {base : Nat}
    (taken : takeBase? cs = some (base, digits)) :
    ∃ mark ∈ marks, cs = '0' :: mark :: digits := by
  rw [takeBase?.eq_def] at taken
  split at taken
  all_goals cases taken
  all_goals exact ⟨_, by decide, rfl⟩

theorem isDecimal_of_mem_marks {mark : Char} (mem : mark ∈ marks) : isDecimal mark = false := by
  have apart : marks.all (fun mark => !isDecimal mark) = true := rfl
  have other := List.all_eq_true.mp apart mark mem
  rwa [Bool.not_eq_true'] at other

/-- A decimal is not taken for digits of another base. -/
theorem takeBase?_of_isDecimal {cs : List Char} (decimal : ∀ c ∈ cs, isDecimal c = true) :
    takeBase? cs = none := by
  cases taken : takeBase? cs with
  | none => rfl
  | some found =>
    obtain ⟨mark, isMark, rfl⟩ := exists_mark_of_takeBase? taken
    have decimal := decimal mark (List.mem_cons_of_mem '0' List.mem_cons_self)
    rw [isDecimal_of_mem_marks isMark] at decimal
    cases decimal

/-- The names of the infinities. -/
def infinities : List (List Char) :=
  ["Infinity".toList, "+Infinity".toList, "-Infinity".toList]

/-- What is neither empty nor the name of an infinity is read as digits of another base or else as
a decimal. -/
theorem ofTrimmed_of_not_named {cs : List Char} (some : cs ≠ []) (notNamed : cs ∉ infinities) :
    ofTrimmed cs = (takeBase? cs).elim (((read? cs).map Decimal.nearest).getD .nan)
      fun found => ofBase found.1 found.2 := by
  simp only [infinities, List.mem_cons, List.not_mem_nil, or_false, not_or] at notNamed
  obtain ⟨plain, plus, minus⟩ := notNamed
  rw [ofTrimmed, if_neg (mt List.isEmpty_iff.mp some), if_neg (not_or.mpr ⟨plain, plus⟩),
    if_neg minus]
  cases takeBase? cs <;> rfl

/-- A decimal counts as the number nearest to it. -/
theorem ofTrimmed_of_written {d : Decimal} {cs : List Char} (written : Written d cs) :
    ofTrimmed cs = d.nearest := by
  have notNamed : cs ∉ infinities := by
    intro named
    have letters : infinities.all (fun name => !name.all isDecimal) = true := by decide
    have letter := List.all_eq_true.mp letters cs named
    rw [List.all_eq_true.mpr written.isDecimal] at letter
    cases letter
  rw [ofTrimmed_of_not_named written.ne_nil notNamed, takeBase?_of_isDecimal written.isDecimal,
    read?_eq_some_iff.mpr written]
  rfl

theorem ofText_of_written {d : Decimal} {cs : List Char} (written : Written d cs) :
    ofText (String.ofList cs) = d.nearest := by
  rw [ofText, String.toList_ofList, Text.trimBlank_of_visible, ofTrimmed_of_written written]
  exact fun c mem => isBlank_of_isDecimal (written.isDecimal c mem)

/-! ## What is no number -/

theorem isNumeral_of_isDecimal {c : Char} (decimal : isDecimal c = true) : isNumeral c = true := by
  simp only [isDecimal, Bool.or_eq_true, beq_iff_eq] at decimal
  rcases decimal with ((((digit | rfl) | rfl) | rfl) | rfl) | rfl
  · simp [isNumeral, Char.isAlphanum, digit]
  all_goals rfl

theorem isNumeral_of_isAlphanum {c : Char} (letter : c.isAlphanum = true) : isNumeral c = true := by
  rw [isNumeral, letter]
  rfl

/-- A digit of any base is a letter or a digit of ASCII. -/
theorem isNumeral_of_digitValue? {base value : Nat} {c : Char}
    (digit : digitValue? base c = some value) : isNumeral c = true := by
  have word : c.isAlphanum = (c.isUpper || c.isLower || c.isDigit) := rfl
  apply isNumeral_of_isAlphanum
  rw [word, Bool.or_eq_true, Bool.or_eq_true]
  by_cases number : '0' ≤ c ∧ c ≤ '9'
  · exact .inr (Bool.and_eq_true_iff.mpr ⟨decide_eq_true number.1, decide_eq_true number.2⟩)
  · by_cases lower : 'a' ≤ c ∧ c ≤ 'z'
    · exact .inl (.inr (Bool.and_eq_true_iff.mpr ⟨decide_eq_true lower.1, decide_eq_true lower.2⟩))
    · by_cases upper : 'A' ≤ c ∧ c ≤ 'Z'
      · exact .inl (.inl (decide_eq_true upper))
      · simp only [digitValue?, if_neg number, if_neg lower, if_neg upper, Nat.lt_irrefl] at digit
        cases digit

/-- Among digits of a base nothing else can be read. -/
theorem readDigits?_eq_none {base : Nat} {digits : List Char} {c : Char} (mem : c ∈ digits)
    (other : digitValue? base c = none) (start : Binary64) :
    readDigits? base start digits = none := by
  rw [readDigits?]
  induction digits generalizing start with
  | nil => cases mem
  | cons first rest ih =>
    rw [List.foldlM_cons]
    rcases List.mem_cons.mp mem with rfl | further
    · rw [other]
      rfl
    · cases digitValue? base first with
      | none => rfl
      | some value => exact ih further _

/-- What is no numeral is no digit of any base. -/
theorem ofBase_eq_nan {digits : List Char} {c : Char} (mem : c ∈ digits)
    (other : isNumeral c = false) (base : Nat) : ofBase base digits = .nan := by
  have noDigit : digitValue? base c = none := by
    cases digit : digitValue? base c with
    | none => rfl
    | some value =>
      rw [isNumeral_of_digitValue? digit] at other
      cases other
  have notEmpty : ¬digits.isEmpty = true := mt List.isEmpty_iff.mp (List.ne_nil_of_mem mem)
  rw [ofBase, if_neg notEmpty, readDigits?_eq_none mem noDigit]
  rfl

/-- Where anything but letters, digits, points and signs is in a text, it is no number. -/
theorem ofTrimmed_eq_nan {cs : List Char} {c : Char} (mem : c ∈ cs)
    (other : isNumeral c = false) : ofTrimmed cs = .nan := by
  have outside {part : List Char} (all : ∀ c ∈ part, isNumeral c = true) : c ∉ part := by
    intro there
    rw [all c there] at other
    cases other
  have notNamed : cs ∉ infinities := by
    intro named
    have all : infinities.all (fun name => name.all isNumeral) = true := by decide
    exact outside (List.all_eq_true.mp (List.all_eq_true.mp all cs named)) mem
  rw [ofTrimmed_of_not_named (List.ne_nil_of_mem mem) notNamed]
  cases taken : takeBase? cs with
  | some found =>
    obtain ⟨base, digits⟩ := found
    obtain ⟨mark, isMark, rfl⟩ := exists_mark_of_takeBase? taken
    have front : ∀ mark ∈ marks, ['0', mark].all isNumeral = true := List.all_eq_true.mp rfl
    have there : c ∈ digits := by
      rcases List.mem_append.mp (show c ∈ ['0', mark] ++ digits from mem) with early | late
      · exact absurd early (outside (List.all_eq_true.mp (front mark isMark)))
      · exact late
    exact ofBase_eq_nan there other base
  | none =>
    have unread : read? cs = none := by
      cases read : read? cs with
      | none => rfl
      | some d =>
        have all := (read?_eq_some_iff.mp read).isDecimal
        exact absurd mem (outside fun c there => isNumeral_of_isDecimal (all c there))
    rw [unread]
    rfl

/-- Nor is it one with blanks around it, unless these are all that is in the text. -/
theorem ofText_eq_nan {text : String} {c : Char} (mem : c ∈ text.toList)
    (visible : Text.isBlank c = false) (other : isNumeral c = false) : ofText text = .nan :=
  ofTrimmed_eq_nan (Text.mem_trimBlank mem visible) other

end Number

end Inlay
