import Inlay.Proofs.Number.Closest
import Inlay.Proofs.Number.Further
import Inlay.Proofs.Number.Numeral
import Inlay.Value.Basic
import Mathlib.Data.Nat.Digits.Defs

/-!
# Digits of base sixteen, eight and two

Behind its mark a text of digits counts as the number that they spell, but the reader rounds with
every digit. All digits behind the one with which the number reaches the limit of exact numbers
therefore count as zeros (`exists_reaching`, `foldl_reaching`), and this is not what the whole
number rounds to where the number up to that digit is in the middle between two: to tell the nearer
one, the digits behind it would have to be looked at (`Value.toNumber_based`).
-/

namespace Inlay

namespace Number

/-! ## Digits and what they spell -/

/-- Whether a character stands for a digit of a base of at most sixteen, in either case of the
letters. -/
def IsDigit (base value : Nat) (c : Char) : Prop :=
  value < base ∧ (c = Nat.digitChar value ∨ c = (Nat.digitChar value).toUpper)

instance (base value : Nat) (c : Char) : Decidable (IsDigit base value c) :=
  inferInstanceAs (Decidable (_ ∧ _))

/-- The characters that are read as digits of base sixteen. -/
theorem digitValue?_sixteen {value : Nat} {c : Char} :
    digitValue? 16 c = some value ↔ IsDigit 16 value c := by
  constructor
  · intro read
    have ascii : c.toNat < 103 := by
      have atMost {d : Char} (h : c ≤ d) : c.toNat ≤ d.toNat := UInt32.le_iff_toNat_le.mp h
      simp only [digitValue?] at read
      split at read
      · rename_i digit
        exact Nat.lt_of_le_of_lt (atMost digit.2) (by decide)
      · split at read
        · have least : 'a'.toNat = 97 := rfl
          split at read
          · omega
          · cases read
        · split at read
          · rename_i upper
            exact Nat.lt_of_le_of_lt (atMost upper.2) (by decide)
          · cases read
    have all : ∀ n < 103, ∀ value ∈ digitValue? 16 (Char.ofNat n), value < 16 ∧
        (Char.ofNat n = Nat.digitChar value ∨ Char.ofNat n = (Nat.digitChar value).toUpper) := by
      decide +kernel
    have found := all c.toNat ascii value
    rw [Char.ofNat_toNat] at found
    exact found read
  · have all : ∀ value < 16, digitValue? 16 (Nat.digitChar value) = some value ∧
        digitValue? 16 (Nat.digitChar value).toUpper = some value := by decide +kernel
    rintro ⟨small, rfl | rfl⟩
    · exact (all value small).1
    · exact (all value small).2

/-- A character is read as a digit just if it stands for one: the digits of a base are those of base
sixteen that are less than the base. -/
theorem digitValue?_eq_some_iff {base value : Nat} {c : Char} (most : base ≤ 16) :
    digitValue? base c = some value ↔ IsDigit base value c := by
  have restricted : digitValue? base c = some value ↔
      value < base ∧ digitValue? 16 c = some value := by
    simp only [digitValue?]
    split
    · simp; omega
    · split
      · simp; omega
      · split
        · simp; omega
        · simp
  rw [restricted, digitValue?_sixteen, IsDigit, IsDigit]
  exact ⟨fun all => ⟨all.1, all.2.2⟩, fun all => ⟨all.1, Nat.lt_of_lt_of_le all.1 most, all.2⟩⟩

/-- The number that digits of a base spell, the highest one first. -/
def spelled (base : Nat) (values : List Nat) : Nat :=
  Nat.ofDigits base values.reverse

theorem spelled_nil (base : Nat) : spelled base [] = 0 :=
  Nat.ofDigits_nil

theorem spelled_append (base : Nat) (front rest : List Nat) :
    spelled base (front ++ rest) = spelled base front * base ^ rest.length + spelled base rest := by
  rw [spelled, List.reverse_append, Nat.ofDigits_append, List.length_reverse, Nat.add_comm,
    Nat.mul_comm]
  rfl

theorem spelled_snoc (base : Nat) (values : List Nat) (last : Nat) :
    spelled base (values ++ [last]) = spelled base values * base + last := by
  have single : spelled base [last] = last := Nat.ofDigits_singleton
  rw [spelled_append, single, List.length_singleton, Nat.pow_one]

/-- Digits of a base spell less than the next power of it. -/
theorem spelled_lt {base : Nat} {values : List Nat} (some : 1 < base)
    (digits : ∀ value ∈ values, value < base) : spelled base values < base ^ values.length := by
  rw [← List.length_reverse]
  exact Nat.ofDigits_lt_base_pow_length some fun value mem => digits value (List.mem_reverse.mp mem)

/-! ## Reading digit by digit -/

/-- The digits of a number up to the one with which it reaches the limit of exact numbers, and those
behind it. -/
structure Reaching (base : Nat) (front rest : List Nat) : Prop where
  below : spelled base front.dropLast < exactLimit
  reached : rest ≠ [] → exactLimit ≤ spelled base front

/-- Digits spell less than the limit, or there is one with which they reach it. -/
theorem exists_reaching (base : Nat) (values : List Nat) :
    ∃ front rest, front ++ rest = values ∧ Reaching base front rest := by
  induction values using List.reverseRecOn with
  | nil => exact ⟨[], [], rfl, twoPow_pos precision, fun some => absurd rfl some⟩
  | append_singleton values last ih =>
    obtain ⟨front, rest, rfl, below, reached⟩ := ih
    by_cases large : exactLimit ≤ spelled base front
    · exact ⟨front, rest ++ [last], (List.append_assoc ..).symm, below, fun _ => large⟩
    · obtain rfl : rest = [] := by_contra fun some => large (reached some)
      refine ⟨front ++ [last], [], by rw [List.append_nil, List.append_nil], ?_,
        fun some => absurd rfl some⟩
      rw [List.dropLast_concat]
      exact Nat.lt_of_not_le large

/-- The reader takes digits for the number that they and those before them spell. -/
theorem readDigits?_of_digits {base : Nat} (most : base ≤ 16) {values : List Nat}
    {digits : List Char} (digit : List.Forall₂ (IsDigit base) values digits) (start : Binary64) :
    readDigits? base start digits = some (values.foldl (Binary64.timesPlus · base) start) := by
  rw [readDigits?]
  induction digit generalizing start with
  | nil => rfl
  | cons first _ ih =>
    rw [List.foldlM_cons, (digitValue?_eq_some_iff most).mpr first]
    exact ih _

theorem ofBase_of_digits {base : Nat} (most : base ≤ 16) {values : List Nat} {digits : List Char}
    (some : values ≠ []) (digit : List.Forall₂ (IsDigit base) values digits) :
    ofBase base digits = values.foldl (Binary64.timesPlus · base) (.ofNat 0) := by
  have notEmpty : ¬digits.isEmpty = true := by
    rintro none
    rw [List.isEmpty_iff.mp none, List.forall₂_nil_right_iff] at digit
    exact some digit
  rw [ofBase, if_neg notEmpty]
  exact congrArg (Option.getD · .nan) (readDigits?_of_digits most digit (.ofNat 0))

theorem lt_of_digits {base : Nat} {values : List Nat} {digits : List Char}
    (digit : List.Forall₂ (IsDigit base) values digits) : ∀ value ∈ values, value < base := by
  induction digit with
  | nil => nofun
  | cons first _ ih => exact List.forall_mem_cons.mpr ⟨first.1, ih⟩

section Binary

variable {base places : Nat} (binary : base = twoPow places)
include binary

/-- Up to the limit the reader knows the number that was spelled so far. -/
theorem foldl_timesPlus_of_le {values : List Nat} (small : spelled base values ≤ exactLimit) :
    values.foldl (Binary64.timesPlus · base) (.ofNat 0) = .ofNat (spelled base values) := by
  induction values using List.reverseRecOn with
  | nil => rw [spelled_nil, List.foldl_nil]
  | append_singleton values last ih =>
    rw [spelled_snoc] at small ⊢
    have positive : 0 < base := binary ▸ twoPow_pos places
    have shorter : spelled base values ≤ exactLimit := by
      have fewer := Nat.le_mul_of_pos_right (spelled base values) positive
      omega
    rw [List.foldl_append, ih shorter, List.foldl_cons, List.foldl_nil,
      Binary64.ofNat_timesPlus shorter]

/-- Behind the limit it takes every digit for zero. -/
theorem foldl_timesPlus_of_ge {n : Nat} (large : exactLimit ≤ n) {rest : List Nat}
    (digits : ∀ value ∈ rest, value < base) :
    rest.foldl (Binary64.timesPlus · base) (.ofNat n) = .ofNat (n * base ^ rest.length) := by
  subst binary
  induction rest generalizing n with
  | nil => rw [List.foldl_nil, List.length_nil, Nat.pow_zero, Nat.mul_one]
  | cons first rest ih =>
    obtain ⟨digit, digits⟩ := List.forall_mem_cons.mp digits
    rw [List.foldl_cons, Binary64.ofNat_timesPlus_twoPow large digit,
      ih (Binary64.exactLimit_le_mul large places) digits, List.length_cons, Nat.pow_succ',
      Nat.mul_assoc]

/-- So it takes digits for those up to the one that reaches the limit, with zeros behind. -/
theorem foldl_reaching {front rest : List Nat} (reaching : Reaching base front rest)
    (digits : ∀ value ∈ rest, value < base) :
    (front ++ rest).foldl (Binary64.timesPlus · base) (.ofNat 0) =
      .ofNat (spelled base front * base ^ rest.length) := by
  have reads : front.foldl (Binary64.timesPlus · base) (.ofNat 0) =
      .ofNat (spelled base front) := by
    rcases List.eq_nil_or_concat' front with rfl | ⟨init, last, rfl⟩
    · rw [spelled_nil, List.foldl_nil]
    · have below := reaching.below
      rw [List.dropLast_concat] at below
      rw [List.foldl_append, foldl_timesPlus_of_le binary (Nat.le_of_lt below), List.foldl_cons,
        List.foldl_nil, Binary64.ofNat_timesPlus (Nat.le_of_lt below), spelled_snoc]
  rw [List.foldl_append, reads]
  by_cases none : rest = []
  · rw [none, List.foldl_nil, List.length_nil, Nat.pow_zero, Nat.mul_one]
  · exact foldl_timesPlus_of_ge binary (reaching.reached none) digits

/-- Taking digits behind the limit for zeros is right, unless the number up to there is in the
middle between two. -/
theorem ofNat_reaching_iff {front rest : List Nat} (reaching : Reaching base front rest)
    (some : 1 < base) (digits : ∀ value ∈ rest, value < base) :
    Binary64.ofNat (spelled base front * base ^ rest.length) =
        .ofNat (spelled base (front ++ rest)) ↔
      ¬(Tied precision (spelled base front) ∧ spelled base rest ≠ 0 ∧
        (Binary64.ofNat (spelled base front * base ^ rest.length)).isFinite = true) := by
  rw [spelled_append]
  by_cases none : rest = []
  · subst none
    rw [spelled_nil, Nat.add_zero]
    exact iff_of_true rfl fun tied => tied.2.1 rfl
  · have power : base ^ rest.length = twoPow (places * rest.length) := by
      rw [binary]
      exact (Nat.pow_mul 2 places rest.length).symm
    have small := spelled_lt some digits
    rw [power] at small ⊢
    exact Binary64.ofNat_append_iff (reaching.reached none) small

end Binary

/-! ## Marks -/

/-- The bases that have marks. -/
def bases : List (Nat × Char) :=
  [(16, 'x'), (16, 'X'), (8, 'o'), (8, 'O'), (2, 'b'), (2, 'B')]

section Marked

variable {base : Nat} {mark : Char} (marked : (base, mark) ∈ bases)
include marked

theorem mem_marks_of_mem_bases : mark ∈ marks :=
  List.mem_map_of_mem (f := Prod.snd) marked

theorem binary_of_mem_bases : (∃ places, base = twoPow places) ∧ 1 < base ∧ base ≤ 16 := by
  have all : ∀ found ∈ bases,
      (∃ places < 5, found.1 = twoPow places) ∧ 1 < found.1 ∧ found.1 ≤ 16 := by decide
  obtain ⟨⟨places, -, binary⟩, bounds⟩ := all _ marked
  exact ⟨⟨places, binary⟩, bounds⟩

theorem takeBase?_of_mem_bases (digits : List Char) :
    takeBase? ('0' :: mark :: digits) = some (base, digits) := by
  simp only [bases, List.mem_cons, Prod.mk.injEq, List.not_mem_nil, or_false] at marked
  rcases marked with ⟨rfl, rfl⟩ | ⟨rfl, rfl⟩ | ⟨rfl, rfl⟩ | ⟨rfl, rfl⟩ | ⟨rfl, rfl⟩ | ⟨rfl, rfl⟩ <;>
    rfl

/-- A mark with digits behind it ends with no blank if the digits do not. -/
theorem visible_getLast? {digits : List Char}
    (ends : ∀ c ∈ digits.getLast?, Text.isBlank c = false) (front : List Char) :
    ∀ c ∈ (front ++ mark :: digits).getLast?, Text.isBlank c = false := by
  rw [List.getLast?_append_of_ne_nil _ (List.cons_ne_nil mark digits)]
  cases digits with
  | cons first rest => rwa [List.getLast?_cons_cons]
  | nil =>
    have all : marks.all (!Text.isBlank ·) = true := by decide
    rintro c ⟨⟩
    simpa using List.all_eq_true.mp all mark (mem_marks_of_mem_bases marked)

variable {before digits after : List Char} (blank : ∀ c ∈ before ++ after, Text.isBlank c = true)
  (ends : ∀ c ∈ digits.getLast?, Text.isBlank c = false)
include blank ends

/-- A text with a mark, apart from blanks around it, counts as the digits behind the mark. -/
theorem ofText_based :
    ofText (String.ofList (before ++ '0' :: mark :: digits ++ after)) = ofBase base digits := by
  have starts : ∀ c ∈ ('0' :: mark :: digits).head?, Text.isBlank c = false := by
    rintro c ⟨⟩
    decide
  rw [ofText, String.toList_ofList,
    Text.trimBlank_append blank starts (visible_getLast? marked ends ['0']),
    ofTrimmed_of_not_named (List.cons_ne_nil _ _) (by simp [infinities]),
    takeBase?_of_mem_bases marked]
  rfl

/-- With a sign before the mark it is no number. -/
theorem ofText_signed {sign : Char} (isSign : sign ∈ ['+', '-']) :
    ofText (String.ofList (before ++ sign :: '0' :: mark :: digits ++ after)) = .nan := by
  have starts : ∀ c ∈ (sign :: '0' :: mark :: digits).head?, Text.isBlank c = false := by
    have all : ['+', '-'].all isDecimal = true := rfl
    rintro c ⟨⟩
    exact isBlank_of_isDecimal (List.all_eq_true.mp all sign isSign)
  have unread : Decimal.read? (sign :: '0' :: mark :: digits) = none := by
    by_contra read
    obtain ⟨d, read⟩ := Option.ne_none_iff_exists'.mp read
    have decimal := (Decimal.read?_eq_some_iff.mp read).isDecimal mark (by simp)
    rw [isDecimal_of_mem_marks (mem_marks_of_mem_bases marked)] at decimal
    cases decimal
  have unmarked : takeBase? (sign :: '0' :: mark :: digits) = none := by
    simp only [List.mem_cons, List.not_mem_nil, or_false] at isSign
    rcases isSign with rfl | rfl <;> rfl
  rw [ofText, String.toList_ofList,
    Text.trimBlank_append blank starts (visible_getLast? marked ends [sign, '0']),
    ofTrimmed_of_not_named (List.cons_ne_nil _ _) (by simp [infinities]), unmarked, unread]
  rfl

end Marked

end Number

namespace Value

open Number

/-- Digits behind the mark of their base, in either case of the letters and with any blanks around
them, count as the number that they spell up to the digit with which it reaches the limit of exact
numbers, with zeros for the digits behind that one. This is the number nearest to all that they
spell, unless the digits up to there spell a number in the middle between two that would go to the
lower one, anything but zeros follows, and the result is finite. Where there are no digits, or any
other character is among them, or a sign stands before the mark, the text is not a number. -/
theorem toNumber_based {base : Nat} {mark : Char} {before digits after : List Char}
    (marked : (base, mark) ∈ bases) (blank : ∀ c ∈ before ++ after, Text.isBlank c = true)
    (ends : ∀ c ∈ digits.getLast?, Text.isBlank c = false) :
    let number := (string (String.ofList (before ++ '0' :: mark :: digits ++ after))).toNumber
    (∀ values ≠ [], List.Forall₂ (IsDigit base) values digits →
      (Binary64.ofNat (spelled base values)).NearestTo (spelled base values) ∧
      (∃ front rest, front ++ rest = values ∧ Reaching base front rest) ∧
      ∀ front rest, front ++ rest = values → Reaching base front rest →
        number = .ofNat (spelled base front * base ^ rest.length) ∧
        (number = .ofNat (spelled base values) ↔
          ¬(Tied precision (spelled base front) ∧ spelled base rest ≠ 0 ∧
            number.isFinite = true))) ∧
    ((digits = [] ∨ ∃ c ∈ digits, ∀ value, ¬IsDigit base value c) → number = .nan) ∧
    ∀ sign ∈ ['+', '-'],
      (string (String.ofList (before ++ sign :: '0' :: mark :: digits ++ after))).toNumber =
        .nan := by
  intro number
  have counts : number = ofBase base digits := ofText_based marked blank ends
  obtain ⟨⟨places, binary⟩, some, most⟩ := binary_of_mem_bases marked
  refine ⟨?_, ?_, fun sign => ofText_signed marked blank ends⟩
  · intro values notEmpty digit
    refine ⟨Binary64.ofNat_nearestTo _, exists_reaching base values, ?_⟩
    rintro front rest rfl reaching
    have bounded := (List.forall_mem_append.mp (lt_of_digits digit)).2
    rw [counts, ofBase_of_digits most notEmpty digit, foldl_reaching binary reaching bounded]
    exact ⟨rfl, ofNat_reaching_iff binary reaching some bounded⟩
  · rw [counts]
    rintro (rfl | ⟨c, mem, other⟩)
    · rfl
    · have unread : digitValue? base c = none := by
        by_contra digit
        obtain ⟨value, digit⟩ := Option.ne_none_iff_exists'.mp digit
        exact other value ((digitValue?_eq_some_iff most).mp digit)
      rw [ofBase, readDigits?_eq_none mem unread]
      split <;> rfl

/-- Sixty-five bits that are all set, written in both cases of the letters and with a blank on
either side, are rounded once: they go to the power of two above them. -/
theorem toNumber_based_sixteen :
    (string " 0X1ffffffffFFFFFFFF\n").toNumber = .ofNat 0x1ffffffffffffffff := by
  obtain ⟨spells, -, -⟩ := @toNumber_based 16 'X' [' '] "1ffffffffFFFFFFFF".toList ['\n']
    (by decide) (List.all_eq_true.mp (by decide)) (by rintro c ⟨⟩; decide)
  obtain ⟨-, -, counts⟩ := spells (1 :: List.replicate 16 15) (by decide) (by decide)
  obtain ⟨-, once⟩ := counts (1 :: List.replicate 14 15) [15, 15] rfl
    ⟨by decide +kernel, fun _ => by decide +kernel⟩
  exact once.mpr fun tied => absurd tied.1 (by decide +kernel)

/-- Two to the power of fifty-three and one more is in the middle between two numbers and goes down
to the even one; with one behind it in base sixteen it is nearer to the one above, and goes down
all the same. -/
theorem toNumber_based_rounds_twice :
    (string "0x200000000000011").toNumber = .ofNat 144115188075855872 ∧
      (string "0x200000000000011").toNumber ≠ .ofNat 0x200000000000011 := by
  decide +kernel

end Value

end Inlay
