import Inlay.Number.Decimal

/-!
# The texts of decimals

`Decimal.Written` says which texts stand for a decimal, and for which one: digits, with at most one
point among or around them, with perhaps a sign in front and an exponent behind. The reader finds
just these (`read?_eq_some_iff`), whatever it looks for first.
-/

namespace Inlay.Decimal

/-- A sign, true for minus. A plus may be left out. -/
inductive Sign : Bool → List Char → Prop
  | none : Sign false []
  | plus : Sign false ['+']
  | minus : Sign true ['-']

/-- Digits behind a point. Without digits the point may be left out. -/
inductive Fraction : List Char → List Char → Prop
  | none : Fraction [] []
  | point {digits : List Char} : (∀ c ∈ digits, c.isDigit = true) → Fraction digits ('.' :: digits)

/-- The exponent behind a decimal. Zero may be left out. -/
inductive Exponent : Int → List Char → Prop
  | none : Exponent 0 []
  | marked {mark : Char} {negative : Bool} {sign digits : List Char} : mark = 'e' ∨ mark = 'E' →
      Sign negative sign → isDigits digits = true →
      Exponent (if negative then -digitsValue digits else digitsValue digits)
        (mark :: (sign ++ digits))

/-- The texts of a decimal. -/
inductive Written : Decimal → List Char → Prop
  | parts {negative : Bool} {sign whole fraction behind ending : List Char} {exponent : Int} :
      Sign negative sign → (∀ c ∈ whole, c.isDigit = true) → Fraction fraction behind →
      whole ++ fraction ≠ [] → Exponent exponent ending →
      Written ⟨negative, digitsValue (whole ++ fraction), exponent - fraction.length⟩
        (sign ++ (whole ++ (behind ++ ending)))

/-! ## What is read is written -/

theorem isDigit_of_mem_takeWhile {cs : List Char} {c : Char}
    (mem : c ∈ cs.takeWhile Char.isDigit) : c.isDigit = true :=
  List.all_eq_true.mp (List.all_takeWhile) c mem

theorem sign_takeSign (cs : List Char) :
    ∃ sign, Sign (takeSign cs).1 sign ∧ cs = sign ++ (takeSign cs).2 := by
  rw [takeSign.eq_def]
  split
  · exact ⟨['-'], .minus, rfl⟩
  · exact ⟨['+'], .plus, rfl⟩
  · exact ⟨[], .none, rfl⟩

theorem fraction_takeFraction (cs : List Char) :
    ∃ behind, Fraction (takeFraction cs).1 behind ∧ cs = behind ++ (takeFraction cs).2 := by
  rw [takeFraction.eq_def]
  split
  · rename_i rest
    refine ⟨'.' :: rest.takeWhile Char.isDigit, .point fun c => isDigit_of_mem_takeWhile, ?_⟩
    rw [List.cons_append, List.takeWhile_append_dropWhile]
  · exact ⟨[], .none, rfl⟩

theorem exponent_of_readExponent? {cs : List Char} {exponent : Int}
    (read : readExponent? cs = some exponent) : Exponent exponent cs := by
  cases cs with
  | nil =>
    cases read
    exact .none
  | cons mark rest =>
    simp only [readExponent?] at read
    split at read
    · rename_i isMark
      split at read
      · rename_i digits
        obtain ⟨sign, signed, same⟩ := sign_takeSign rest
        obtain rfl := Option.some.inj read
        rw [Bool.or_eq_true, beq_iff_eq, beq_iff_eq] at isMark
        have whole := Exponent.marked isMark signed digits
        rwa [← same] at whole
      · cases read
    · cases read

theorem written_of_read? {cs : List Char} {d : Decimal} (read : read? cs = some d) :
    Written d cs := by
  obtain ⟨sign, signed, unsigned⟩ := sign_takeSign cs
  obtain ⟨behind, pointed, rest⟩ :=
    fraction_takeFraction ((takeSign cs).2.dropWhile Char.isDigit)
  simp only [read?] at read
  split at read
  · cases read
  · rename_i some
    obtain ⟨exponent, found, rfl⟩ := Option.map_eq_some_iff.mp read
    have run : ∀ c ∈ (takeSign cs).2.takeWhile Char.isDigit, c.isDigit = true :=
      fun c => isDigit_of_mem_takeWhile
    have whole := Written.parts signed run pointed (by simpa using some)
      (exponent_of_readExponent? found)
    rwa [← rest, List.takeWhile_append_dropWhile, ← unsigned] at whole

/-! ## What is written is read -/

/-- A run of digits is taken whole where no further digit follows. -/
theorem span_of_digits {digits after : List Char} (all : ∀ c ∈ digits, c.isDigit = true)
    (stops : ∀ c ∈ after.head?, c.isDigit = false) :
    (digits ++ after).takeWhile Char.isDigit = digits ∧
      (digits ++ after).dropWhile Char.isDigit = after := by
  rw [List.takeWhile_append_of_pos all, List.dropWhile_append_of_pos all]
  cases after with
  | nil => exact ⟨List.append_nil digits, rfl⟩
  | cons c after => simp [stops c rfl]

theorem takeSign_of_sign {negative : Bool} {sign rest : List Char} (signed : Sign negative sign)
    (unsigned : ∀ c ∈ rest.head?, c ≠ '-' ∧ c ≠ '+') :
    takeSign (sign ++ rest) = (negative, rest) := by
  cases signed with
  | none =>
    rw [List.nil_append, takeSign.eq_def]
    split
    · exact absurd rfl (unsigned '-' rfl).1
    · exact absurd rfl (unsigned '+' rfl).2
    · rfl
  | plus => rfl
  | minus => rfl

theorem takeFraction_of_fraction {fraction behind ending : List Char}
    (pointed : Fraction fraction behind)
    (stops : ∀ c ∈ ending.head?, c.isDigit = false ∧ c ≠ '.') :
    takeFraction (behind ++ ending) = (fraction, ending) := by
  cases pointed with
  | none =>
    rw [List.nil_append, takeFraction.eq_def]
    split
    · exact absurd rfl (stops '.' rfl).2
    · rfl
  | point all =>
    obtain ⟨run, rest⟩ := span_of_digits all fun c mem => (stops c mem).1
    rw [List.cons_append, takeFraction, run, rest]

theorem unsigned_of_isDigit {c : Char} (digit : c.isDigit = true) : c ≠ '-' ∧ c ≠ '+' := by
  constructor <;> (rintro rfl; cases digit)

theorem unsigned_of_isDigits {cs : List Char} (digits : isDigits cs = true) :
    ∀ c ∈ cs.head?, c ≠ '-' ∧ c ≠ '+' :=
  fun c mem => unsigned_of_isDigit ((isDigits_iff.mp digits).2 c (List.mem_of_mem_head? mem))

theorem readExponent?_of_exponent {exponent : Int} {ending : List Char}
    (marked : Exponent exponent ending) : readExponent? ending = some exponent := by
  cases marked with
  | none => rfl
  | @marked mark negative sign digits isMark signed digits =>
    have found : (mark == 'e' || mark == 'E') = true := by
      rw [Bool.or_eq_true, beq_iff_eq, beq_iff_eq]
      exact isMark
    simp only [readExponent?, found, if_true, takeSign_of_sign signed (unsigned_of_isDigits digits),
      digits]

/-- An exponent begins with its mark. -/
theorem Exponent.stops {exponent : Int} {ending : List Char} (marked : Exponent exponent ending) :
    ∀ c ∈ ending.head?, c.isDigit = false ∧ c ≠ '.' := by
  intro c mem
  cases marked with
  | none => cases mem
  | marked isMark =>
    obtain rfl := Option.some.inj mem
    rcases isMark with rfl | rfl <;> decide

theorem Fraction.stops {fraction behind : List Char} (pointed : Fraction fraction behind)
    {ending : List Char} (stops : ∀ c ∈ ending.head?, c.isDigit = false ∧ c ≠ '.') :
    ∀ c ∈ (behind ++ ending).head?, c.isDigit = false := by
  intro c mem
  cases pointed with
  | none => exact (stops c mem).1
  | point =>
    obtain rfl := Option.some.inj mem
    rfl

/-- Digits or a point stand behind a sign. -/
theorem Fraction.unsigned {whole fraction behind : List Char} (pointed : Fraction fraction behind)
    (all : ∀ c ∈ whole, c.isDigit = true) (some : whole ++ fraction ≠ []) (ending : List Char) :
    ∀ c ∈ (whole ++ (behind ++ ending)).head?, c ≠ '-' ∧ c ≠ '+' := by
  intro c mem
  cases whole with
  | nil =>
    cases pointed with
    | none => exact absurd rfl some
    | point =>
      obtain rfl := Option.some.inj mem
      decide
  | cons first others =>
    obtain rfl := Option.some.inj mem
    exact unsigned_of_isDigit (all _ List.mem_cons_self)

theorem read?_of_written {d : Decimal} {cs : List Char} (written : Written d cs) :
    read? cs = some d := by
  obtain @⟨_, _, whole, fraction, _, _, _, signed, all, pointed, some, marked⟩ := written
  obtain ⟨run, rest⟩ := span_of_digits all (pointed.stops marked.stops)
  have notEmpty : (whole.isEmpty && fraction.isEmpty) = false := by
    rw [← Bool.not_eq_true, Bool.and_eq_true, List.isEmpty_iff, List.isEmpty_iff,
      ← List.append_eq_nil_iff]
    exact some
  simp only [read?, takeSign_of_sign signed (pointed.unsigned all some _), run, rest,
    takeFraction_of_fraction pointed marked.stops, notEmpty, Bool.false_eq_true, if_false,
    readExponent?_of_exponent marked, Option.map_some]

/-- The reader finds the decimal that a text is written for, and no text is read otherwise. -/
theorem read?_eq_some_iff {cs : List Char} {d : Decimal} : read? cs = some d ↔ Written d cs :=
  ⟨written_of_read?, read?_of_written⟩

end Inlay.Decimal
