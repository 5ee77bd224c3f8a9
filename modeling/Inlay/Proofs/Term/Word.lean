import Inlay.Proofs.Number.Decimal
import Inlay.Term.Operator
import Inlay.Term.Word

/-!
# What a token can be

The texts of operands by their classes, `Literal` and `IsName`, said without the order in which the
classes are tried. `Word.read?` finds exactly these: no text belongs to two classes, and every text
of a number can be read as one. Operators and punctuation are no words, and none of all these is
blank.
-/

namespace Inlay

/-! ## The texts of numbers -/

namespace Word

open Decimal

/-- A text without a sign is cut at its first point. -/
theorem exists_digits_of_point (unsigned : List Char)
    (whole : unsigned.dropWhile (· != '.') = [] → isDigits unsigned = true)
    (parts : ∀ point fraction, unsigned.dropWhile (· != '.') = point :: fraction →
      isDigits (unsigned.takeWhile (· != '.')) = true ∧ isDigits fraction = true) :
    ∃ before after : List Char, unsigned = before ++ after ∧ isDigits before = true ∧
      (after = [] ∨ ∃ digits, after = '.' :: digits ∧ isDigits digits = true) := by
  have halves := List.takeWhile_append_dropWhile (p := (· != '.')) (l := unsigned)
  have stops := List.head?_dropWhile_not (· != '.') unsigned
  cases found : unsigned.dropWhile (· != '.') with
  | nil => exact ⟨unsigned, [], (List.append_nil unsigned).symm, whole found, .inl rfl⟩
  | cons point fraction =>
    simp only [found, List.head?_cons, bne_eq_false_iff_eq] at stops halves
    subst stops
    obtain ⟨before, after⟩ := parts _ fraction found
    exact ⟨_, _, halves.symm, before, .inr ⟨fraction, rfl, after⟩⟩

/-- A text of a number is digits with perhaps a point and more digits after them and perhaps a
minus in front. -/
theorem exists_digits_of_isNumber {cs : List Char} (number : isNumber cs = true) :
    ∃ sign whole fraction : List Char, cs = sign ++ (whole ++ fraction) ∧
      (sign = [] ∨ sign = ['-']) ∧ isDigits whole = true ∧
      (fraction = [] ∨ ∃ digits, fraction = '.' :: digits ∧ isDigits digits = true) := by
  by_cases minus : cs.head? = some '-'
  · obtain ⟨rest, rfl⟩ : ∃ rest, cs = '-' :: rest := by
      cases cs with
      | nil => cases minus
      | cons c rest => exact ⟨rest, by rw [Option.some.inj minus]⟩
    obtain ⟨whole, fraction, rfl, digits⟩ := exists_digits_of_point rest
      (fun found => by simpa [isNumber, found] using number)
      (fun point fraction found => by simpa [isNumber, found] using number)
    exact ⟨['-'], whole, fraction, rfl, .inr rfl, digits⟩
  · obtain ⟨whole, fraction, rfl, digits⟩ := exists_digits_of_point cs
      (fun found => by simpa [isNumber, minus, found] using number)
      (fun point fraction found => by simpa [isNumber, minus, found] using number)
    exact ⟨[], whole, fraction, rfl, .inl rfl, digits⟩

/-- Every text of a number can be read as a decimal. -/
theorem read?_of_isNumber {cs : List Char} (number : isNumber cs = true) :
    ∃ d, Decimal.read? cs = some d := by
  obtain ⟨sign, whole, fraction, rfl, minus, digits, point⟩ := exists_digits_of_isNumber number
  obtain ⟨notEmpty, all⟩ := isDigits_iff.mp digits
  obtain ⟨negative, signed⟩ : ∃ negative, Sign negative sign := by
    rcases minus with rfl | rfl
    · exact ⟨false, .none⟩
    · exact ⟨true, .minus⟩
  obtain ⟨after, pointed⟩ : ∃ after, Fraction after fraction := by
    rcases point with rfl | ⟨after, rfl, more⟩
    · exact ⟨[], .none⟩
    · exact ⟨after, .point (isDigits_iff.mp more).2⟩
  have written :=
    Written.parts signed all pointed (List.append_ne_nil_of_left_ne_nil notEmpty after) .none
  rw [List.append_nil] at written
  exact ⟨_, read?_eq_some_iff.mpr written⟩

/-- The double-precision number nearest to the decimal that a text is. -/
def numeral (text : String) : Binary64 :=
  ((Decimal.read? text.toList).map Decimal.nearest).getD .nan

/-- What is written as a number is one. -/
theorem numeral_ne_nan {text : String} (number : isNumber text.toList = true) :
    numeral text ≠ .nan := by
  obtain ⟨d, read⟩ := read?_of_isNumber number
  rw [numeral, read]
  exact d.nearest_ne_nan

end Word

/-! ## The classes of operands -/

/-- An operand of one token that is no name: a number, a text between two equal quotes, or one of
the two truth values. -/
inductive Literal : String → Term → Prop
  | number {text : String} : Word.isNumber text.toList = true →
      Literal text (.number (Word.numeral text))
  | quoted {text : String} {quote : Char} {inner : List Char} : Token.isQuote quote = true →
      text.toList = quote :: (inner ++ [quote]) → Literal text (.string (String.ofList inner))
  | truth {text : String} {b : Bool} : text = (if b then "true" else "false") →
      Literal text (.boolean b)

/-- A name, perhaps a dotted one. The truth values are none. -/
def IsName (text : String) : Prop :=
  Word.isName text.toList = true ∧ text ≠ "true" ∧ text ≠ "false"

namespace Word

/-- With what a number begins. -/
theorem begins_of_isNumber {c : Char} {rest : List Char} (number : isNumber (c :: rest) = true) :
    c.isDigit = true ∨ c = '-' := by
  obtain ⟨sign, whole, fraction, same, minus, digits, -⟩ := exists_digits_of_isNumber number
  rcases minus with rfl | rfl
  · cases whole with
    | nil => cases digits
    | cons first others =>
      have digit := (Decimal.isDigits_iff.mp digits).2 first List.mem_cons_self
      simp only [List.nil_append, List.cons_append, List.cons.injEq] at same
      exact .inl (same.1 ▸ digit)
  · simp only [List.cons_append, List.cons.injEq] at same
    exact .inr same.1

/-- What stands between the quotes is all but the first and the last character. -/
theorem unquoted?_eq_some_iff {cs inner : List Char} :
    unquoted? cs = some inner ↔
      ∃ quote, Token.isQuote quote = true ∧ cs = quote :: (inner ++ [quote]) := by
  constructor
  · intro found
    cases cs with
    | nil => cases found
    | cons quote rest =>
      simp only [unquoted?] at found
      split at found
      · rename_i closed
        rw [Bool.and_eq_true, beq_iff_eq] at closed
        obtain ⟨before, rfl⟩ := List.getLast?_eq_some_iff.mp closed.2
        rw [List.dropLast_concat, Option.some.injEq] at found
        exact ⟨quote, closed.1, by rw [found]⟩
      · cases found
  · rintro ⟨quote, opens, rfl⟩
    simp [unquoted?, opens]

/-- A quote begins no number. -/
theorem isNumber_of_isQuote {quote : Char} (opens : Token.isQuote quote = true)
    (rest : List Char) : isNumber (quote :: rest) = false := by
  rw [Token.isQuote, Bool.or_eq_true, beq_iff_eq, beq_iff_eq] at opens
  rw [← Bool.not_eq_true]
  intro number
  rcases opens with rfl | rfl <;> rcases begins_of_isNumber number with digit | minus
  all_goals first | cases digit | cases minus

theorem beginsName_of_isName {c : Char} {rest : List Char} (name : isName (c :: rest) = true) :
    beginsName c = true := by
  simp only [isName, Bool.and_eq_true] at name
  exact name.1.1

/-- The code points with which a name may begin. -/
theorem toNat_of_beginsName {c : Char} (begins : beginsName c = true) :
    0x41 ≤ c.toNat ∧ c.toNat ≤ 0x7a ∨ c = '$' := by
  have letter : c.isAlpha = (decide (c.val ≥ 'A'.val ∧ c.val ≤ 'Z'.val) ||
      (decide (c.val ≥ 'a'.val) && decide (c.val ≤ 'z'.val))) := rfl
  simp only [beginsName, letter, Bool.or_eq_true, Bool.and_eq_true, decide_eq_true_eq, beq_iff_eq,
    UInt32.le_iff_toNat_le, ge_iff_le] at begins
  rcases begins with ((upper | lower) | rfl) | rfl
  · exact .inl ⟨upper.1, Nat.le_trans upper.2 (by decide)⟩
  · exact .inl ⟨Nat.le_trans (by decide) lower.1, lower.2⟩
  · exact .inl (by decide)
  · exact .inr rfl

/-- A name is neither a number nor a quoted text. -/
theorem isNumber_unquoted?_of_isName {cs : List Char} (name : isName cs = true) :
    isNumber cs = false ∧ unquoted? cs = none := by
  cases cs with
  | nil => cases name
  | cons c rest =>
    have begins := beginsName_of_isName name
    refine ⟨?_, ?_⟩
    · rw [← Bool.not_eq_true]
      intro number
      rcases toNat_of_beginsName begins with range | rfl
      · rcases begins_of_isNumber number with digit | rfl
        · have range' := Char.isDigit_iff_toNat.mp digit
          have nine : '9'.toNat = 0x39 := rfl
          omega
        · exact absurd range.1 (by decide)
      · rcases begins_of_isNumber number with digit | minus
        · cases digit
        · cases minus
    · rw [Option.eq_none_iff_forall_ne_some]
      intro inner found
      obtain ⟨quote, opens, same⟩ := unquoted?_eq_some_iff.mp found
      rw [(List.cons.inj same).1] at begins
      rw [Token.isQuote, Bool.or_eq_true, beq_iff_eq, beq_iff_eq] at opens
      rcases opens with rfl | rfl <;> cases begins

/-- Reading a word finds the literals. -/
theorem read?_of_literal {text : String} {t : Term} (found : Literal text t) :
    read? text = some (literal t) := by
  cases found with
  | number number =>
    obtain ⟨d, decimal⟩ := read?_of_isNumber number
    simp only [read?, number, if_true, decimal, numeral, Option.map_some, Option.getD_some]
  | quoted opens same =>
    have none : isNumber text.toList = false := by
      rw [same]
      exact isNumber_of_isQuote opens _
    have inner := unquoted?_eq_some_iff.mpr ⟨_, opens, same⟩
    simp only [read?, none, Bool.false_eq_true, if_false, inner]
  | @truth b same =>
    rw [same]
    cases b <;> rfl

/-- Reading a word finds the names. -/
theorem read?_of_isName {text : String} (found : IsName text) : read? text = some (name text) := by
  obtain ⟨isName, notTrue, notFalse⟩ := found
  obtain ⟨noNumber, unquoted⟩ := isNumber_unquoted?_of_isName isName
  simp only [read?, noNumber, Bool.false_eq_true, if_false, unquoted, notTrue, notFalse, isName,
    if_true]

/-- Every word that is read is a literal or a name. -/
theorem literal_or_isName_of_read? {text : String} {w : Word} (found : read? text = some w) :
    (∃ t, w = literal t ∧ Literal text t) ∨ w = name text ∧ IsName text := by
  unfold read? at found
  by_cases number : isNumber text.toList = true
  · obtain ⟨d, decimal⟩ := read?_of_isNumber number
    have value : Literal text (.number d.nearest) := by
      have value := Literal.number number
      rwa [numeral, decimal] at value
    simp only [number, if_true, decimal, Option.map_some, Option.some.injEq] at found
    exact .inl ⟨_, found.symm, value⟩
  · cases unquoted : unquoted? text.toList with
    | some inner =>
      obtain ⟨quote, opens, same⟩ := unquoted?_eq_some_iff.mp unquoted
      simp only [number, Bool.false_eq_true, if_false, unquoted, Option.some.injEq] at found
      exact .inl ⟨_, found.symm, .quoted opens same⟩
    | none =>
      simp only [number, Bool.false_eq_true, if_false, unquoted] at found
      by_cases isTrue : text = "true"
      · rw [if_pos isTrue, Option.some.injEq] at found
        exact .inl ⟨_, found.symm, (.truth isTrue : Literal text (.boolean true))⟩
      · rw [if_neg isTrue] at found
        by_cases isFalse : text = "false"
        · rw [if_pos isFalse, Option.some.injEq] at found
          exact .inl ⟨_, found.symm, (.truth isFalse : Literal text (.boolean false))⟩
        · rw [if_neg isFalse] at found
          by_cases isName : Word.isName text.toList = true
          · rw [if_pos isName, Option.some.injEq] at found
            exact .inr ⟨found.symm, isName, isTrue, isFalse⟩
          · rw [if_neg isName] at found
            cases found

end Word

/-! ## What is no word -/

namespace Operator

theorem eq_symbol_of_ofSymbol? {text : String} {op : Operator} (found : ofSymbol? text = some op) :
    text = op.symbol := by
  have same := List.find?_some found
  exact (beq_iff_eq.mp same).symm

/-- The symbol of an operator is no word. -/
theorem read?_symbol (op : Operator) : Word.read? op.symbol = none := by
  cases op <;> rfl

end Operator

/-- A word is no symbol of an operator. -/
theorem Word.ofSymbol?_of_read? {text : String} {w : Word} (found : read? text = some w) :
    Operator.ofSymbol? text = none := by
  cases known : Operator.ofSymbol? text with
  | none => rfl
  | some op =>
    rw [Operator.eq_symbol_of_ofSymbol? known, Operator.read?_symbol] at found
    cases found

/-! ## Blanks -/

namespace Token

/-- A token is not blank when it begins with a visible character. -/
theorem isBlank_of_visible {t : Token} {c : Char} {rest : List Char}
    (same : t.text.toList = c :: rest)
    (low : 0x21 ≤ c.toNat) (high : c.toNat ≤ 0x7e) : t.isBlank = false := by
  simp only [isBlank, same, List.head?_cons, Option.any_some]
  exact Text.isBlank_of_visible low high

/-- Words begin with a visible character. -/
theorem visible_of_read? {text : String} {w : Word} (found : Word.read? text = some w) {c : Char}
    {rest : List Char} (same : text.toList = c :: rest) : 0x21 ≤ c.toNat ∧ c.toNat ≤ 0x7e := by
  rcases Word.literal_or_isName_of_read? found with ⟨t, -, value⟩ | ⟨-, isName, -, -⟩
  · cases value with
    | number number =>
      rw [same] at number
      rcases Word.begins_of_isNumber number with digit | rfl
      · have range := Char.isDigit_iff_toNat.mp digit
        exact ⟨Nat.le_trans (by decide) range.1, Nat.le_trans range.2 (by decide)⟩
      · decide
    | quoted opens quoted =>
      rw [same, List.cons.injEq] at quoted
      rw [isQuote, Bool.or_eq_true, beq_iff_eq, beq_iff_eq] at opens
      rw [quoted.1]
      rcases opens with rfl | rfl <;> decide
    | @truth b spelled =>
      rw [spelled] at same
      cases b <;> (cases same; decide)
  · rw [same] at isName
    rcases Word.toNat_of_beginsName (Word.beginsName_of_isName isName) with range | rfl
    · omega
    · decide

/-- Words are not blank. -/
theorem isBlank_of_read? {t : Token} {w : Word} (found : Word.read? t.text = some w) :
    t.isBlank = false := by
  cases text : t.text.toList with
  | nil =>
    rw [String.toList_eq_nil_iff.mp text] at found
    cases found
  | cons c rest =>
    have visible := visible_of_read? found text
    exact isBlank_of_visible text visible.1 visible.2

/-- Operators are not blank. -/
theorem isBlank_of_ofSymbol? {t : Token} {op : Operator}
    (found : Operator.ofSymbol? t.text = some op) :
    t.isBlank = false := by
  rw [isBlank, Operator.eq_symbol_of_ofSymbol? found]
  cases op <;> decide

end Token

end Inlay
