import Inlay.Number.Decimal
import Inlay.Text.Blank

/-!
# Numbers from text

How text is coerced to a number. Blanks around it do not count; nothing at all is zero; the names of
the infinities, digits of base sixteen, eight or two behind their mark, and decimals are read; and
any other text is not a number.
-/

namespace Inlay.Number

/-- The value of a digit in a base of at most thirty-six, in either case of the letters. -/
def digitValue? (base : Nat) (c : Char) : Option Nat :=
  let value :=
    if '0' ≤ c ∧ c ≤ '9' then c.toNat - '0'.toNat
    else if 'a' ≤ c ∧ c ≤ 'z' then c.toNat - 'a'.toNat + 10
    else if 'A' ≤ c ∧ c ≤ 'Z' then c.toNat - 'A'.toNat + 10
    else base
  if value < base then some value else none

/-- The base that the mark at the front of a text announces, and the text behind the mark. -/
def takeBase? : List Char → Option (Nat × List Char)
  | '0' :: 'x' :: digits | '0' :: 'X' :: digits => some (16, digits)
  | '0' :: 'o' :: digits | '0' :: 'O' :: digits => some (8, digits)
  | '0' :: 'b' :: digits | '0' :: 'B' :: digits => some (2, digits)
  | _ => none

/-- Reads further digits of a base: each step multiplies what was read so far and adds a digit,
rounding once. -/
def readDigits? (base : Nat) (start : Binary64) (digits : List Char) : Option Binary64 :=
  digits.foldlM (fun total c => (digitValue? base c).map (total.timesPlus base)) start

/-- The number that digits of a base stand for. No digits, or any other character among them, are
not a number. -/
def ofBase (base : Nat) (digits : List Char) : Binary64 :=
  if digits.isEmpty then .nan else (readDigits? base 0 digits).getD .nan

/-- The number that a text without blanks around it stands for. -/
def ofTrimmed (cs : List Char) : Binary64 :=
  if cs.isEmpty then 0
  else if cs = "Infinity".toList ∨ cs = "+Infinity".toList then .infinite false
  else if cs = "-Infinity".toList then .infinite true
  else
    match takeBase? cs with
    | some (base, digits) => ofBase base digits
    | none => ((Decimal.read? cs).map Decimal.nearest).getD .nan

/-- The number that a text stands for. -/
def ofText (text : String) : Binary64 :=
  ofTrimmed (Text.trimBlank text.toList)

end Inlay.Number
