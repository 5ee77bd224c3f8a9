import Inlay.Number.Shortest

/-!
# The text of a number

A number is written with its shortest decimal: positionally while the leading digit stands between
the millionths and the hundreds of quintillions, and otherwise with an exponent. The two zeros are
written alike, and the numbers that are not finite have names.
-/

namespace Inlay.Number

/-- The first power of ten whose numbers are written with an exponent. -/
def positionalEnd : Int := 21

/-- The least power of ten whose numbers are written without an exponent. -/
def positionalStart : Int := -6

/-- Digits with a point after the first, or alone if there is only one. -/
def pointed : List Char → List Char
  | [] => []
  | [digit] => [digit]
  | digit :: rest => digit :: '.' :: rest

/-- An exponent with its letter and its sign. -/
def exponentText : Int → List Char
  | .ofNat e => 'e' :: '+' :: Nat.toDigits 10 e
  | .negSucc e => 'e' :: '-' :: Nat.toDigits 10 (e + 1)

/-- Digits, of which the last stands at a power of ten, written positionally. -/
def positional (digits : List Char) (place : Int) : List Char :=
  match place with
  | .ofNat zeros => digits ++ List.replicate zeros '0'
  | .negSucc e =>
    let places := e + 1
    if places < digits.length then
      digits.take (digits.length - places) ++ '.' :: digits.drop (digits.length - places)
    else '0' :: '.' :: List.replicate (places - digits.length) '0' ++ digits

/-- A positive decimal, given by its digits and the power of ten of the last. -/
def decimalText (digits : Nat) (place : Int) : List Char :=
  let written := Nat.toDigits 10 digits
  let leading := place + written.length - 1
  if positionalStart ≤ leading ∧ leading < positionalEnd then positional written place
  else pointed written ++ exponentText leading

/-- The characters of a number. -/
def chars : Binary64 → List Char
  | .nan => "NaN".toList
  | .infinite false => "Infinity".toList
  | .infinite true => "-Infinity".toList
  | .finite negative magnitude =>
    if magnitude.units = 0 then ['0']
    else
      let (digits, place) := shortest magnitude.units
      if negative then '-' :: decimalText digits place else decimalText digits place

/-- The text of a number. -/
def text (x : Binary64) : String :=
  String.ofList (chars x)

end Inlay.Number
