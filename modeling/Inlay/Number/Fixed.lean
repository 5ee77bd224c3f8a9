import Inlay.Number.Text

/-!
# Fixed decimal places

A finite number written with a given count of decimal places: its exact value, rounded once, the
middle going to the even digit. The sign is kept also where nothing but zeros is left.
-/

namespace Inlay.Number

/-- A whole number of the last of some decimal places, with a point before them. -/
def placed (places count : Nat) : List Char :=
  let written := Nat.toDigits 10 count
  let padded := List.replicate (places + 1 - written.length) '0' ++ written
  if places = 0 then padded
  else padded.take (padded.length - places) ++ '.' :: padded.drop (padded.length - places)

/-- The characters of a magnitude with a sign and a count of decimal places. -/
def fixedChars (negative : Bool) (magnitude : Magnitude) (places : Nat) : List Char :=
  let written := placed places (roundQuotient (magnitude.units * tenPow places) unitsPerOne)
  if negative then '-' :: written else written

/-- The text of a number with a count of decimal places; a number that is not finite has its
ordinary text. -/
def fixedText (x : Binary64) (places : Nat) : String :=
  match x with
  | .finite negative magnitude => String.ofList (fixedChars negative magnitude places)
  | x => text x

end Inlay.Number
