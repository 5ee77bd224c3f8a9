import Inlay.Token.Basic

/-!
# Splitting a source into tokens

A source is cut at its delimiters, from the left. At each place the kinds of delimiter are tried in
one order and the first that fits is cut off: a doubled character, a single character that always
stands alone, a quoted run, a run of blanks. What lies between two delimiters stays together as one
piece of plain text. A quote that is never closed opens nothing and is plain text, so that
splitting never fails.

`split` yields the texts alone, and `locate` gives each its place; `tokenize` is one after the
other. Nothing is lost: the texts of a source, put together, are the source.
-/

namespace Inlay.Token

/-- The characters that are a delimiter when doubled: the braces, the ampersand and the bar. -/
def isDoubling (c : Char) : Bool :=
  c == '\x7b' || c == '\x7d' || c == '&' || c == '|'

/-- The characters that are a token of their own wherever they stand outside quotes. -/
def isSingle (c : Char) : Bool :=
  c == '-' || c == '+' || c == '*' || c == '/' || c == '%' || c == '(' || c == ')' || c == ','

/-- The characters that open a quoted run. -/
def isQuote (c : Char) : Bool :=
  c == '"' || c == '\''

/-- The run from a quote to the next of the same kind, and what follows it. There is none when the
quote does not occur again. -/
def quoted? (quote : Char) (rest : List Char) : Option (List Char × List Char) :=
  match rest.dropWhile (· != quote) with
  | [] => none
  | closing :: after => some (quote :: rest.takeWhile (· != quote) ++ [closing], after)

/-- The delimiter with which a text begins, and what follows it. -/
def delimiter? : List Char → Option (List Char × List Char)
  | [] => none
  | c :: rest =>
    if isDoubling c && rest.head? == some c then some ([c, c], rest.drop 1)
    else if isSingle c then some ([c], rest)
    else if isQuote c then quoted? c rest
    else if Text.isBlank c then
      some (c :: rest.takeWhile Text.isBlank, rest.dropWhile Text.isBlank)
    else none

/-- A closed quoted run and what follows it are the text that was read. -/
theorem append_of_quoted? {quote : Char} {rest run after : List Char}
    (h : quoted? quote rest = some (run, after)) : run ++ after = quote :: rest := by
  unfold quoted? at h
  split at h
  · cases h
  · rename_i closing tail split
    obtain ⟨rfl, rfl⟩ := Prod.mk.inj (Option.some.inj h)
    simp [← split, List.takeWhile_append_dropWhile]

/-- A delimiter and what follows it are the text that was read. -/
theorem append_of_delimiter? {cs delimiter after : List Char}
    (h : delimiter? cs = some (delimiter, after)) : delimiter ++ after = cs := by
  cases cs with
  | nil => cases h
  | cons c rest =>
    simp only [delimiter?] at h
    split at h
    · rename_i doubled
      cases rest with
      | nil => simp at doubled
      | cons d rest =>
        simp only [List.head?_cons, Bool.and_eq_true, beq_iff_eq, Option.some.injEq] at doubled
        obtain ⟨rfl, rfl⟩ := Prod.mk.inj (Option.some.inj h)
        simp [doubled.2]
    · split at h
      · obtain ⟨rfl, rfl⟩ := Prod.mk.inj (Option.some.inj h)
        rfl
      · split at h
        · exact append_of_quoted? h
        · split at h
          · obtain ⟨rfl, rfl⟩ := Prod.mk.inj (Option.some.inj h)
            simp [List.takeWhile_append_dropWhile]
          · cases h

/-- No delimiter is empty. -/
theorem delimiter?_ne_nil {cs delimiter after : List Char}
    (h : delimiter? cs = some (delimiter, after)) : delimiter ≠ [] := by
  cases cs with
  | nil => cases h
  | cons c rest =>
    intro empty
    subst empty
    simp only [delimiter?, quoted?] at h
    repeat' split at h
    all_goals simp at h

/-- What follows a delimiter is shorter than the text that it begins. -/
theorem length_lt_of_delimiter? {cs delimiter after : List Char}
    (h : delimiter? cs = some (delimiter, after)) : after.length < cs.length := by
  have whole := congrArg List.length (append_of_delimiter? h)
  have some := List.length_pos_iff.mpr (delimiter?_ne_nil h)
  rw [List.length_append] at whole
  omega

/-- The texts with a finished run of plain text put in front, newest first. An empty run is no
text. -/
def flush (done : List (List Char)) (plain : List Char) : List (List Char) :=
  if plain.isEmpty then done else plain.reverse :: done

/-- Splits a text, given the texts cut off so far and the run of plain text that is still open,
both newest first. -/
def splitFrom (done : List (List Char)) (plain : List Char) (cs : List Char) : List (List Char) :=
  match cs with
  | [] => (flush done plain).reverse
  | c :: rest =>
    match _found : delimiter? (c :: rest) with
    | some (delimiter, after) => splitFrom (delimiter :: flush done plain) [] after
    | none => splitFrom done (c :: plain) rest
termination_by cs.length
decreasing_by
  · exact length_lt_of_delimiter? _found
  · exact Nat.lt_succ_self _

/-- The texts of a source, in order. -/
def split (cs : List Char) : List (List Char) :=
  splitFrom [] [] cs

/-- Gives each of several adjoining texts its place, the first at the given one. Finished tokens
are kept newest first. -/
def locateFrom (done : List Token) (place : Position) : List (List Char) → List Token
  | [] => done.reverse
  | text :: texts => locateFrom (⟨String.ofList text, place⟩ :: done) (place.after text) texts

/-- Adjoining texts as tokens, the first at the start of the source. -/
def locate (texts : List (List Char)) : List Token :=
  locateFrom [] .start texts

end Inlay.Token

namespace Inlay

/-- The tokens of a source. -/
def tokenize (source : String) : List Token :=
  Token.locate (Token.split source.toList)

end Inlay
