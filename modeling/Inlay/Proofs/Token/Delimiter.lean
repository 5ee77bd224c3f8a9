import Inlay.Token.Split
import Mathlib.Data.List.TakeWhile

/-!
# What a delimiter is

`Delimiter.Fits` says of each kind of delimiter which texts are one, without saying how it is found:
a doubled character, a single one, a quote up to the next that is the same, all the blanks up to
something else. The kinds are tried in an order, and `Delimiter.First` is the first of them that has
a delimiter at the front of a text.

`Token.delimiter?_eq_some_iff` ties this to the function that looks for a delimiter: it finds
exactly the first. What no kind fits at the front of is not `Delimited`, and there it finds none.
-/

namespace Inlay

/-- The kinds of delimiter. -/
inductive Delimiter
  | doubled
  | single
  | quoted
  | blanks
  deriving DecidableEq, Repr

namespace Delimiter

/-- The order in which the kinds are tried. Within a kind no order is needed: of its delimiters one
at most begins a text. -/
def order : List Delimiter := [doubled, single, quoted, blanks]

/-- The delimiters of two characters. -/
def pairs : List (List Char) := ["\x7b\x7b", "\x7d\x7d", "&&", "||"].map String.toList

/-- The characters that are a delimiter each. -/
def singles : List Char := "-+*/%(),".toList

/-- The characters that a quoted run stands between. -/
def quotes : List Char := ['"', '\'']

/-- Whether a text is a delimiter of a kind where it is followed by another. What follows matters
only to blanks, which go on as far as they can. -/
inductive Fits (after : List Char) : Delimiter → List Char → Prop
  | doubled {text : List Char} : text ∈ pairs → Fits after doubled text
  | single {c : Char} : c ∈ singles → Fits after single [c]
  | quoted {quote : Char} {inner : List Char} : quote ∈ quotes → quote ∉ inner →
      Fits after quoted (quote :: inner ++ [quote])
  | blanks {text : List Char} : text ≠ [] → (∀ c ∈ text, Text.isBlank c = true) →
      (∀ c ∈ after.head?, Text.isBlank c = false) → Fits after blanks text

/-- Whether a text begins with a delimiter of a kind. -/
def Begins (kind : Delimiter) (cs : List Char) : Prop :=
  ∃ text after, text ++ after = cs ∧ kind.Fits after text

/-- Whether a text is a delimiter of a kind and no kind that is tried before has one there. -/
def First (kind : Delimiter) (text after : List Char) : Prop :=
  kind.Fits after text ∧ ∃ earlier later, order = earlier ++ kind :: later ∧
    ∀ other ∈ earlier, ¬ other.Begins (text ++ after)

/-- Whether a text begins with a delimiter of any kind. -/
def Delimited (cs : List Char) : Prop :=
  ∃ kind : Delimiter, kind.Begins cs

theorem mem_pairs_iff {text : List Char} :
    text ∈ pairs ↔ ∃ c, Token.isDoubling c = true ∧ text = [c, c] := by
  have listed : pairs = [['\x7b', '\x7b'], ['\x7d', '\x7d'], ['&', '&'], ['|', '|']] := by decide
  simp [listed, Token.isDoubling, or_and_right, exists_or, or_assoc]

theorem mem_singles_iff {c : Char} : c ∈ singles ↔ Token.isSingle c = true := by
  have listed : singles = ['-', '+', '*', '/', '%', '(', ')', ','] := by decide
  simp [listed, Token.isSingle, or_assoc]

theorem mem_quotes_iff {c : Char} : c ∈ quotes ↔ Token.isQuote c = true := by
  simp [quotes, Token.isQuote]

/-- No delimiter is empty. -/
theorem Fits.ne_nil {kind : Delimiter} {text after : List Char} (fits : kind.Fits after text) :
    text ≠ [] := by
  cases fits with
  | doubled pair =>
    obtain ⟨c, -, rfl⟩ := mem_pairs_iff.mp pair
    exact List.cons_ne_nil _ _
  | single => exact List.cons_ne_nil _ _
  | quoted => exact List.cons_ne_nil _ _
  | blanks some => exact some

/-- Nothing begins with a delimiter where nothing is left. -/
theorem not_delimited_nil : ¬ Delimited [] := by
  rintro ⟨kind, text, after, whole, fits⟩
  exact fits.ne_nil (List.append_eq_nil_iff.mp whole).1

/-! ## Looking for a delimiter of one kind -/

/-- The delimiter of a kind with which a text begins, and what follows it. -/
def find? : Delimiter → List Char → Option (List Char × List Char)
  | _, [] => none
  | doubled, c :: rest =>
    if Token.isDoubling c && rest.head? == some c then some ([c, c], rest.drop 1) else none
  | single, c :: rest => if Token.isSingle c then some ([c], rest) else none
  | quoted, c :: rest => if Token.isQuote c then Token.quoted? c rest else none
  | blanks, c :: rest =>
    if Text.isBlank c then some (c :: rest.takeWhile Text.isBlank, rest.dropWhile Text.isBlank)
    else none

theorem find?_doubled_eq_some_iff {cs text after : List Char} :
    doubled.find? cs = some (text, after) ↔ text ++ after = cs ∧ doubled.Fits after text := by
  constructor
  · intro found
    cases cs with
    | nil => cases found
    | cons c rest =>
      rw [find?, Option.ite_none_right_eq_some, Bool.and_eq_true, beq_iff_eq] at found
      obtain ⟨⟨doubling, again⟩, same⟩ := found
      obtain ⟨rest', rfl⟩ := List.head?_eq_some_iff.mp again
      cases same
      exact ⟨rfl, .doubled (mem_pairs_iff.mpr ⟨c, doubling, rfl⟩)⟩
  · rintro ⟨rfl, fits⟩
    cases fits with
    | doubled pair =>
      obtain ⟨c, doubling, rfl⟩ := mem_pairs_iff.mp pair
      simp [find?, doubling]

theorem find?_single_eq_some_iff {cs text after : List Char} :
    single.find? cs = some (text, after) ↔ text ++ after = cs ∧ single.Fits after text := by
  constructor
  · intro found
    cases cs with
    | nil => cases found
    | cons c rest =>
      rw [find?, Option.ite_none_right_eq_some] at found
      obtain ⟨alone, same⟩ := found
      cases same
      exact ⟨rfl, .single (mem_singles_iff.mpr alone)⟩
  · rintro ⟨rfl, fits⟩
    cases fits with
    | single alone => exact if_pos (mem_singles_iff.mp alone)

/-- A quoted run goes up to the next quote that is the same. -/
theorem quoted?_eq_some_iff {quote : Char} {rest text after : List Char} :
    Token.quoted? quote rest = some (text, after) ↔
      ∃ inner, quote ∉ inner ∧ rest = inner ++ quote :: after ∧
        text = quote :: inner ++ [quote] := by
  constructor
  · intro found
    rw [Token.quoted?] at found
    split at found
    · cases found
    · rename_i closing tail rejoined
      cases found
      have closes : closing = quote := by
        have head := List.head?_dropWhile_not (· != quote) rest
        rw [rejoined] at head
        simpa using head
      subst closes
      refine ⟨rest.takeWhile (· != closing), ?_, ?_, rfl⟩
      · intro mem
        simpa using List.mem_takeWhile_imp mem
      · rw [← rejoined, List.takeWhile_append_dropWhile]
  · rintro ⟨inner, absent, rfl, rfl⟩
    have goes : ∀ c ∈ inner, (c != quote) = true := by
      intro c mem
      simpa using ne_of_mem_of_not_mem mem absent
    rw [Token.quoted?, List.dropWhile_append_of_pos goes, List.takeWhile_append_of_pos goes]
    simp

theorem find?_quoted_eq_some_iff {cs text after : List Char} :
    quoted.find? cs = some (text, after) ↔ text ++ after = cs ∧ quoted.Fits after text := by
  constructor
  · intro found
    cases cs with
    | nil => cases found
    | cons c rest =>
      rw [find?, Option.ite_none_right_eq_some, quoted?_eq_some_iff] at found
      obtain ⟨quote, inner, absent, rfl, rfl⟩ := found
      exact ⟨by simp, .quoted (mem_quotes_iff.mpr quote) absent⟩
  · rintro ⟨rfl, fits⟩
    cases fits with
    | quoted quote absent =>
      rw [List.cons_append, List.cons_append, find?, if_pos (mem_quotes_iff.mp quote),
        quoted?_eq_some_iff]
      exact ⟨_, absent, by simp, rfl⟩

theorem find?_blanks_eq_some_iff {cs text after : List Char} :
    blanks.find? cs = some (text, after) ↔ text ++ after = cs ∧ blanks.Fits after text := by
  constructor
  · intro found
    cases cs with
    | nil => cases found
    | cons c rest =>
      rw [find?, Option.ite_none_right_eq_some] at found
      obtain ⟨blank, same⟩ := found
      cases same
      refine ⟨by simp [List.takeWhile_append_dropWhile], .blanks (List.cons_ne_nil _ _) ?_ ?_⟩
      · intro d mem
        rcases List.mem_cons.mp mem with rfl | mem
        · exact blank
        · exact List.mem_takeWhile_imp mem
      · intro d next
        have head := List.head?_dropWhile_not Text.isBlank rest
        rw [Option.mem_def.mp next] at head
        simpa using head
  · rintro ⟨rfl, fits⟩
    cases fits with
    | blanks filled all stops =>
      cases text with
      | nil => exact absurd rfl filled
      | cons c text =>
        obtain ⟨blank, all⟩ := List.forall_mem_cons.mp all
        have none : after.takeWhile Text.isBlank = [] ∧ after.dropWhile Text.isBlank = after := by
          cases after with
          | nil => exact ⟨rfl, rfl⟩
          | cons d after => simp [stops d rfl]
        rw [List.cons_append, find?, if_pos blank, List.takeWhile_append_of_pos all,
          List.dropWhile_append_of_pos all, none.1, none.2, List.append_nil]

/-- What is found for a kind is what begins a text and fits the kind. -/
theorem find?_eq_some_iff {kind : Delimiter} {cs text after : List Char} :
    kind.find? cs = some (text, after) ↔ text ++ after = cs ∧ kind.Fits after text := by
  cases kind with
  | doubled => exact find?_doubled_eq_some_iff
  | single => exact find?_single_eq_some_iff
  | quoted => exact find?_quoted_eq_some_iff
  | blanks => exact find?_blanks_eq_some_iff

theorem find?_eq_none_iff {kind : Delimiter} {cs : List Char} :
    kind.find? cs = none ↔ ¬ kind.Begins cs := by
  rw [Option.eq_none_iff_forall_ne_some]
  constructor
  · rintro none ⟨text, after, whole, fits⟩
    exact none (text, after) (find?_eq_some_iff.mpr ⟨whole, fits⟩)
  · rintro unbegun ⟨text, after⟩ found
    exact unbegun ⟨text, after, find?_eq_some_iff.mp found⟩

end Delimiter

/-! ## Looking for a delimiter of any kind -/

namespace Token

open Delimiter

/-- The kinds are tried one after the other, and the first that finds something ends the search. A
quote that is not closed does end it without a find, but no blank is a quote. -/
theorem delimiter?_eq_findSome? (cs : List Char) :
    delimiter? cs = order.findSome? (find? · cs) := by
  cases cs with
  | nil => rfl
  | cons c rest =>
    have notBlank (quote : isQuote c = true) : Text.isBlank c = false := by
      simp only [isQuote, Bool.or_eq_true, beq_iff_eq] at quote
      rcases quote with rfl | rfl <;> decide
    simp only [delimiter?, order, List.findSome?_cons, List.findSome?_nil, find?]
    by_cases doubled : (isDoubling c && rest.head? == some c) = true
    · simp only [if_pos doubled]
    · by_cases single : isSingle c = true
      · simp only [if_neg doubled, if_pos single]
      · by_cases quote : isQuote c = true
        · simp only [if_neg doubled, if_neg single, if_pos quote, notBlank quote]
          cases quoted? c rest <;> rfl
        · simp only [if_neg doubled, if_neg single, if_neg quote]
          split <;> rfl

/-- The delimiter that is found is the first. -/
theorem delimiter?_eq_some_iff {cs text after : List Char} :
    delimiter? cs = some (text, after) ↔
      text ++ after = cs ∧ ∃ kind : Delimiter, kind.First text after := by
  rw [delimiter?_eq_findSome?, List.findSome?_eq_some_iff]
  simp only [find?_eq_some_iff, find?_eq_none_iff]
  constructor
  · rintro ⟨earlier, kind, later, listed, ⟨rfl, fits⟩, before⟩
    exact ⟨rfl, kind, fits, earlier, later, listed, before⟩
  · rintro ⟨rfl, kind, fits, earlier, later, listed, before⟩
    exact ⟨earlier, kind, later, listed, ⟨rfl, fits⟩, before⟩

/-- No delimiter is found exactly where no kind fits. -/
theorem delimiter?_eq_none_iff {cs : List Char} : delimiter? cs = none ↔ ¬ Delimited cs := by
  rw [delimiter?_eq_findSome?, List.findSome?_eq_none_iff]
  simp only [find?_eq_none_iff, Delimited, not_exists]
  constructor
  · intro none kind
    exact none kind (by cases kind <;> decide)
  · intro none kind _
    exact none kind

end Token

namespace Delimiter

/-- Where some kind has a delimiter, one kind is the first. -/
theorem delimited_iff {cs : List Char} :
    Delimited cs ↔ ∃ kind text after, text ++ after = cs ∧ First kind text after := by
  rw [← not_iff_not, ← Token.delimiter?_eq_none_iff, Option.eq_none_iff_forall_ne_some]
  constructor
  · rintro none ⟨kind, text, after, whole, first⟩
    exact none (text, after) (Token.delimiter?_eq_some_iff.mpr ⟨whole, kind, first⟩)
  · rintro none ⟨text, after⟩ found
    obtain ⟨whole, kind, first⟩ := Token.delimiter?_eq_some_iff.mp found
    exact none ⟨kind, text, after, whole, first⟩

theorem delimited_of_pair {pair : List Char} (mem : pair ∈ pairs) (rest : List Char) :
    Delimited (pair ++ rest) :=
  ⟨doubled, pair, rest, rfl, .doubled mem⟩

theorem delimited_of_single {c : Char} (mem : c ∈ singles) (rest : List Char) :
    Delimited (c :: rest) :=
  ⟨single, [c], rest, rfl, .single mem⟩

/-- A quote is a delimiter when it occurs again, however far away. -/
theorem delimited_of_closed {quote : Char} {rest : List Char} (mem : quote ∈ quotes)
    (closed : quote ∈ rest) : Delimited (quote :: rest) := by
  obtain ⟨inner, after, rfl, absent⟩ := List.eq_append_cons_of_mem closed
  exact ⟨quoted, quote :: inner ++ [quote], after, by simp, .quoted mem absent⟩

theorem delimited_of_blank {c : Char} (blank : Text.isBlank c = true) (rest : List Char) :
    Delimited (c :: rest) :=
  ⟨blanks, _, _, find?_eq_some_iff.mp (if_pos blank)⟩

/-- Only blanks begin with a blank. -/
theorem Fits.isBlank_head {kind : Delimiter} {text after : List Char}
    (fits : kind.Fits after text) : text.head?.any Text.isBlank = decide (kind = .blanks) := by
  cases fits with
  | doubled pair =>
    obtain ⟨c, doubling, rfl⟩ := mem_pairs_iff.mp pair
    simp only [Token.isDoubling, Bool.or_eq_true, beq_iff_eq] at doubling
    rcases doubling with ((rfl | rfl) | rfl) | rfl <;> decide
  | @single c mem =>
    have all : singles.all (!Text.isBlank ·) = true := by decide
    simpa using List.all_eq_true.mp all c mem
  | @quoted quote inner mem =>
    have all : quotes.all (!Text.isBlank ·) = true := by decide
    simpa using List.all_eq_true.mp all quote mem
  | blanks filled all =>
    obtain ⟨c, text, rfl⟩ := List.exists_cons_of_ne_nil filled
    exact all c List.mem_cons_self

/-- The first delimiter is one. -/
theorem First.delimited {kind : Delimiter} {text after : List Char}
    (first : kind.First text after) : Delimited (text ++ after) :=
  ⟨kind, text, after, rfl, first.1⟩

/-- A text begins with one first delimiter at most, and it is of one kind. -/
theorem First.unique {kind kind' : Delimiter} {text after text' after' : List Char}
    (first : kind.First text after) (first' : kind'.First text' after')
    (same : text ++ after = text' ++ after') : kind = kind' ∧ text = text' ∧ after = after' := by
  have found := Token.delimiter?_eq_some_iff.mpr ⟨same, kind, first⟩
  rw [Token.delimiter?_eq_some_iff.mpr ⟨rfl, kind', first'⟩, Option.some.injEq,
    Prod.mk.injEq] at found
  obtain ⟨rfl, rfl⟩ := found
  refine ⟨?_, rfl, rfl⟩
  obtain ⟨fits, earlier, later, listed, before⟩ := first
  obtain ⟨fits', earlier', later', listed', before'⟩ := first'
  rw [listed, List.append_eq_append_iff] at listed'
  -- Of two kinds in the order one is tried before the other, where it is refused, or they are one.
  rcases listed' with ⟨between, rfl, rest⟩ | ⟨between, rfl, rest⟩
  · cases between with
    | nil => exact (List.cons.inj rest).1
    | cons first between =>
      obtain rfl : kind = first := (List.cons.inj rest).1
      exact absurd ⟨_, _, rfl, fits⟩ (before' kind (by simp))
  · cases between with
    | nil => exact (List.cons.inj rest).1.symm
    | cons first between =>
      obtain rfl : kind' = first := (List.cons.inj rest).1
      exact absurd ⟨_, _, rfl, fits'⟩ (before kind' (by simp))

end Delimiter

end Inlay
