import Inlay.Proofs.Token.OpenQuote

/-!
# Splitting a slice of a source

Whether something is a delimiter can depend on all that follows it: a quote is one only if it occurs
again, blanks go on as far as they can, and plain text ends where a delimiter begins. Cutting a
source between two of its pieces changes none of this. What was closed before the cut still is, what
the cut takes away can only have closed something that was open, and no piece of plain text has
anything of that kind left in it.

So the pieces that stand side by side in a source are the pieces of what they are together
(`Token.split_infix`), and `tokenize_slices` says it of the texts of tokens, with the case of a
source cut in two: it is put together from two texts at a place between tokens exactly when its
tokens are those of the one and then those of the other.
-/

namespace Inlay

/-- Pieces side by side are a split of what they are together. -/
theorem LeftmostSplit.slice {cs : List Char} {cuts slice : List Cut}
    (split : LeftmostSplit cs cuts) (side : slice <:+: cuts) :
    LeftmostSplit (slice.map Cut.text).flatten slice := by
  obtain ⟨before, later, rfl⟩ := side
  rw [List.append_assoc] at split
  exact split.of_append.front

/-- Texts side by side among those that a text is split into are those that they are split into
when they are put together. -/
theorem Token.split_infix {cs : List Char} {texts : List (List Char)} (side : texts <:+: split cs) :
    split texts.flatten = texts := by
  obtain ⟨cuts, leftmost⟩ := LeftmostSplit.exists_cuts cs
  rw [split_eq_of_leftmostSplit leftmost, List.infix_map_iff] at side
  obtain ⟨slice, side, rfl⟩ := side
  exact split_eq_of_leftmostSplit (leftmost.slice side)

/-- Texts of tokens side by side are the texts of the tokens that they have when they are put
together. -/
theorem map_text_tokenize_join {source : String} {texts : List String}
    (side : texts <:+: (tokenize source).map Token.text) :
    (tokenize (String.join texts)).map Token.text = texts := by
  rw [map_text_tokenize, List.infix_map_iff] at side
  obtain ⟨slice, side, rfl⟩ := side
  have whole : (String.join (slice.map String.ofList)).toList = slice.flatten := by
    rw [String.toList_join, List.flatMap_map]
    simp only [String.toList_ofList, List.flatMap_id']
  rw [map_text_tokenize, whole, Token.split_infix side]

/-- Cutting a source between tokens leaves the tokens on both sides as they are. -/
theorem map_text_tokenize_append {first second : String} {i : Nat}
    (cut : String.join (((tokenize (first ++ second)).map Token.text).take i) = first) :
    (tokenize (first ++ second)).map Token.text =
      (tokenize first).map Token.text ++ (tokenize second).map Token.text := by
  have whole := join_tokenize (first ++ second)
  generalize texts : (tokenize (first ++ second)).map Token.text = all at cut whole
  have rest : String.join (all.drop i) = second := by
    rw [← List.take_append_drop i all, String.join_append, cut] at whole
    exact (String.append_right_inj first).mp whole
  have front : all.take i <:+: (tokenize (first ++ second)).map Token.text :=
    texts ▸ (List.take_prefix i all).isInfix
  have back : all.drop i <:+: (tokenize (first ++ second)).map Token.text :=
    texts ▸ (List.drop_suffix i all).isInfix
  calc all = all.take i ++ all.drop i := (List.take_append_drop i all).symm
    _ = (tokenize (String.join (all.take i))).map Token.text ++
        (tokenize (String.join (all.drop i))).map Token.text := by
      rw [map_text_tokenize_join front, map_text_tokenize_join back]
    _ = (tokenize first).map Token.text ++ (tokenize second).map Token.text := by rw [cut, rest]

/-- The tokens of a source from one place to another have the texts that they would have as a source
of their own. A source is cut in two between tokens exactly when its tokens have the texts of those
of the first part and then those of the second. -/
theorem tokenize_slices :
    (∀ (source : String) (i j : Nat),
      (tokenize (String.join (((tokenize source).map Token.text).extract i j))).map Token.text =
        ((tokenize source).map Token.text).extract i j) ∧
    ∀ first second : String,
      (∃ i, String.join (((tokenize (first ++ second)).map Token.text).take i) = first) ↔
        (tokenize (first ++ second)).map Token.text =
          (tokenize first).map Token.text ++ (tokenize second).map Token.text := by
  constructor
  · intro source i j
    apply map_text_tokenize_join
    rw [List.extract_eq_take_drop]
    exact (List.take_prefix _ _).isInfix.trans (List.drop_suffix i _).isInfix
  · intro first second
    constructor
    · rintro ⟨i, cut⟩
      exact map_text_tokenize_append cut
    · intro parts
      refine ⟨((tokenize first).map Token.text).length, ?_⟩
      rw [parts, List.take_left, join_tokenize]

end Inlay
