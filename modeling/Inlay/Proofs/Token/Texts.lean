import Inlay.Token.Split

/-!
# Nothing of a source is lost

The texts that a source is split into, put together in order, are the source, and none of them is
empty. Giving them their places leaves them as they are.
-/

namespace Inlay.Token

theorem flatten_flush (done : List (List Char)) (plain : List Char) :
    (flush done plain).reverse.flatten = done.reverse.flatten ++ plain.reverse := by
  cases plain with
  | nil => exact (List.append_nil _).symm
  | cons c plain =>
    rw [flush, List.isEmpty_cons, if_neg Bool.false_ne_true, List.reverse_cons, List.flatten_append,
      List.flatten_singleton]

/-- What was cut off, the open run of plain text and the rest of the source stay in this order. -/
theorem flatten_splitFrom (done : List (List Char)) (plain cs : List Char) :
    (splitFrom done plain cs).flatten = done.reverse.flatten ++ (plain.reverse ++ cs) := by
  fun_induction splitFrom done plain cs with
  | case1 done plain => rw [flatten_flush, List.append_nil]
  | case2 done plain c rest delimiter after found ih =>
    rw [ih, List.reverse_cons, List.flatten_append, flatten_flush, List.flatten_singleton,
      List.reverse_nil, List.nil_append, List.append_assoc, List.append_assoc,
      append_of_delimiter? found]
  | case3 done plain c rest _ ih =>
    rw [ih, List.reverse_cons, List.append_assoc, List.singleton_append]

theorem flatten_split (cs : List Char) : (split cs).flatten = cs :=
  flatten_splitFrom [] [] cs

/-- An open run of plain text that is empty is no text of its own. -/
theorem nil_notMem_flush {done : List (List Char)} (filled : [] ∉ done) (plain : List Char) :
    [] ∉ flush done plain := by
  cases plain with
  | nil => exact filled
  | cons c plain =>
    intro mem
    rcases List.mem_cons.mp mem with empty | mem
    · simp at empty
    · exact filled mem

/-- What is cut off is never empty. -/
theorem nil_notMem_splitFrom {done : List (List Char)} (filled : [] ∉ done)
    (plain cs : List Char) : [] ∉ splitFrom done plain cs := by
  fun_induction splitFrom done plain cs with
  | case1 done plain =>
    rw [List.mem_reverse]
    exact nil_notMem_flush filled plain
  | case2 done plain c rest delimiter after found ih =>
    apply ih
    intro mem
    rcases List.mem_cons.mp mem with empty | mem
    · exact delimiter?_ne_nil found empty.symm
    · exact nil_notMem_flush filled plain mem
  | case3 done plain c rest _ ih => exact ih filled

theorem nil_notMem_split (cs : List Char) : [] ∉ split cs :=
  nil_notMem_splitFrom List.not_mem_nil [] cs

theorem map_text_locateFrom (done : List Token) (place : Position) (texts : List (List Char)) :
    (locateFrom done place texts).map text = done.reverse.map text ++ texts.map String.ofList := by
  induction texts generalizing done place with
  | nil => exact (List.append_nil _).symm
  | cons first texts ih =>
    rw [locateFrom, ih, List.reverse_cons, List.map_append, List.append_assoc]
    rfl

end Inlay.Token

namespace Inlay

/-- The texts of the tokens of a source are those that it is split into. -/
theorem map_text_tokenize (source : String) :
    (tokenize source).map Token.text = (Token.split source.toList).map String.ofList :=
  Token.map_text_locateFrom [] .start (Token.split source.toList)

/-- The texts of the tokens of a source, put together, are the source. -/
theorem join_tokenize (source : String) :
    String.join ((tokenize source).map Token.text) = source := by
  apply String.ext
  rw [map_text_tokenize, String.toList_join, List.flatMap_map]
  simp only [String.toList_ofList, List.flatMap_id']
  exact Token.flatten_split source.toList

/-- No token of a source is empty. -/
theorem text_ne_empty_of_mem_tokenize {source : String} {t : Token} (mem : t ∈ tokenize source) :
    t.text ≠ "" := by
  intro empty
  have listed := List.mem_map_of_mem (f := Token.text) mem
  rw [map_text_tokenize, List.mem_map] at listed
  obtain ⟨text, cut, same⟩ := listed
  rw [empty, String.ofList_eq_empty_iff] at same
  subst same
  exact Token.nil_notMem_split source.toList cut

end Inlay
