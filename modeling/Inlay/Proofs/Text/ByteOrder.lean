import Inlay.Proofs.Token.Offset

/-!
# The order of texts and of their bytes

Texts are ordered by code point. In UTF-8 a greater character has a greater byte where its bytes
first differ from those of the lesser one, and the bytes of no character begin those of another.
So the order of texts is the order of their bytes, `utf8_lt_utf8`.
-/

namespace Inlay

/-- Whether two runs of bytes differ at a place that both have, the first having the lesser byte
there. -/
def Falls : List UInt8 → List UInt8 → Prop
  | first :: rest, second :: rest' => first < second ∨ first = second ∧ Falls rest rest'
  | _, _ => False

/-- What stands behind two runs that differ does not matter to their order. -/
theorem Falls.append_lt : ∀ {first second : List UInt8}, Falls first second →
    ∀ after after' : List UInt8, first ++ after < second ++ after'
  | _ :: _, _ :: _, .inl less, _, _ => List.cons_lt_cons_iff.mpr (.inl less)
  | _ :: _, _ :: _, .inr ⟨same, falls⟩, after, after' =>
    List.cons_lt_cons_iff.mpr (.inr ⟨same, falls.append_lt after after'⟩)

/-- The bytes of a lesser character differ from those of a greater one, and are less where they
first do. -/
theorem falls_utf8EncodeChar {c d : Char} (less : c < d) :
    Falls (String.utf8EncodeChar c) (String.utf8EncodeChar d) := by
  have values : c.val.toNat < d.val.toNat := UInt32.lt_iff_toNat_lt.mp less
  have limit : d.val.toNat < 0x110000 := by
    rcases d.valid with low | high
    · exact Nat.lt_trans low (by decide)
    · exact high.2
  -- The digits of base sixty-four are taken one after the other, so that each is seen to be the
  -- last of what the one before it was taken from.
  have third (v : Nat) : v / 4096 = v / 64 / 64 := (Nat.div_div_eq_div_mul v 64 64).symm
  have fourth (v : Nat) : v / 262144 = v / 64 / 64 / 64 := by
    rw [← third, Nat.div_div_eq_div_mul]
  unfold String.utf8EncodeChar
  dsimp only
  generalize c.val.toNat = v at values
  generalize d.val.toNat = w at values limit
  repeat' split
  all_goals
    simp only [Falls, UInt8.lt_iff_toNat_lt, ← UInt8.toNat_inj, UInt8.toNat_ofNat', third,
      fourth]
    omega

theorem flatMap_utf8EncodeChar_lt {cs ds : List Char} (less : List.Lex (· < ·) cs ds) :
    cs.flatMap String.utf8EncodeChar < ds.flatMap String.utf8EncodeChar := by
  induction less with
  | @nil d rest =>
    obtain ⟨b, bytes, parts⟩ := List.exists_cons_of_ne_nil (String.utf8EncodeChar_ne_nil (c := d))
    rw [List.flatMap_cons, parts]
    exact List.nil_lt_cons _ _
  | rel less =>
    rw [List.flatMap_cons, List.flatMap_cons]
    exact (falls_utf8EncodeChar less).append_lt _ _
  | cons _ ih =>
    rw [List.flatMap_cons, List.flatMap_cons]
    exact List.append_left_lt ih

/-- The order of two texts is that of their bytes. -/
theorem utf8_lt_utf8 {first second : String} (less : first < second) :
    utf8 first < utf8 second := by
  rw [utf8_eq_flatMap, utf8_eq_flatMap]
  exact flatMap_utf8EncodeChar_lt (String.lt_iff_toList_lt.mp less)

end Inlay
