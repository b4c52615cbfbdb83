import DiceBot.Text.Basic

/-!
# Cuts at byte positions

A text can be cut at a number of bytes if a front of it has that many (`IsBoundary`), and what
stands between two fronts is found by their lengths (`slice_append`). The bytes themselves are those
of the encoding (`utf8`).
-/

namespace DiceBot.Text

/-- The UTF-8 encoding. -/
def utf8 (cs : List Char) : List UInt8 := cs.flatMap String.utf8EncodeChar

@[simp] theorem utf8_append (xs ys : List Char) : utf8 (xs ++ ys) = utf8 xs ++ utf8 ys :=
  List.flatMap_append

@[simp] theorem length_utf8 (cs : List Char) : (utf8 cs).length = byteLength cs := by
  induction cs with
  | nil => rfl
  | cons c cs ih =>
    rw [utf8, List.flatMap_cons, List.length_append, String.length_utf8EncodeChar, byteLength, ← ih]
    rfl

theorem byteLength_pos {cs : List Char} (h : cs ≠ []) : 0 < byteLength cs := by
  cases cs with
  | nil => exact absurd rfl h
  | cons c cs =>
    have hc := c.utf8Size_pos
    rw [byteLength]
    omega

theorem splitAtByte?_append (front back : List Char) :
    splitAtByte? (byteLength front) (front ++ back) = some (front, back) := by
  induction front with
  | nil => cases back <;> rfl
  | cons c front ih =>
    have hc := c.utf8Size_pos
    obtain ⟨n, hn⟩ : ∃ n, byteLength (c :: front) = n + 1 :=
      ⟨byteLength (c :: front) - 1, by have := byteLength_pos (List.cons_ne_nil c front); omega⟩
    have hlength : c.utf8Size + byteLength front = n + 1 := hn
    have hrest : n + 1 - c.utf8Size = byteLength front := by omega
    rw [hn, List.cons_append, splitAtByte?, if_pos (by omega), hrest, ih]
    rfl

/-- The position lies between two characters of the text, or at one of its ends. -/
def IsBoundary (n : Nat) (cs : List Char) : Prop :=
  ∃ front back, cs = front ++ back ∧ byteLength front = n

theorem IsBoundary.le {n : Nat} {cs : List Char} (h : IsBoundary n cs) : n ≤ byteLength cs := by
  obtain ⟨front, back, rfl, rfl⟩ := h
  rw [byteLength_append]
  exact Nat.le_add_right _ _

/-- A boundary of a piece of a text is one of the text. -/
theorem IsBoundary.of_piece {n : Nat} {piece : List Char} (h : IsBoundary n piece)
    (front back : List Char) : IsBoundary (byteLength front + n) (front ++ (piece ++ back)) := by
  obtain ⟨before, behind, rfl, rfl⟩ := h
  exact ⟨front ++ before, behind ++ back, by simp, byteLength_append front before⟩

theorem slice_append (front middle back : List Char) :
    slice (byteLength front) (byteLength front + byteLength middle) (front ++ (middle ++ back)) =
      middle := by
  have hle : byteLength front ≤ byteLength front + byteLength middle := by omega
  have hsub : byteLength front + byteLength middle - byteLength front = byteLength middle := by
    omega
  rw [slice, if_pos hle, splitAtByte?_append, hsub]
  dsimp only
  rw [splitAtByte?_append]
  rfl

end DiceBot.Text
