/-!
# Sorting

Stable sorting of short lists by insertion. The result has the same elements (`sortBy_perm`) and,
for a total order, is in order (`sortBy_pairwise`).
-/

namespace DiceBot.Text

variable {α : Type}

/-- Puts an element in front of the first one that it may precede. -/
def insertSorted (precedes : α → α → Bool) (x : α) : List α → List α
  | [] => [x]
  | y :: ys => if precedes x y then x :: y :: ys else y :: insertSorted precedes x ys

/-- The elements in order; those that may precede one another stay as they are. -/
def sortBy (precedes : α → α → Bool) (xs : List α) : List α :=
  xs.foldr (insertSorted precedes) []

theorem insertSorted_perm (precedes : α → α → Bool) (x : α) (xs : List α) :
    (insertSorted precedes x xs).Perm (x :: xs) := by
  induction xs with
  | nil => exact .refl _
  | cons y ys ih =>
    rw [insertSorted]
    split
    · exact .refl _
    · exact (ih.cons y).trans (.swap x y ys)

/-- Sorting keeps the elements. -/
theorem sortBy_perm (precedes : α → α → Bool) (xs : List α) : (sortBy precedes xs).Perm xs := by
  induction xs with
  | nil => exact .refl _
  | cons x xs ih => exact (insertSorted_perm precedes x _).trans (ih.cons x)

theorem insertSorted_pairwise {precedes : α → α → Bool}
    (htrans : ∀ a b c, precedes a b → precedes b c → precedes a c)
    (htotal : ∀ a b, precedes a b || precedes b a) (x : α) {xs : List α}
    (hxs : xs.Pairwise fun a b => precedes a b) :
    (insertSorted precedes x xs).Pairwise fun a b => precedes a b := by
  induction xs with
  | nil => exact List.pairwise_singleton _ x
  | cons y ys ih =>
    obtain ⟨hy, hys⟩ := List.pairwise_cons.mp hxs
    rw [insertSorted]
    split
    · rename_i hxy
      refine List.pairwise_cons.mpr ⟨fun z hz => ?_, hxs⟩
      rcases List.mem_cons.mp hz with rfl | hz
      · exact hxy
      · exact htrans x y z hxy (hy z hz)
    · rename_i hxy
      have hyx : precedes y x = true := by simpa [hxy] using htotal x y
      refine List.pairwise_cons.mpr ⟨fun z hz => ?_, ih hys⟩
      rcases List.mem_cons.mp ((insertSorted_perm precedes x ys).mem_iff.mp hz) with rfl | hz
      · exact hyx
      · exact hy z hz

/-- By a total order, the result is in order. -/
theorem sortBy_pairwise {precedes : α → α → Bool}
    (htrans : ∀ a b c, precedes a b → precedes b c → precedes a c)
    (htotal : ∀ a b, precedes a b || precedes b a) (xs : List α) :
    (sortBy precedes xs).Pairwise fun a b => precedes a b := by
  induction xs with
  | nil => exact .nil
  | cons x xs ih => exact insertSorted_pairwise htrans htotal x ih

end DiceBot.Text
