import DiceBot.Proofs.Text.Words
import DiceBot.Text.Basic

/-!
# Cutting a text at a character

Cutting at every separator is `List.splitOn` (`splitOnChar_eq_splitOn`), so joining the pieces by
the separator gives the text back. Cutting at the first one only is described by what stands before
and behind it (`splitOnce?_eq_some_iff`).
-/

namespace DiceBot.Text

variable {sep : Char} {cs : List Char}

/-! ## At every separator -/

theorem splitOnChar_ne_nil (sep : Char) (cs : List Char) : splitOnChar sep cs ≠ [] := by
  cases cs with
  | nil => simp [splitOnChar]
  | cons c cs =>
    rw [splitOnChar]
    split
    · simp
    · split <;> simp

theorem splitOnChar_cons (sep c : Char) (cs : List Char) :
    splitOnChar sep (c :: cs) =
      if c = sep then [] :: splitOnChar sep cs
      else (splitOnChar sep cs).modifyHead (List.cons c) := by
  rw [splitOnChar]
  split
  · rfl
  · split
    · next hnil => exact absurd hnil (splitOnChar_ne_nil sep cs)
    · next hcons => rw [hcons, List.modifyHead_cons]

theorem splitOnChar_eq_splitOn (sep : Char) (cs : List Char) :
    splitOnChar sep cs = cs.splitOn sep := by
  induction cs with
  | nil => rfl
  | cons c cs ih =>
    rw [splitOnChar_cons, List.splitOn_cons_eq_if_modifyHead, ih]
    simp only [beq_iff_eq]

theorem notMem_of_mem_splitOnChar {piece : List Char} (h : piece ∈ splitOnChar sep cs) :
    sep ∉ piece := by
  induction cs generalizing piece with
  | nil =>
    obtain rfl := List.mem_singleton.mp h
    exact List.not_mem_nil
  | cons c cs ih =>
    rw [splitOnChar_cons] at h
    split at h
    · rcases List.mem_cons.mp h with rfl | h
      · exact List.not_mem_nil
      · exact ih h
    · next hc =>
      obtain ⟨first, pieces, heq⟩ := List.exists_cons_of_ne_nil (splitOnChar_ne_nil sep cs)
      rw [heq] at h ih
      rcases List.mem_cons.mp h with rfl | h
      · rintro (_ | ⟨_, hmem⟩)
        · exact hc rfl
        · exact ih List.mem_cons_self hmem
      · exact ih (List.mem_cons_of_mem _ h)

/-- A piece of a text has no other characters than the text. -/
theorem mem_of_mem_splitOnChar {piece : List Char} (h : piece ∈ splitOnChar sep cs) {c : Char}
    (hc : c ∈ piece) : c ∈ cs := by
  have hjoin : List.intercalate [sep] (splitOnChar sep cs) = cs := by
    rw [splitOnChar_eq_splitOn, List.intercalate_splitOn]
  exact hjoin ▸ (infix_intercalate h [sep]).subset hc

/-- The pieces with a separator in front of each are the text with one more in front. -/
theorem flatMap_splitOnChar (sep : Char) (cs : List Char) :
    (splitOnChar sep cs).flatMap (fun piece => sep :: piece) = sep :: cs := by
  induction cs with
  | nil => rfl
  | cons c cs ih =>
    rw [splitOnChar_cons]
    split
    · next hc => rw [List.flatMap_cons, ih, hc, List.singleton_append]
    · obtain ⟨first, pieces, heq⟩ := List.exists_cons_of_ne_nil (splitOnChar_ne_nil sep cs)
      rw [heq, List.flatMap_cons, List.cons_append] at ih
      rw [heq, List.modifyHead_cons, List.flatMap_cons, List.cons_append, List.cons_append,
        (List.cons.inj ih).2]

/-! ## At the first separator -/

theorem exists_eq_takeWhile_append (h : (cs.takeWhile (· ≠ sep)).length ≠ cs.length) :
    ∃ back, cs = cs.takeWhile (· ≠ sep) ++ sep :: back := by
  have hsplit : cs.takeWhile (· ≠ sep) ++ cs.dropWhile (· ≠ sep) = cs :=
    List.takeWhile_append_dropWhile
  have hhead := List.head?_dropWhile_not (· ≠ sep) cs
  cases hback : cs.dropWhile (· ≠ sep) with
  | nil =>
    rw [hback, List.append_nil] at hsplit
    exact absurd (congrArg List.length hsplit) h
  | cons c back =>
    rw [hback] at hsplit hhead
    obtain rfl : c = sep := by simpa using hhead
    exact ⟨back, hsplit.symm⟩

theorem splitOnce?_eq_some_iff {before after : List Char} :
    splitOnce? sep cs = some (before, after) ↔ cs = before ++ sep :: after ∧ sep ∉ before := by
  induction cs generalizing before with
  | nil => simp [splitOnce?]
  | cons c cs ih =>
    rw [splitOnce?]
    constructor
    · intro h
      split at h
      · next hc =>
        obtain ⟨rfl, rfl⟩ := Prod.mk.inj (Option.some.inj h)
        exact ⟨by rw [hc]; rfl, List.not_mem_nil⟩
      · next hc =>
        obtain ⟨⟨front, back⟩, hsplit, heq⟩ := Option.map_eq_some_iff.mp h
        obtain ⟨rfl, rfl⟩ := Prod.mk.inj heq
        obtain ⟨rfl, hfront⟩ := ih.mp hsplit
        exact ⟨rfl, List.not_mem_cons_of_ne_of_not_mem (Ne.symm hc) hfront⟩
    · rintro ⟨heq, hbefore⟩
      cases before with
      | nil =>
        obtain ⟨rfl, rfl⟩ := List.cons.inj heq
        exact if_pos rfl
      | cons d before =>
        obtain ⟨rfl, rfl⟩ := List.cons.inj heq
        obtain ⟨hne, hbefore⟩ := List.ne_and_not_mem_of_not_mem_cons hbefore
        rw [if_neg (Ne.symm hne), ih.mpr ⟨rfl, hbefore⟩]
        rfl

end DiceBot.Text
