/-!
# Tables of code point ranges

A Unicode property is given by the closed ranges of code points that have it, in increasing
order. Membership walks the table and stops at the first range that lies beyond the character.
-/

namespace DiceBot.Text

/-- Does the code point `n` lie in one of the increasing closed ranges? -/
def coversCodePoint : List (Nat × Nat) → Nat → Bool
  | [], _ => false
  | (first, last) :: rest, n =>
      if n < first then false else n ≤ last || coversCodePoint rest n

/-- Does `c` lie in one of the increasing closed ranges? -/
def inRanges (table : List (Nat × Nat)) (c : Char) : Bool := coversCodePoint table c.toNat

/-- Every code point that a table covers lies in one of its ranges. -/
theorem exists_range_of_coversCodePoint {table : List (Nat × Nat)} {n : Nat}
    (h : coversCodePoint table n = true) : ∃ r ∈ table, r.1 ≤ n ∧ n ≤ r.2 := by
  induction table with
  | nil => simp [coversCodePoint] at h
  | cons r rest ih =>
    obtain ⟨first, last⟩ := r
    rw [coversCodePoint] at h
    split at h
    · simp at h
    · rename_i hfirst
      simp only [Bool.or_eq_true, decide_eq_true_eq] at h
      rcases h with h | h
      · exact ⟨(first, last), by simp, by omega, h⟩
      · obtain ⟨r, hr, hb⟩ := ih h
        exact ⟨r, by simp [hr], hb⟩

end DiceBot.Text
