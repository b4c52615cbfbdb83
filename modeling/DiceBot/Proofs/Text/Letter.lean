import DiceBot.Text.Letter
import DiceBot.Text.Numeral
import DiceBot.Proofs.Text.Words

/-!
# Letters among the other characters

A letter is neither white space nor a decimal digit of any script, and it lies behind the digits and
most signs of ASCII. Whether a given sign is a letter is looked up (`ne_of_isLetter`).
-/

namespace DiceBot.Text

/-- Have two tables no code point in common? Both are walked at once, as far as `fuel` allows. -/
def areApart : (fuel : Nat) → List (Nat × Nat) → List (Nat × Nat) → Bool
  | 0, _, _ => false
  | _ + 1, [], _ => true
  | _ + 1, _, [] => true
  | fuel + 1, r :: table, r' :: other =>
      if r.2 < r'.1 then areApart fuel table (r' :: other)
      else r'.2 < r.1 && areApart fuel (r :: table) other

theorem coversCodePoint_cons_iff {r : Nat × Nat} {table : List (Nat × Nat)} {n : Nat} :
    coversCodePoint (r :: table) n = true ↔
      r.1 ≤ n ∧ (n ≤ r.2 ∨ coversCodePoint table n = true) := by
  rw [coversCodePoint]
  split
  · next hlt => exact iff_of_false (by simp) fun h => by omega
  · next hge => simp [Nat.not_lt.mp hge]

theorem not_covers_of_areApart {fuel : Nat} {table other : List (Nat × Nat)} {n : Nat}
    (h : areApart fuel table other = true) (hcovers : coversCodePoint table n = true) :
    ¬coversCodePoint other n = true := by
  induction fuel generalizing table other with
  | zero => exact nomatch h
  | succ fuel ih =>
    cases table with
    | nil => exact nomatch hcovers
    | cons r table =>
      cases other with
      | nil => exact nofun
      | cons r' other =>
        rw [areApart] at h
        have hcovers' := coversCodePoint_cons_iff.mp hcovers
        intro hother
        have hother' := coversCodePoint_cons_iff.mp hother
        split at h
        · -- the point lies behind the first range of the other table, so behind that of this one
          exact ih h (hcovers'.2.resolve_left (by omega)) hother
        · obtain ⟨hlt, h⟩ := Bool.and_eq_true_iff.mp h
          have hlast : r'.2 < r.1 := of_decide_eq_true hlt
          exact ih h hcovers (hother'.2.resolve_left (by omega))

variable {c d : Char}

theorem isBlank_of_isLetter (h : isLetter c = true) : isBlank c = false :=
  eq_false_of_ne_true (not_covers_of_areApart (by decide +kernel : areApart 1000 _ _ = true) h)

theorem isDecimal_of_isLetter (h : isLetter c = true) : isDecimal c = false :=
  eq_false_of_ne_true (not_covers_of_areApart (by decide +kernel : areApart 1000 _ _ = true) h)

theorem ne_of_isLetter (h : isLetter c = true) (hd : isLetter d = false) : c ≠ d := by
  rintro rfl
  rw [h] at hd
  exact nomatch hd

theorem isDigit_of_isLetter (h : isLetter c = true) : c.isDigit = false := by
  obtain ⟨r, hr, hfirst, -⟩ := exists_range_of_coversCodePoint h
  have hranges : ∀ r ∈ letterRanges, 58 ≤ r.1 := by decide +kernel
  have hbehind := hranges r hr
  by_contra hdigit
  have hascii := toNat_of_isDigit (eq_true_of_ne_false hdigit)
  omega

end DiceBot.Text
