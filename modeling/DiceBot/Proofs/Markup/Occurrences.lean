import Mathlib.Data.List.Infix
import DiceBot.Markup.InlineCode
import DiceBot.Markup.Mention

/-!
# Where patterns occur

A pattern that recognises nothing at any place of a text (`Pattern.Absent`) has no occurrences
there, and substitution leaves the text as it is (`Pattern.Absent.map_eq_self`). So it is where a
character of the opening does not stand in the text (`InlineCode.absent_pattern`,
`Mention.absent_pattern`). Otherwise the occurrences are found one after the other, and what stands
before an occurrence only moves it (`Pattern.occurrences_of_some`, `Pattern.occurrences_of_none`).
-/

namespace DiceBot

/-- The same occurrence in a text that has `k` more characters in front. -/
def Occurrence.shift {α : Type} (k : Nat) (o : Occurrence α) : Occurrence α :=
  ⟨o.start + k, o.stop + k, o.meaning⟩

namespace Pattern

variable {α : Type} (p : Pattern α)

/-! ## No occurrences -/

/-- The pattern recognises nothing at any place of the text. -/
def Absent (cs : List Char) : Prop := ∀ tail, tail <:+ cs → p tail = none

instance (cs : List Char) : Decidable (p.Absent cs) :=
  decidable_of_iff (∀ tail ∈ cs.tails, (p tail).isNone = true) (by simp [Absent])

variable {p} {cs : List Char}

theorem Absent.of_suffix {tail : List Char} (h : p.Absent cs) (htail : tail <:+ cs) :
    p.Absent tail := fun _ hsuffix => h _ (hsuffix.trans htail)

theorem Absent.occurrencesFrom_eq_nil (h : p.Absent cs) (start : Nat) :
    p.occurrencesFrom 0 start cs = [] := by
  induction cs generalizing start with
  | nil => rfl
  | cons c cs ih =>
    rw [occurrencesFrom, h _ (List.suffix_refl _)]
    exact ih (h.of_suffix (List.suffix_cons c cs)) (start + 1)

theorem Absent.occurrences_eq_nil (h : p.Absent cs) : p.occurrences cs = [] :=
  h.occurrencesFrom_eq_nil 0

theorem Absent.map_eq_self (h : p.Absent cs) (f : List Char → List Char) : p.map f cs = cs := by
  rw [map, substitute, h.occurrences_eq_nil]
  rfl

theorem isPrefixOf?_eq_none {opening tail : List Char} {c : Char} (hc : c ∈ opening) (h : c ∉ cs)
    (htail : tail <:+ cs) : opening.isPrefixOf? tail = none := by
  cases hfront : opening.isPrefixOf? tail with
  | none => rfl
  | some rest =>
    have heq := List.append_eq_of_isPrefixOf?_eq_some hfront
    exact absurd (htail.mem (heq ▸ List.mem_append_left rest hc)) h

section Opening

variable {opening : List Char} {c : Char} (hc : c ∈ opening) (h : c ∉ cs)

include hc h

theorem absent_enclosed (allowed : Char → Bool) (closing : List Char → Option Nat) :
    (enclosed opening allowed closing).Absent cs := by
  intro tail htail
  rw [enclosed, isPrefixOf?_eq_none hc h htail]

theorem absent_bracketed : (bracketed opening).Absent cs := by
  intro tail htail
  rw [bracketed, isPrefixOf?_eq_none hc h htail]

end Opening

theorem Absent.orElse {q : Pattern α} (hp : p.Absent cs) (hq : q.Absent cs) :
    (p.orElse q).Absent cs := by
  intro tail htail
  rw [Pattern.orElse, hp tail htail, hq tail htail, Option.or_none]

/-! ## One occurrence after the other -/

variable (p)

/-- What the occurrences in a text mean, from left to right. -/
def meanings (cs : List Char) : List α := (p.occurrences cs).map Occurrence.meaning

/-- Characters that belong to an earlier occurrence are passed over. -/
theorem occurrencesFrom_skip (skip start : Nat) (cs : List Char) :
    p.occurrencesFrom skip start cs = p.occurrencesFrom 0 (start + skip) (cs.drop skip) := by
  induction cs generalizing skip start with
  | nil => simp [occurrencesFrom]
  | cons c cs ih =>
    cases skip with
    | zero => rfl
    | succ skip =>
      rw [occurrencesFrom, ih, List.drop_succ_cons, Nat.add_assoc, Nat.add_comm 1]

/-- The number of the first character only moves the occurrences. -/
theorem occurrencesFrom_add (skip start k : Nat) (cs : List Char) :
    p.occurrencesFrom skip (start + k) cs =
      (p.occurrencesFrom skip start cs).map (Occurrence.shift k) := by
  induction cs generalizing skip start with
  | nil => simp [occurrencesFrom]
  | cons c cs ih =>
    have hnext : start + k + 1 = start + 1 + k := by omega
    cases skip with
    | succ skip =>
      rw [occurrencesFrom, occurrencesFrom, hnext, ih]
    | zero =>
      unfold occurrencesFrom
      split
      · next n meaning _ =>
        have hstop : start + k + n = start + n + k := by omega
        rw [List.map_cons, hnext, ih, hstop]
        rfl
      · rw [hnext, ih]

variable {p}

/-- What is recognised at the front of a text is its first occurrence, and the others are found
behind it. -/
theorem occurrences_of_some {n : Nat} {meaning : α} (hcs : cs ≠ []) (hn : 0 < n)
    (h : p cs = some (n, meaning)) : p.occurrences cs =
      ⟨0, n, meaning⟩ :: (p.occurrences (cs.drop n)).map (Occurrence.shift n) := by
  cases cs with
  | nil => exact absurd rfl hcs
  | cons c cs =>
    obtain ⟨n, rfl⟩ : ∃ k, n = k + 1 := ⟨n - 1, by omega⟩
    unfold occurrences
    rw [occurrencesFrom, h, List.drop_succ_cons, ← occurrencesFrom_add]
    dsimp only
    rw [Nat.add_sub_cancel, occurrencesFrom_skip, Nat.zero_add, Nat.zero_add,
      Nat.add_comm 1]

theorem occurrences_of_none {c : Char} (h : p (c :: cs) = none) :
    p.occurrences (c :: cs) = (p.occurrences cs).map (Occurrence.shift 1) := by
  unfold occurrences
  rw [occurrencesFrom, h, ← occurrencesFrom_add]

theorem meanings_of_some {n : Nat} {meaning : α} (hcs : cs ≠ []) (hn : 0 < n)
    (h : p cs = some (n, meaning)) : p.meanings cs = meaning :: p.meanings (cs.drop n) := by
  rw [meanings, occurrences_of_some hcs hn h, List.map_cons, List.map_map]
  rfl

theorem meanings_of_none {c : Char} (h : p (c :: cs) = none) :
    p.meanings (c :: cs) = p.meanings cs := by
  rw [meanings, occurrences_of_none h, List.map_map]
  rfl

end Pattern

/-! ## Texts without markup -/

open Pattern

variable {cs : List Char}

theorem InlineCode.absent_pattern (h : '[' ∉ cs) : InlineCode.pattern.Absent cs :=
  absent_bracketed (by decide) h

theorem Mention.absent_pattern (platform : String) (hround : '(' ∉ cs) (hangle : '<' ∉ cs)
    (hslash : '/' ∉ cs) (hsquare : '[' ∉ cs) : (Mention.pattern platform).Absent cs := by
  unfold Mention.pattern
  split
  · exact absent_enclosed (c := '(') (by decide) hround _ _
  · exact (absent_enclosed (c := '<') (by decide) hangle _ _).orElse
      (absent_enclosed (c := '<') (by decide) hangle _ _)
  · exact absent_enclosed (c := '<') (by decide) hangle _ _
  · exact absent_enclosed (c := '<') (by decide) hangle _ _
  · exact absent_enclosed (c := '<') (by decide) hangle _ _
  · exact absent_enclosed (c := '<') (by decide) hangle _ _
  · exact absent_enclosed (c := '/') (by decide) hslash _ _
  · exact absent_enclosed (c := '[') (by decide) hsquare _ _

theorem Mention.extract_of_absent {platform : String} (h : (Mention.pattern platform).Absent cs) :
    Mention.extract cs platform = (cs, []) := by
  unfold Mention.extract
  rw [h.map_eq_self, h.occurrences_eq_nil]
  rfl

end DiceBot
