import Mathlib.Data.Nat.Digits.Defs
import DiceBot.Proofs.Command.Reading

/-!
# The first repeat marker

The first marker of a text is told without the scan that finds it: its sign is the first one that
stands directly behind a digit, and its digits are the whole run in front of that sign
(`RepeatMarker.IsFirst`). No other run of digits with a sign behind it begins further left
(`IsFirst.leftmost`), so this is where a search for such a run ends. A text has a first marker
exactly if a sign stands behind a digit somewhere (`exists_isFirst`), and the scan takes out this
marker and nothing else (`take_first_marker`).
-/

namespace DiceBot.RepeatMarker

variable {text before digits after : List Char} {sign : Char}

/-! ## Counts -/

/-- The number that decimal digits spell, the first of them being the highest. -/
def decimalValue (digits : List Char) : Nat :=
  Nat.ofDigits 10 (digits.reverse.map fun d => d.toNat - '0'.toNat)

/-- The count is the number, as long as 32 bits are enough for it. -/
theorem countOf_eq (digits : List Char) : countOf digits =
    if decimalValue digits < 2 ^ 32 then decimalValue digits else 2 ^ 32 - 1 := by
  have hvalue : digits.foldl (fun n c => 10 * n + (c.toNat - '0'.toNat)) 0 =
      decimalValue digits := by
    rw [decimalValue, Nat.ofDigits_eq_foldr, List.foldr_map, List.foldr_reverse]
    simp only [Nat.cast_id, Nat.add_comm]
  rw [countOf, hvalue, maxCount]
  split <;> omega

/-! ## First markers -/

theorem isDigit_of_isSign (h : isSign sign = true) : sign.isDigit = false := by
  rcases Bool.or_eq_true_iff.mp h with h | h <;> rw [beq_iff_eq.mp h] <;> decide

theorem unmarked_concat_iff {front : List Char} {c : Char} : Unmarked (front ++ [c]) ↔
    Unmarked front ∧ ∀ d ∈ front.getLast?, ¬(d.isDigit = true ∧ isSign c = true) := by
  simp [Unmarked, List.isChain_append]

theorem Unmarked.isSign_eq_false {front back : List Char} {d c : Char}
    (h : Unmarked (front ++ [d] ++ c :: back)) (hd : d.isDigit = true) : isSign c = false := by
  have hpair : Unmarked (front ++ [d] ++ [c]) := h.of_part ⟨[], back, by simp⟩
  obtain ⟨-, hapart⟩ := unmarked_concat_iff.mp hpair
  exact eq_false_of_ne_true fun hsign => hapart d (by simp) ⟨hd, hsign⟩

/-- The text with its first marker: the sign is the first one that stands directly behind a digit,
and the digits are all those that stand in front of it without a gap. -/
structure IsFirst (text before digits : List Char) (sign : Char) (after : List Char) : Prop where
  text_eq : text = before ++ digits ++ sign :: after
  ne_nil : digits ≠ []
  isDigit : ∀ d ∈ digits, d.isDigit = true
  whole : ∀ c ∈ before.getLast?, c.isDigit = false
  isSign : isSign sign = true
  first : Unmarked (before ++ digits)

/-- Where a sign stands behind a digit there is a first such sign, and a run of digits before it. -/
theorem exists_isFirst (h : ¬Unmarked text) :
    ∃ before digits sign after, IsFirst text before digits sign after := by
  -- the induction goes from the end, so that a sign found in the front is the first one
  induction text using List.reverseRecOn with
  | nil => exact absurd List.isChain_nil h
  | append_singleton front c ih =>
    by_cases hfront : Unmarked front
    · have hpair : ∃ d ∈ front.getLast?, d.isDigit = true ∧ RepeatMarker.isSign c = true := by
        by_contra hapart
        exact h (unmarked_concat_iff.mpr ⟨hfront, fun d hd hpair => hapart ⟨d, hd, hpair⟩⟩)
      obtain ⟨d, hd, hdigit, hsign⟩ := hpair
      obtain ⟨start, rfl⟩ := List.getLast?_eq_some_iff.mp hd
      have hrun : (start ++ [d]).rdropWhile Char.isDigit ++ (start ++ [d]).rtakeWhile Char.isDigit =
          start ++ [d] := List.rdropWhile_append_rtakeWhile
      refine ⟨(start ++ [d]).rdropWhile Char.isDigit, (start ++ [d]).rtakeWhile Char.isDigit, c, [],
        by rw [hrun], ?_, fun e he => List.mem_rtakeWhile_imp he, fun e he => ?_, hsign,
        by rwa [hrun]⟩
      · rw [List.rtakeWhile_concat_pos _ _ _ hdigit]
        exact List.append_ne_nil_of_right_ne_nil _ (List.cons_ne_nil _ _)
      · obtain ⟨hne, rfl⟩ := List.mem_getLast?_eq_getLast he
        exact eq_false_of_ne_true (List.rdropWhile_last_not Char.isDigit _ hne)
    · obtain ⟨before, digits, sign, after, hfirst⟩ := ih hfront
      refine ⟨before, digits, sign, after ++ [c], ?_, hfirst.ne_nil, hfirst.isDigit, hfirst.whole,
        hfirst.isSign, hfirst.first⟩
      conv_lhs => rw [hfirst.text_eq]
      simp

/-- A run of digits with a sign behind it does not begin further left. -/
theorem IsFirst.leftmost (h : IsFirst text before digits sign after)
    {before' digits' after' : List Char} {sign' : Char}
    (htext : text = before' ++ digits' ++ sign' :: after') (hne : digits' ≠ [])
    (hdigits : ∀ d ∈ digits', d.isDigit = true) (hsign : RepeatMarker.isSign sign' = true) :
    before.length ≤ before'.length := by
  have hsplit : before' ++ (digits' ++ sign' :: after') = before ++ (digits ++ sign :: after) := by
    rw [← List.append_assoc, ← htext, h.text_eq, List.append_assoc]
  rcases List.append_eq_append_iff.mp hsplit with ⟨part, rfl, hpart⟩ | ⟨part, rfl, -⟩
  · -- the text between the two beginnings does not end with a digit
    have hnil : (∀ d ∈ part, d.isDigit = true) → part = [] := by
      intro hall
      rcases List.eq_nil_or_concat part with rfl | ⟨start, c, rfl⟩
      · rfl
      · have hc := h.whole c (by simp)
        rw [hall c (by simp)] at hc
        exact nomatch hc
    rcases List.append_eq_append_iff.mp hpart with ⟨rest, rfl, hrest⟩ | ⟨rest, rfl, -⟩
    · cases rest with
      | nil =>
        rw [hnil (by simpa using hdigits), List.append_nil]
      | cons c rest =>
        -- so the whole other marker stands in front of the first one
        obtain ⟨rfl, -⟩ := List.cons.inj hrest
        obtain ⟨front, d, rfl⟩ := (List.eq_nil_or_concat digits').resolve_left hne
        have hmarked : Unmarked (before' ++ front ++ [d] ++ sign' :: (rest ++ digits)) := by
          simpa using h.first
        rw [hmarked.isSign_eq_false (hdigits d (by simp))] at hsign
        exact nomatch hsign
    · rw [hnil fun d hd => hdigits d (List.mem_append_left rest hd), List.append_nil]
  · rw [List.length_append]
    exact Nat.le_add_right _ _

/-! ## Taking the first marker -/

/-- Up to the last character that is not a digit, the text stays as it is. -/
theorem takeAfter_append (run : List Char) (hrun : ∀ d ∈ run, d.isDigit = true)
    (hend : ∀ c ∈ (run.reverse ++ before).getLast?, c.isDigit = false)
    (h : Unmarked (run.reverse ++ before)) (rest : List Char) :
    takeAfter run (before ++ rest) =
      (run.reverse ++ before ++ (take rest).1, (take rest).2) := by
  induction before generalizing run with
  | nil =>
    cases run with
    | nil => rfl
    | cons d run =>
      have hlast : d.isDigit = false := hend d (by simp)
      exact absurd (hrun d List.mem_cons_self) (ne_true_of_eq_false hlast)
  | cons c before ih =>
    rw [List.cons_append, takeAfter]
    split
    · next hc =>
      have hmore : (c :: run).reverse ++ before = run.reverse ++ c :: before := by simp
      have hdigits : ∀ d ∈ c :: run, d.isDigit = true := List.forall_mem_cons.mpr ⟨hc, hrun⟩
      rw [ih (c :: run) hdigits (by rwa [hmore]) (by rwa [hmore]), hmore]
    · split
      · next hends =>
        -- the run ends with a digit, and behind it there is no sign
        obtain ⟨hsign, hne⟩ := Bool.and_eq_true_iff.mp hends
        obtain ⟨d, run, rfl⟩ := List.exists_cons_of_ne_nil (l := run) (by simpa using hne)
        rw [List.reverse_cons] at h
        have hapart : isSign c = false := h.isSign_eq_false (hrun d List.mem_cons_self)
        exact absurd hsign (ne_true_of_eq_false hapart)
      · have hbefore : before <:+ run.reverse ++ c :: before :=
          (List.suffix_cons c before).trans (List.suffix_append _ _)
        have hlast : ∀ e ∈ before.getLast?, e.isDigit = false := by
          intro e he
          obtain ⟨start, rfl⟩ := List.getLast?_eq_some_iff.mp he
          exact hend e (by simp [List.getLast?_append, List.getLast?_cons])
        have hrest : takeAfter [] (before ++ rest) = (before ++ (take rest).1, (take rest).2) :=
          ih [] (by simp) hlast (h.of_part hbefore.isInfix)
        rw [hrest]
        simp

theorem takeAfter_digits (hdigits : ∀ d ∈ digits, d.isDigit = true) (run rest : List Char) :
    takeAfter run (digits ++ rest) = takeAfter (digits.reverse ++ run) rest := by
  induction digits generalizing run with
  | nil => rfl
  | cons d digits ih =>
    obtain ⟨hd, hdigits⟩ := List.forall_mem_cons.mp hdigits
    rw [List.cons_append, takeAfter, if_pos hd, ih hdigits, List.reverse_cons, List.append_assoc,
      List.singleton_append]

theorem IsFirst.take_eq (h : IsFirst text before digits sign after) :
    take text = (before ++ after, countOf digits) := by
  have hfront : Unmarked before := h.first.of_part (List.prefix_append _ _).isInfix
  have hmarker : take (digits ++ sign :: after) = (after, countOf digits) := by
    rw [take, takeAfter_digits h.isDigit, takeAfter, if_neg (by simp [isDigit_of_isSign h.isSign]),
      if_pos (by simp [h.isSign, h.ne_nil]), List.append_nil, List.reverse_reverse]
  have hscan := takeAfter_append [] (by simp) h.whole hfront (digits ++ sign :: after)
  rw [h.text_eq, List.append_assoc, take, hscan, hmarker]
  rfl

/-- Taking the first marker removes the first sign that stands directly behind a digit and the whole
run of digits before it, and nothing else, and the count is the number that the digits spell, or the
largest of 32 bits if it does not fit. There is such a sign unless the text is unmarked, and no run
of digits with a sign behind it begins further left. An unmarked text stays as it is and the count
is 0. -/
theorem take_first_marker (text : List Char) :
    (Unmarked text → take text = (text, 0)) ∧
    (¬Unmarked text → ∃ before digits sign after, IsFirst text before digits sign after) ∧
    ∀ before digits sign after, IsFirst text before digits sign after →
      take text = (before ++ after,
        if decimalValue digits < 2 ^ 32 then decimalValue digits else 2 ^ 32 - 1) ∧
      ∀ before' digits' sign' after', text = before' ++ digits' ++ sign' :: after' →
        digits' ≠ [] → (∀ d ∈ digits', d.isDigit = true) → isSign sign' = true →
          before.length ≤ before'.length :=
  ⟨take_eq_self, exists_isFirst, fun _ digits _ _ hfirst => ⟨countOf_eq digits ▸ hfirst.take_eq,
    fun _ _ _ _ htext hne hdigits hsign => hfirst.leftmost htext hne hdigits hsign⟩⟩

/-- A marker between others, with zeros in front and the wide sign; one that is too large; and signs
that no digit stands before. -/
theorem take_first_marker_leading_zeros :
    let text := "1a007＃2#".toList
    let large := "4294967296#.r".toList
    let unmarked := "# 1 #".toList
    IsFirst text "1a".toList "007".toList '＃' "2#".toList ∧ take text = ("1a2#".toList, 7) ∧
      take large = (".r".toList, 4294967295) ∧ take unmarked = (unmarked, 0) := by
  intro text large unmarked
  have htext : IsFirst text "1a".toList "007".toList '＃' "2#".toList :=
    ⟨rfl, by decide, by decide, fun c hc => Option.some.inj hc ▸ rfl, rfl, by decide⟩
  have hlarge : IsFirst large [] "4294967296".toList '#' ".r".toList :=
    ⟨rfl, by decide, by decide, nofun, rfl, by decide⟩
  obtain ⟨-, -, hmarked⟩ := take_first_marker text
  obtain ⟨-, -, hsaturated⟩ := take_first_marker large
  obtain ⟨hunmarked, -⟩ := take_first_marker unmarked
  exact ⟨htext, (hmarked _ _ _ _ htext).1, (hsaturated _ _ _ _ hlarge).1, hunmarked (by decide)⟩

end DiceBot.RepeatMarker
