import DiceBot.Proofs.Markup.Rewriting
import DiceBot.Proofs.Text.Bytes

/-!
# Replacement in place

A text is kept as its bytes, and its occurrences are ranges of bytes that were found before anything
was replaced. Replacing one of them in place moves what stands behind it by as many bytes as the
text has become longer or shorter. Going from the last occurrence to the first, the text in front of
those still to be replaced is as it was, and with it their ranges
(`Pattern.replaceBytes_eq_utf8_replace`). So what comes out is the splice of the stretches between
the occurrences with all the replacements at once (`InlineCode.rewriting_is_simultaneous`).

In which order the occurrences are visited is told by a log (`Pattern.logged`), which changes
nothing else.
-/

namespace DiceBot

open Text

namespace Occurrence

variable {α : Type}

/-- The number of bytes of a text in front of an occurrence. -/
def firstByte (o : Occurrence α) (text : List Char) : Nat := byteLength (text.take o.start)

/-- The number of bytes of a text up to the end of an occurrence. -/
def stopByte (o : Occurrence α) (text : List Char) : Nat := byteLength (text.take o.stop)

/-- The text up to the end of an occurrence is what stands in front of it and its own text. -/
theorem take_stop_eq (o : Occurrence α) (h : o.start ≤ o.stop) (text : List Char) :
    text.take o.stop = text.take o.start ++ o.text text := by
  have hfront : (text.take o.stop).take o.start = text.take o.start := by
    rw [List.take_take, Nat.min_eq_left h]
  rw [Occurrence.text, ← hfront, List.take_append_drop]

end Occurrence

namespace Pattern

variable {α β γ σ : Type}

/-! ## Bytes in place -/

/-- Puts other bytes in the place of those from `first` up to but not including `stop`. -/
def replaceBytes (first stop : Nat) (replacement out : List UInt8) : List UInt8 :=
  out.take first ++ replacement ++ out.drop stop

/-- Replaces occurrences in place, given from the last to the first. The ranges of bytes are those
of the occurrences in the original text. -/
def replaceAllBytes (solve : σ → List Char → List Char × σ) (text : List Char) :
    List (Occurrence α) → List UInt8 → σ → List UInt8 × σ
  | [], out, s => (out, s)
  | o :: os, out, s =>
      let (replacement, s) := solve s (o.text text)
      replaceAllBytes solve text os
        (replaceBytes (o.firstByte text) (o.stopByte text) (utf8 replacement) out) s

theorem replaceBytes_utf8 (front middle back replacement : List Char) :
    replaceBytes (byteLength front) (byteLength (front ++ middle)) (utf8 replacement)
        (utf8 (front ++ middle ++ back)) = utf8 (front ++ replacement ++ back) := by
  have hfront : (utf8 (front ++ middle ++ back)).take (byteLength front) = utf8 front := by
    rw [List.append_assoc, utf8_append, ← length_utf8, List.take_left]
  have hback : (utf8 (front ++ middle ++ back)).drop (byteLength (front ++ middle)) =
      utf8 back := by
    rw [utf8_append, ← length_utf8, List.drop_left]
  rw [replaceBytes, hfront, hback, utf8_append, utf8_append]

/-- As long as a text has not changed up to the end of an occurrence, the range of bytes that it had
in the original text is the one to replace. -/
theorem replaceBytes_eq_utf8_replace {o : Occurrence α} {text : List Char} (h : o.start ≤ o.stop)
    (hstop : o.stop ≤ text.length) (replacement back : List Char) :
    replaceBytes (o.firstByte text) (o.stopByte text) (utf8 replacement)
        (utf8 (text.take o.stop ++ back)) =
      utf8 (replace o replacement (text.take o.stop ++ back)) := by
  have hlen : (text.take o.stop).length = o.stop := List.length_take_of_le hstop
  have hreplace : replace o replacement (text.take o.stop ++ back) =
      text.take o.start ++ replacement ++ back := by
    rw [replace, List.take_append_of_le_length (by omega), List.take_take, Nat.min_eq_left h,
      List.drop_left' hlen]
  rw [hreplace, Occurrence.firstByte, Occurrence.stopByte, o.take_stop_eq h, replaceBytes_utf8]

theorem replaceAllBytes_append (solve : σ → List Char → List Char × σ) (text : List Char)
    (os os' : List (Occurrence α)) (out : List UInt8) (s : σ) :
    replaceAllBytes solve text (os ++ os') out s =
      replaceAllBytes solve text os' (replaceAllBytes solve text os out s).1
        (replaceAllBytes solve text os out s).2 := by
  induction os generalizing out s with
  | nil => rfl
  | cons o os ih => exact ih _ _

/-- Replacing ranges of bytes from the last to the first is replacing the occurrences. -/
theorem replaceAllBytes_reverse (solve : σ → List Char → List Char × σ) {text : List Char}
    {os : List (Occurrence α)} {start : Nat} (h : InOrder start text.length os) (s : σ) :
    replaceAllBytes solve text os.reverse (utf8 text) s =
      (utf8 (replaceAll solve text os.reverse text s).1,
        (replaceAll solve text os.reverse text s).2) := by
  induction os generalizing start with
  | nil => rfl
  | cons o os ih =>
    obtain ⟨-, hstop, hos⟩ := h
    rw [List.reverse_cons, replaceAllBytes_append, replaceAll_append, ih hos,
      replaceAll_reverse solve hos]
    -- the later occurrences have left the text as it was up to the end of this one
    simp only [replaceAllBytes, replaceAll, Prod.mk.injEq, and_true]
    exact replaceBytes_eq_utf8_replace hstop hos.le _ _

/-! ## The order of the visits -/

/-- A function that carries a state, with a log of what it was applied to. -/
def logged (f : σ → β → γ × σ) (s : σ × List β) (b : β) : γ × σ × List β :=
  let (result, state) := f s.1 b
  (result, state, s.2 ++ [b])

/-- Mapping from the right visits the elements in reverse. -/
theorem mapFromRight_logged (f : σ → β → γ × σ) (bs : List β) (s : σ) :
    mapFromRight (logged f) bs (s, []) =
      ((mapFromRight f bs s).1, (mapFromRight f bs s).2, bs.reverse) := by
  induction bs with
  | nil => rfl
  | cons b bs ih =>
    rw [mapFromRight, ih, List.reverse_cons]
    rfl

/-! ## Stretches and occurrences -/

/-- A text from some place on is its stretches with its occurrences between them. -/
theorem splice_stretchesFrom {text : List Char} {os : List (Occurrence α)} {start : Nat}
    (h : InOrder start text.length os) :
    splice (stretchesFrom text start os) (os.map (Occurrence.text · text)) = text.drop start := by
  induction os generalizing start with
  | nil => simp [stretchesFrom, splice]
  | cons o os ih =>
    obtain ⟨hstart, hstop, hos⟩ := h
    have hlen : start ≤ (text.take o.start).length := by
      rw [List.length_take_of_le (hstop.trans hos.le)]
      exact hstart
    calc splice (stretchesFrom text start (o :: os)) ((o :: os).map (Occurrence.text · text))
        = (text.take o.start).drop start ++ o.text text ++ text.drop o.stop := by
          rw [List.map_cons, stretchesFrom, splice, ih hos]
      _ = (text.take o.stop).drop start ++ text.drop o.stop := by
          rw [o.take_stop_eq hstop, List.drop_append_of_le_length hlen]
      _ = text.drop start := by
          have hle : start ≤ (text.take o.stop).length := by
            rw [List.length_take_of_le hos.le]
            exact hstart.trans hstop
          rw [← List.drop_append_of_le_length hle, List.take_append_drop]

end Pattern

namespace InlineCode

open Pattern

theorem proper_imagePattern : Proper imagePattern :=
  (proper_bracketed _).orElse (proper_bracketed _)

theorem all_eq (text : List Char) : all text = (pattern.matched text).map parse := by
  rw [all, matched, List.map_map]
  rfl

/-- Editing the codes of a text puts what is written for them between its stretches. -/
theorem editAll_eq_splice {σ : Type} (edit : σ → InlineCode → InlineCode × σ) (text : List Char)
    (s : σ) :
    editAll edit text s =
      (splice (pattern.gaps text) ((mapFromRight edit (all text) s).1.map written),
        (mapFromRight edit (all text) s).2) := by
  rw [editAll, proper_pattern.substitute_eq_splice, mapFromRight_edit, all_eq]

/-- Replacing from the last occurrence to the first is replacing all at once. Whatever ranges of a
text are given in order, the text cut at them, with the replacements in their places, is what comes
out, and so it is when bytes are replaced in place at the places that the ranges had in the original
text. The solver gets the original texts of the ranges from the last to the first. The occurrences
of a pattern are in order, and the codes of a text are visited in reverse. -/
theorem rewriting_is_simultaneous {α σ : Type} :
    (∀ (solve : σ → List Char → List Char × σ) (text : List Char) (os : List (Occurrence α))
        (s : σ), InOrder 0 text.length os →
      let found := os.map (Occurrence.text · text)
      let (replacements, state) := mapFromRight solve found s
      let spliced := splice (stretchesFrom text 0 os) replacements
      text = splice (stretchesFrom text 0 os) found ∧ replacements.length = os.length ∧
      replaceAll solve text os.reverse text s = (spliced, state) ∧
      replaceAllBytes solve text os.reverse (utf8 text) s = (utf8 spliced, state) ∧
      replaceAll (logged solve) text os.reverse text (s, []) = (spliced, state, found.reverse)) ∧
    (∀ p : Pattern α, Proper p → ∀ text, InOrder 0 text.length (p.occurrences text)) ∧
    ∀ (edit : σ → InlineCode → InlineCode × σ) (text : List Char) (s : σ),
      editAll (logged edit) text (s, []) =
        ((editAll edit text s).1, (editAll edit text s).2, (all text).reverse) := by
  refine ⟨fun solve text os s h => ?_, fun p hp => hp.inOrder_occurrences, fun edit text s => ?_⟩
  · intro found
    have hall := replaceAll_reverse solve h s
    rw [List.take_zero, List.nil_append] at hall
    have hlogged := replaceAll_reverse (logged solve) h (s, [])
    rw [mapFromRight_logged, List.take_zero, List.nil_append] at hlogged
    refine ⟨(splice_stretchesFrom h).symm, by simp [found], hall, ?_, hlogged⟩
    rw [replaceAllBytes_reverse solve h, hall]
  · rw [editAll_eq_splice, editAll_eq_splice, mapFromRight_logged]

/-- One picture is taken out and one is doubled, among characters of several bytes. -/
theorem rewriting_is_simultaneous_pictures :
    let solve : Nat → List Char → List Char × Nat :=
      fun n m => (if n = 0 then [] else m ++ m, n + 1)
    let text := "力[img:a]é[图:b]".toList
    let os := imagePattern.occurrences text
    InOrder 0 text.length os ∧
      replaceAllBytes solve text os.reverse (utf8 text) 0 =
        (utf8 "力[img:a][img:a]é".toList, 2) := by
  intro solve text os
  have horder : InOrder 0 text.length os :=
    (rewriting_is_simultaneous (σ := Nat)).2.1 imagePattern proper_imagePattern text
  refine ⟨horder, ?_⟩
  rw [(rewriting_is_simultaneous.1 solve text os 0 horder).2.2.2.1]
  decide

end InlineCode

end DiceBot
