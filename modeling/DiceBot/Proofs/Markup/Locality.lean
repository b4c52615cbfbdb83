import DiceBot.Proofs.Markup.Occurrences
import DiceBot.Proofs.Text.Words

/-!
# What a pattern looks at

Whether a pattern recognises something at the front of a text depends on the characters that it
takes, and on what stands behind them only in that a run of characters may go on there
(`Pattern.Local`). This holds of codes (`InlineCode.proper_pattern`) and of the mentions of every
platform (`Mention.proper_pattern`), from what each way to build a pattern recognises
(`Pattern.bracketed_eq_some_iff`, `Pattern.enclosed_eq_some_iff`).
-/

namespace DiceBot

namespace Pattern

/-- A recognizer of the front of a text whose results take `len` characters. -/
structure Local {β : Type} (len : β → Nat) (f : List Char → Option β) : Prop where
  /-- A result takes no more characters than there are. -/
  le_length : ∀ {cs b}, f cs = some b → len b ≤ cs.length
  /-- A result is found in the characters that it takes without those behind them. -/
  of_append : ∀ {front} back {b}, f (front ++ back) = some b → len b ≤ front.length →
    f front = some b
  /-- More characters behind a text do not hide what is found in it. -/
  isSome_append : ∀ {front} back, (f front).isSome → (f (front ++ back)).isSome

/-- A pattern that is local and never takes nothing. -/
structure Proper {α : Type} (p : Pattern α) : Prop extends Local Prod.fst p where
  pos : ∀ {cs n meaning}, p cs = some (n, meaning) → 0 < n

variable {α β : Type} {len : β → Nat} {f : List Char → Option β}

/-- A front of a text that is no longer than another front is a front of that one. -/
theorem exists_eq_append_of_append_eq {front back w rest : List Char}
    (h : front ++ back = w ++ rest) (hlen : w.length ≤ front.length) :
    ∃ left, front = w ++ left ∧ rest = left ++ back := by
  obtain ⟨left, rfl⟩ : w <+: front :=
    List.prefix_of_prefix_length_le ⟨rest, h.symm⟩ (List.prefix_append front back) hlen
  rw [List.append_assoc] at h
  exact ⟨left, rfl, (List.append_cancel_left h).symm⟩

/-- A recognizer is local if what it finds is told by the characters that it takes alone. -/
theorem Local.of_iff {W : List Char → β → Prop} (hlen : ∀ {w b}, W w b → len b = w.length)
    (h : ∀ {cs b}, f cs = some b ↔ ∃ w rest, cs = w ++ rest ∧ W w b) : Local len f where
  le_length hf := by
    obtain ⟨w, rest, rfl, hw⟩ := h.mp hf
    rw [hlen hw, List.length_append]
    exact Nat.le_add_right _ _
  of_append {front} back {b} hf hle := by
    obtain ⟨w, rest, heq, hw⟩ := h.mp hf
    obtain ⟨left, rfl, -⟩ := exists_eq_append_of_append_eq heq (hlen hw ▸ hle)
    exact h.mpr ⟨w, left, rfl, hw⟩
  isSome_append back hf := by
    obtain ⟨b, hb⟩ := Option.isSome_iff_exists.mp hf
    obtain ⟨w, rest, rfl, hw⟩ := h.mp hb
    rw [h.mpr ⟨w, rest ++ back, List.append_assoc _ _ _, hw⟩]
    rfl

/-! ## Codes in brackets -/

theorem throughOnLine_eq_some_iff {c : Char} {cs : List Char} {n : Nat} :
    throughOnLine c cs = some n ↔
      ∃ line rest, cs = line ++ c :: rest ∧ c ∉ line ∧ '\n' ∉ line ∧ n = line.length + 1 := by
  induction cs generalizing n with
  | nil => simp [throughOnLine]
  | cons x cs ih =>
    rw [throughOnLine]
    split
    · next hx =>
      subst hx
      constructor
      · intro h
        exact ⟨[], cs, rfl, List.not_mem_nil, List.not_mem_nil, (Option.some.inj h).symm⟩
      · rintro ⟨line, rest, heq, hc, -, rfl⟩
        cases line with
        | nil => rfl
        | cons y line => exact absurd (List.cons.inj heq).1 fun h => hc (h ▸ List.mem_cons_self)
    · next hx =>
      split
      · next hend =>
        -- the line ends before the character
        simp only [reduceCtorEq, false_iff]
        rintro ⟨line, rest, heq, -, hline, -⟩
        cases line with
        | nil => exact hx (List.cons.inj heq).1
        | cons y line =>
          exact hline ((List.cons.inj heq).1 ▸ hend ▸ List.mem_cons_self)
      · next hend =>
        rw [Option.map_eq_some_iff]
        constructor
        · rintro ⟨m, hm, rfl⟩
          obtain ⟨line, rest, rfl, hc, hline, rfl⟩ := ih.mp hm
          exact ⟨x :: line, rest, rfl, by simp [hc, Ne.symm hx], by simp [hline, Ne.symm hend], rfl⟩
        · rintro ⟨line, rest, heq, hc, hline, rfl⟩
          cases line with
          | nil => exact absurd (List.cons.inj heq).1 hx
          | cons y line =>
            have hrest := (List.cons.inj heq).2
            exact ⟨_, ih.mpr ⟨line, rest, hrest, by simp_all, by simp_all, rfl⟩, rfl⟩

/-- The text is an opening, one character of the line, the others up to a `]`, and the `]`. -/
def Bracketed (opening cs : List Char) : Prop :=
  ∃ c line, cs = opening ++ c :: line ++ [']'] ∧ c ≠ '\n' ∧ ']' ∉ line ∧ '\n' ∉ line

theorem bracketed_eq_some_iff {opening cs : List Char} {b : Nat × Unit} :
    bracketed opening cs = some b ↔
      ∃ w rest, cs = w ++ rest ∧ Bracketed opening w ∧ b.1 = w.length := by
  obtain ⟨n, ⟨⟩⟩ := b
  unfold bracketed
  split
  · next c rest hfront =>
    obtain rfl := List.append_eq_of_isPrefixOf?_eq_some hfront
    split
    · next hc =>
      simp only [reduceCtorEq, false_iff]
      rintro ⟨w, tail, heq, ⟨c', line, rfl, hc', -, -⟩, -⟩
      simp only [List.append_assoc, List.append_cancel_left_eq, List.cons_append,
        List.cons.injEq] at heq
      exact hc' (heq.1 ▸ hc)
    · next hc =>
      -- the first character may be a bracket, so the nearest one is looked for behind it
      simp only [Option.map_eq_some_iff, throughOnLine_eq_some_iff, Prod.mk.injEq, and_true]
      constructor
      · rintro ⟨_, ⟨line, tail, rfl, hline, hend, rfl⟩, rfl⟩
        exact ⟨opening ++ c :: line ++ [']'], tail, by simp, ⟨c, line, rfl, hc, hline, hend⟩,
          by simp; omega⟩
      · rintro ⟨w, tail, heq, ⟨c', line, rfl, -, hline, hend⟩, rfl⟩
        simp only [List.append_assoc, List.append_cancel_left_eq, List.cons_append,
          List.cons.injEq, List.nil_append] at heq
        exact ⟨line.length + 1, ⟨line, tail, heq.2, hline, hend, rfl⟩, by simp; omega⟩
  · next hfront =>
    simp only [reduceCtorEq, false_iff]
    rintro ⟨w, tail, rfl, ⟨c, line, rfl, -, -, -⟩, -⟩
    refine hfront c (line ++ [']'] ++ tail) ?_
    rw [List.isPrefixOf?_eq_some_iff_append_eq]
    simp

theorem proper_bracketed (opening : List Char) : Proper (bracketed opening) where
  toLocal := Local.of_iff (fun h => h.2) bracketed_eq_some_iff
  pos h := by
    obtain ⟨w, rest, -, ⟨c, line, rfl, -⟩, hn⟩ := bracketed_eq_some_iff.mp h
    have hlen : (opening ++ c :: line ++ [']']).length = opening.length + line.length + 2 := by
      simp; omega
    omega

/-- A code that is found in a text is found whatever stands behind the text. -/
theorem bracketed_append {opening front : List Char} {b : Nat × Unit}
    (h : bracketed opening front = some b) (back : List Char) :
    bracketed opening (front ++ back) = some b := by
  obtain ⟨w, rest, rfl, hw⟩ := bracketed_eq_some_iff.mp h
  exact bracketed_eq_some_iff.mpr ⟨w, rest ++ back, List.append_assoc _ _ _, hw⟩

/-! ## Runs between an opening and a closing -/

theorem local_exactly (closing : List Char) : Local id (exactly closing) := by
  refine Local.of_iff (W := fun w n => w = closing ∧ n = closing.length)
    (fun h => by rw [h.1]; exact h.2) fun {cs n} => ?_
  rw [exactly, Option.map_eq_some_iff]
  constructor
  · rintro ⟨rest, hrest, rfl⟩
    exact ⟨closing, rest, (List.append_eq_of_isPrefixOf?_eq_some hrest).symm, rfl, rfl⟩
  · rintro ⟨w, rest, rfl, rfl, rfl⟩
    exact ⟨rest, List.isPrefixOf?_eq_some_iff_append_eq.mpr rfl, rfl⟩

section Enclosed

variable {opening : List Char} {allowed : Char → Bool} {closing : List Char → Option Nat}

theorem enclosed_eq_some_iff {cs : List Char} {n : Nat} {run : List Char} :
    enclosed opening allowed closing cs = some (n, run) ↔
      ∃ rest k, cs = opening ++ run ++ rest ∧ run ≠ [] ∧ (∀ c ∈ run, allowed c = true) ∧
        (∀ c ∈ rest.head?, allowed c = false) ∧ closing rest = some k ∧
        n = opening.length + run.length + k := by
  unfold enclosed
  constructor
  · intro h
    split at h
    · simp at h
    · next rest hfront =>
      dsimp only at h
      split at h
      · simp at h
      · next hrun =>
        obtain ⟨k, hk, heq⟩ := Option.map_eq_some_iff.mp h
        obtain ⟨rfl, rfl⟩ := Prod.mk.inj heq
        refine ⟨rest.dropWhile allowed, k, ?_, by simpa using hrun,
          fun c hc => List.mem_takeWhile_imp hc, fun c hc => ?_, hk, rfl⟩
        · rw [List.append_assoc, List.takeWhile_append_dropWhile]
          exact (List.append_eq_of_isPrefixOf?_eq_some hfront).symm
        · have hhead := List.head?_dropWhile_not allowed rest
          rw [Option.mem_def.mp hc] at hhead
          simpa using hhead
  · rintro ⟨rest, k, rfl, hrun, hallowed, hhead, hk, rfl⟩
    have hfront : opening.isPrefixOf? (opening ++ run ++ rest) = some (run ++ rest) := by
      rw [List.isPrefixOf?_eq_some_iff_append_eq, List.append_assoc]
    rw [hfront]
    dsimp only
    rw [Text.takeWhile_append_of_head hallowed hhead, Text.dropWhile_append_of_head hallowed hhead,
      hk]
    simp [hrun]

theorem isSome_enclosed {run rest : List Char} (hrun : run ≠ [])
    (hallowed : ∀ c ∈ run, allowed c = true)
    (hclosing : (closing (rest.dropWhile allowed)).isSome) :
    (enclosed opening allowed closing (opening ++ run ++ rest)).isSome := by
  have hfront : opening.isPrefixOf? (opening ++ run ++ rest) = some (run ++ rest) := by
    rw [List.isPrefixOf?_eq_some_iff_append_eq, List.append_assoc]
  unfold enclosed
  rw [hfront]
  dsimp only
  rw [List.takeWhile_append_of_pos hallowed, List.dropWhile_append_of_pos hallowed,
    if_neg (by simp [hrun]), Option.isSome_map]
  exact hclosing

theorem proper_enclosed (h : Local id closing) : Proper (enclosed opening allowed closing) where
  le_length {cs b} hb := by
    obtain ⟨rest, k, rfl, -, -, -, hk, hn⟩ := enclosed_eq_some_iff.mp hb
    have hle : k ≤ rest.length := h.le_length hk
    simp only [List.length_append]
    omega
  of_append {front} back {b} hb hle := by
    obtain ⟨rest, k, heq, hrun, hallowed, hhead, hk, hn⟩ := enclosed_eq_some_iff.mp hb
    obtain ⟨left, rfl, rfl⟩ := exists_eq_append_of_append_eq heq (by
      rw [List.length_append]; omega)
    have hclosing : closing left = some k := by
      refine h.of_append back hk ?_
      simp only [List.length_append] at hle
      show k ≤ left.length
      omega
    refine enclosed_eq_some_iff.mpr ⟨left, k, rfl, hrun, hallowed, fun c hc => hhead c ?_,
      hclosing, hn⟩
    cases left with
    | nil => simp at hc
    | cons x left => exact hc
  isSome_append {front} back hb := by
    obtain ⟨⟨n, run⟩, hb⟩ := Option.isSome_iff_exists.mp hb
    obtain ⟨rest, k, rfl, hrun, hallowed, hhead, hk, -⟩ := enclosed_eq_some_iff.mp hb
    -- if nothing stands behind the run, it may go on in what is put there
    obtain ⟨more, hmore⟩ : ∃ more, (rest ++ back).dropWhile allowed = rest ++ more := by
      cases rest with
      | nil => exact ⟨back.dropWhile allowed, rfl⟩
      | cons x rest => exact ⟨back, List.dropWhile_cons_of_neg (by simp [hhead x rfl])⟩
    rw [List.append_assoc]
    refine isSome_enclosed hrun hallowed ?_
    rw [hmore]
    exact h.isSome_append more (by rw [hk]; rfl)
  pos hb := by
    obtain ⟨rest, k, -, hrun, -, -, -, rfl⟩ := enclosed_eq_some_iff.mp hb
    have hpos := List.length_pos_iff.mpr hrun
    omega

end Enclosed

theorem Proper.orElse {p q : Pattern α} (hp : Proper p) (hq : Proper q) :
    Proper (p.orElse q) where
  le_length h := by
    rcases Option.or_eq_some_iff.mp h with h | ⟨-, h⟩
    · exact hp.le_length h
    · exact hq.le_length h
  of_append {front} back {b} h hle := by
    rcases Option.or_eq_some_iff.mp h with h | ⟨hnone, h⟩
    · exact Option.or_eq_some_iff.mpr (.inl (hp.of_append back h hle))
    · -- the first pattern finds nothing in the front either
      refine Option.or_eq_some_iff.mpr (.inr ⟨?_, hq.of_append back h hle⟩)
      cases hfront : p front with
      | none => rfl
      | some b' =>
        have hsome := hp.isSome_append back (hfront ▸ rfl : (p front).isSome)
        rw [hnone] at hsome
        simp at hsome
  isSome_append {front} back h := by
    unfold Pattern.orElse at h ⊢
    rw [Option.isSome_or, Bool.or_eq_true] at h ⊢
    exact h.imp (hp.isSome_append back) (hq.isSome_append back)
  pos h := by
    rcases Option.or_eq_some_iff.mp h with h | ⟨-, h⟩
    · exact hp.pos h
    · exact hq.pos h

end Pattern

open Pattern Text

/-! ## Codes and mentions -/

theorem InlineCode.proper_pattern : Proper InlineCode.pattern := proper_bracketed _

namespace Mention

/-- The rest of an `at` element is a quote, white space, and `>` or `/>`. -/
def IsElementEnd (cs : List Char) : Prop :=
  ∃ blanks close, cs = '\x22' :: blanks ++ close ∧ (∀ c ∈ blanks, isBlank c = true) ∧
    (close = ['/', '>'] ∨ close = ['>'])

theorem elementEnd_eq_some_iff {cs : List Char} {n : Nat} :
    elementEnd cs = some n ↔ ∃ w rest, cs = w ++ rest ∧ IsElementEnd w ∧ n = w.length := by
  constructor
  · intro h
    unfold elementEnd at h
    split at h
    · next cs =>
      have hsplit : cs.takeWhile isBlank ++ cs.dropWhile isBlank = cs :=
        List.takeWhile_append_dropWhile
      have hblanks : ∀ c ∈ cs.takeWhile isBlank, isBlank c = true :=
        fun c hc => List.mem_takeWhile_imp hc
      generalize hfront : cs.takeWhile isBlank = blanks at h hsplit hblanks
      split at h
      · next rest hback =>
        obtain rfl := Option.some.inj h
        refine ⟨'\x22' :: blanks ++ ['/', '>'], rest, ?_, ⟨blanks, _, rfl, hblanks, .inl rfl⟩,
          by simp⟩
        rw [← hsplit, hback]
        simp
      · next rest hback =>
        obtain rfl := Option.some.inj h
        refine ⟨'\x22' :: blanks ++ ['>'], rest, ?_, ⟨blanks, _, rfl, hblanks, .inr rfl⟩, by simp⟩
        rw [← hsplit, hback]
        simp
      · simp at h
    · simp at h
  -- the white space is taken as far as it goes because a closing does not start with any
  · rintro ⟨w, rest, rfl, ⟨blanks, close, rfl, hblanks, hclose⟩, rfl⟩
    have hhead : ∀ c ∈ (close ++ rest).head?, isBlank c = false := by
      rcases hclose with rfl | rfl <;> simp <;> decide
    rw [List.append_assoc, List.cons_append, elementEnd,
      takeWhile_append_of_head hblanks hhead, dropWhile_append_of_head hblanks hhead]
    rcases hclose with rfl | rfl <;> simp

theorem local_elementEnd : Local id elementEnd :=
  Local.of_iff (fun h => h.2) elementEnd_eq_some_iff

theorem proper_numbered (opening closing : String) : Proper (numbered opening closing) :=
  proper_enclosed (local_exactly _)

theorem proper_pattern (platform : String) : Proper (pattern platform) := by
  unfold pattern
  split
  · exact proper_numbered _ _
  · exact (proper_numbered _ _).orElse (proper_numbered _ _)
  · exact proper_numbered _ _
  · exact proper_enclosed (local_exactly _)
  · exact proper_enclosed local_elementEnd
  · exact proper_enclosed local_elementEnd
  · exact proper_numbered _ _
  · exact proper_numbered _ _

end Mention

end DiceBot
