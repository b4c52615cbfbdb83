import Mathlib.Data.List.DropRight
import DiceBot.Text.Blank

/-!
# Words and the white space around them

A word is a non-empty run of characters that are not white space. Trimming stops at words
(`IsWord.trimLeft_append`, `IsWord.trimRight_append`), and the words of a text are found again where
they stand between white space:

* `words_intercalate`: words joined by single spaces are the words of the text.
* `mem_words`: a word with white space or nothing on either side is one of the words of its text.
-/

namespace DiceBot.Text

-- There are finitely many characters. Without this a property of those in a list could be decided
-- by going through all of them.
instance (priority := 1100) decidableForallMem (cs : List Char) (p : Char → Prop)
    [DecidablePred p] : Decidable (∀ c ∈ cs, p c) := List.decidableBAll p cs

/-- A word: at least one character, and none of them white space. -/
def IsWord (cs : List Char) : Prop := cs ≠ [] ∧ ∀ c ∈ cs, isBlank c = false

instance (cs : List Char) : Decidable (IsWord cs) := inferInstanceAs (Decidable (_ ∧ _))

variable {w cs rest : List Char}

/-! ## Trimming -/

theorem trimLeft_append_of_blank (h : ∀ c ∈ w, isBlank c = true) (cs : List Char) :
    trimLeft (w ++ cs) = trimLeft cs := by
  unfold trimLeft
  exact List.dropWhile_append_of_pos h

theorem trimLeft_cons_of_not_blank {c : Char} (h : isBlank c = false) (cs : List Char) :
    trimLeft (c :: cs) = c :: cs := by
  unfold trimLeft
  exact List.dropWhile_cons_of_neg (by simp [h])

/-- Where the front of a text is not all white space, only the front is trimmed. -/
theorem trimLeft_append (h : trimLeft w ≠ []) (cs : List Char) :
    trimLeft (w ++ cs) = trimLeft w ++ cs := by
  unfold trimLeft at h ⊢
  rw [List.dropWhile_append, if_neg (by simpa using h)]

theorem trimRight_eq_rdropWhile (cs : List Char) : trimRight cs = cs.rdropWhile isBlank := rfl

theorem trimRight_append (h : trimRight cs ≠ []) (w : List Char) :
    trimRight (w ++ cs) = w ++ trimRight cs := by
  unfold trimRight at h ⊢
  have hne : cs.reverse.dropWhile isBlank ≠ [] := by simpa using h
  rw [List.reverse_append, List.dropWhile_append, if_neg (by simpa using hne), List.reverse_append,
    List.reverse_reverse]

theorem trimRight_append_of_blank (h : ∀ c ∈ w, isBlank c = true) (cs : List Char) :
    trimRight (cs ++ w) = trimRight cs := by
  unfold trimRight
  rw [List.reverse_append, List.dropWhile_append_of_pos (by simpa using h)]

theorem trimLeft_eq_nil_iff : trimLeft cs = [] ↔ ∀ c ∈ cs, isBlank c = true :=
  List.dropWhile_eq_nil_iff

theorem trimRight_eq_nil_iff : trimRight cs = [] ↔ ∀ c ∈ cs, isBlank c = true :=
  List.rdropWhile_eq_nil_iff

theorem trimRight_trimRight (cs : List Char) : trimRight (trimRight cs) = trimRight cs :=
  List.rdropWhile_idempotent isBlank cs

/-- A text is what is left of it when it is trimmed, with white space around. -/
theorem exists_eq_trim (cs : List Char) : ∃ before after, cs = before ++ trim cs ++ after ∧
    (∀ c ∈ before, isBlank c = true) ∧ ∀ c ∈ after, isBlank c = true := by
  refine ⟨cs.takeWhile isBlank, (trimLeft cs).rtakeWhile isBlank, ?_,
    fun c hc => List.mem_takeWhile_imp hc, fun c hc => List.mem_rtakeWhile_imp hc⟩
  rw [trim, trimRight_eq_rdropWhile, List.append_assoc, List.rdropWhile_append_rtakeWhile]
  exact List.takeWhile_append_dropWhile.symm

/-- A run of characters is read up to the first one behind it that does not belong to it. -/
theorem takeWhile_append_of_head {p : Char → Bool} (h : ∀ c ∈ w, p c = true)
    (hrest : ∀ c ∈ rest.head?, p c = false) : (w ++ rest).takeWhile p = w := by
  rw [List.takeWhile_append_of_pos h]
  cases rest with
  | nil => simp
  | cons c rest => simp [hrest c rfl]

theorem dropWhile_append_of_head {p : Char → Bool} (h : ∀ c ∈ w, p c = true)
    (hrest : ∀ c ∈ rest.head?, p c = false) : (w ++ rest).dropWhile p = rest := by
  rw [List.dropWhile_append_of_pos h]
  cases rest with
  | nil => rfl
  | cons c rest => simp [hrest c rfl]

theorem toNat_of_isDigit {c : Char} (h : c.isDigit = true) : 48 ≤ c.toNat ∧ c.toNat ≤ 57 := by
  simpa [Char.isDigit, UInt32.le_iff_toNat_le] using h

theorem isBlank_of_isDigit {c : Char} (h : c.isDigit = true) : isBlank c = false := by
  have hdigit := toNat_of_isDigit h
  by_contra hblank
  obtain ⟨r, hr, hfirst, hlast⟩ := exists_range_of_coversCodePoint (eq_true_of_ne_false hblank)
  have hranges : ∀ r ∈ blankRanges, r.2 < 48 ∨ 57 < r.1 := by decide
  have hout := hranges r hr
  omega

namespace IsWord

theorem trimLeft_append (h : IsWord w) (cs : List Char) : trimLeft (w ++ cs) = w ++ cs := by
  cases w with
  | nil => exact absurd rfl h.1
  | cons c w => exact trimLeft_cons_of_not_blank (h.2 c (by simp)) _

theorem trimRight_append (h : IsWord w) (cs : List Char) : trimRight (cs ++ w) = cs ++ w := by
  have hreverse : IsWord w.reverse := ⟨by simpa using h.1, by simpa using h.2⟩
  have htrim : (w.reverse ++ cs.reverse).dropWhile isBlank = w.reverse ++ cs.reverse :=
    hreverse.trimLeft_append cs.reverse
  rw [trimRight, List.reverse_append, htrim, ← List.reverse_append, List.reverse_reverse]

theorem trimLeft_append_append (h : IsWord w) (cs rest : List Char) :
    trimLeft (cs ++ (w ++ rest)) = trimLeft cs ++ (w ++ rest) := by
  by_cases hcs : trimLeft cs = []
  · rw [trimLeft_append_of_blank (trimLeft_eq_nil_iff.mp hcs), h.trimLeft_append, hcs,
      List.nil_append]
  · exact Text.trimLeft_append hcs _

theorem trimRight_append_append (h : IsWord w) (cs rest : List Char) :
    trimRight (cs ++ w ++ rest) = cs ++ w ++ trimRight rest := by
  by_cases hrest : trimRight rest = []
  · rw [trimRight_append_of_blank (trimRight_eq_nil_iff.mp hrest), h.trimRight_append, hrest,
      List.append_nil]
  · exact Text.trimRight_append hrest _

/-- A word is read up to the white space behind it. -/
theorem takeWhile_append (h : IsWord w) (hrest : ∀ c ∈ rest.head?, isBlank c = true) :
    (w ++ rest).takeWhile (fun c => !isBlank c) = w :=
  takeWhile_append_of_head (by simpa using h.2) (by simpa using hrest)

end IsWord

/-! ## The words of a text -/

theorem wordsAfter_append (h : ∀ c ∈ w, isBlank c = false) (before cs : List Char) :
    wordsAfter before (w ++ cs) = wordsAfter (w.reverse ++ before) cs := by
  induction w generalizing before with
  | nil => rfl
  | cons c w ih =>
    obtain ⟨hc, hw⟩ := List.forall_mem_cons.mp h
    simp [wordsAfter, hc, ih hw]

/-- What stands before white space and what stands behind it have their words to themselves. -/
theorem wordsAfter_append_cons {b : Char} (hb : isBlank b = true) (before cs rest : List Char) :
    wordsAfter before (cs ++ b :: rest) = wordsAfter before cs ++ words rest := by
  -- `before` is the word that is being read; white space ends it
  induction cs generalizing before with
  | nil =>
    simp only [List.nil_append, wordsAfter, hb, if_true]
    split <;> rfl
  | cons c cs ih =>
    rw [List.cons_append, wordsAfter, wordsAfter]
    split
    · split
      · exact ih []
      · rw [ih [], List.cons_append]
    · exact ih (c :: before)

theorem words_append_cons {b : Char} (hb : isBlank b = true) (cs rest : List Char) :
    words (cs ++ b :: rest) = words cs ++ words rest :=
  wordsAfter_append_cons hb [] cs rest

theorem IsWord.words_eq (h : IsWord w) : words w = [w] := by
  have hwords := wordsAfter_append h.2 [] []
  rw [List.append_nil, List.append_nil, wordsAfter, if_neg (by simpa using h.1),
    List.reverse_reverse] at hwords
  exact hwords

/-- Words joined by single spaces are the words of the text. -/
theorem words_intercalate {tokens : List (List Char)} (h : ∀ w ∈ tokens, IsWord w) :
    words (List.intercalate [' '] tokens) = tokens := by
  induction tokens with
  | nil => rfl
  | cons w tokens ih =>
    obtain ⟨hw, htokens⟩ := List.forall_mem_cons.mp h
    cases tokens with
    | nil => simpa using hw.words_eq
    | cons w' tokens =>
      rw [List.intercalate_cons_cons, List.append_assoc, List.singleton_append,
        words_append_cons (by decide), hw.words_eq, ih htokens, List.singleton_append]

/-- A word with white space or nothing on either side is one of the words of its text. -/
theorem mem_words (h : IsWord w) {left right : List Char}
    (hleft : ∀ c ∈ left.getLast?, isBlank c = true) (hright : ∀ c ∈ right.head?, isBlank c = true) :
    w ∈ words (left ++ w ++ right) := by
  have hend : w ∈ words (w ++ right) := by
    cases right with
    | nil =>
      rw [List.append_nil, h.words_eq]
      exact List.mem_singleton_self w
    | cons b right =>
      rw [words_append_cons (hright b rfl), h.words_eq]
      exact List.mem_append_left _ (List.mem_singleton_self w)
  rcases List.eq_nil_or_concat left with rfl | ⟨left, b, rfl⟩
  · exact hend
  · have hb : isBlank b = true := hleft b (by simp)
    simp only [List.concat_eq_append, List.append_assoc, List.cons_append, List.nil_append]
    rw [words_append_cons hb]
    exact List.mem_append_right _ hend

theorem isWord_of_mem_wordsAfter {before : List Char} (hbefore : ∀ c ∈ before, isBlank c = false)
    (h : w ∈ wordsAfter before cs) : IsWord w := by
  have hended : before ≠ [] → IsWord before.reverse := fun hne =>
    ⟨by simpa using hne, by simpa using hbefore⟩
  induction cs generalizing before with
  | nil =>
    rw [wordsAfter] at h
    split at h
    · exact absurd h (List.not_mem_nil)
    · next hne => exact List.mem_singleton.mp h ▸ hended (by simpa using hne)
  | cons c cs ih =>
    rw [wordsAfter] at h
    split at h
    · split at h
      · exact ih (by simp) h (by simp)
      · next hne =>
        rcases List.mem_cons.mp h with rfl | h
        · exact hended (by simpa using hne)
        · exact ih (by simp) h (by simp)
    · next hc =>
      have hrun : ∀ d ∈ c :: before, isBlank d = false :=
        List.forall_mem_cons.mpr ⟨by simpa using hc, hbefore⟩
      exact ih hrun h fun _ => ⟨by simp, fun d hd => hrun d (List.mem_reverse.mp hd)⟩

theorem isWord_of_mem_words (h : w ∈ words cs) : IsWord w :=
  isWord_of_mem_wordsAfter (by simp) h

/-! ## Joined words -/

theorem infix_intercalate {pieces : List (List Char)} (h : w ∈ pieces) (sep : List Char) :
    w <:+: List.intercalate sep pieces := by
  induction pieces with
  | nil => exact nomatch h
  | cons piece pieces ih =>
    cases pieces with
    | nil =>
      obtain rfl := List.mem_singleton.mp h
      exact ⟨[], [], by simp [List.intercalate_singleton]⟩
    | cons piece' pieces =>
      rw [List.intercalate_cons_cons]
      rcases List.mem_cons.mp h with rfl | h
      · rw [List.append_assoc]
        exact (List.prefix_append _ _).isInfix
      · exact (ih h).trans (List.suffix_append _ _).isInfix

theorem mem_intercalate {sep : List Char} {pieces : List (List Char)} {c : Char}
    (h : c ∈ List.intercalate sep pieces) : c ∈ sep ∨ ∃ piece ∈ pieces, c ∈ piece := by
  induction pieces with
  | nil => exact nomatch h
  | cons piece pieces ih =>
    cases pieces with
    | nil => exact .inr ⟨piece, List.mem_cons_self, by simpa using h⟩
    | cons piece' pieces =>
      rw [List.intercalate_cons_cons, List.mem_append, List.mem_append] at h
      rcases h with (h | h) | h
      · exact .inr ⟨piece, List.mem_cons_self, h⟩
      · exact .inl h
      · exact (ih h).imp_right fun ⟨p, hp, hc⟩ => ⟨p, List.mem_cons_of_mem _ hp, hc⟩

theorem exists_ends_intercalate {tokens : List (List Char)} (hne : tokens ≠ [])
    (h : ∀ w ∈ tokens, IsWord w) :
    (∃ first rest, List.intercalate [' '] tokens = first ++ rest ∧ IsWord first) ∧
      ∃ front last, List.intercalate [' '] tokens = front ++ last ∧ IsWord last := by
  induction tokens with
  | nil => exact absurd rfl hne
  | cons w tokens ih =>
    obtain ⟨hw, htokens⟩ := List.forall_mem_cons.mp h
    cases tokens with
    | nil => exact ⟨⟨w, [], by simp, hw⟩, [], w, by simp, hw⟩
    | cons w' tokens =>
      obtain ⟨-, front, last, heq, hlast⟩ := ih (List.cons_ne_nil _ _) htokens
      rw [List.intercalate_cons_cons]
      exact ⟨⟨w, _, List.append_assoc _ _ _, hw⟩, w ++ [' '] ++ front, last,
        by rw [heq, List.append_assoc _ front], hlast⟩

theorem trim_intercalate {tokens : List (List Char)} (h : ∀ w ∈ tokens, IsWord w) :
    trim (List.intercalate [' '] tokens) = List.intercalate [' '] tokens := by
  rcases eq_or_ne tokens [] with rfl | hne
  · rfl
  · obtain ⟨⟨first, rest, hfirst, hword⟩, front, last, hlast, hword'⟩ :=
      exists_ends_intercalate hne h
    rw [trim, hfirst, hword.trimLeft_append, ← hfirst, hlast, hword'.trimRight_append]

end DiceBot.Text
