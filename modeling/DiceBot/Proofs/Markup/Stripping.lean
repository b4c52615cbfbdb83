import DiceBot.Proofs.Markup.Substitution

/-!
# Taking markup out of a text

No stretch between the occurrences that are taken out holds one of them
(`Pattern.Proper.matched_of_mem_stretches`, `Pattern.Proper.absent_of_mem_gaps`). But stretches that
are joined may: one that ends inside markup (`Pattern.EndsInside`) may be completed by what follows.
Where no stretch but the last one does, the joined text holds what its stretches hold
(`Pattern.Proper.absent_flatten`, `InlineCode.matched_flatten`).
-/

namespace DiceBot

namespace Pattern

variable {α : Type} {p : Pattern α}

/-- A text ends inside markup if markup begins in it that is complete only with characters behind
the text. -/
def EndsInside (p : Pattern α) (cs : List Char) : Prop :=
  ∃ tail back, tail ≠ [] ∧ tail <:+ cs ∧ p tail = none ∧ (p (tail ++ back)).isSome

/-- No text of a list but the last one ends inside markup. -/
def KeepsApart (p : Pattern α) (pieces : List (List Char)) : Prop :=
  ∀ piece ∈ pieces.dropLast, ¬p.EndsInside piece

theorem EndsInside.of_suffix {cs tail : List Char} (h : p.EndsInside tail) (htail : tail <:+ cs) :
    p.EndsInside cs := by
  obtain ⟨front, back, hne, hsuffix, hnone, hsome⟩ := h
  exact ⟨front, back, hne, hsuffix.trans htail, hnone, hsome⟩

theorem eq_none_of_not_endsInside {cs tail : List Char} (h : ¬p.EndsInside cs) (hne : tail ≠ [])
    (htail : tail <:+ cs) (hnone : p tail = none) (back : List Char) : p (tail ++ back) = none := by
  rw [← Option.not_isSome_iff_eq_none]
  exact fun hsome => h ⟨tail, back, hne, htail, hnone, hsome⟩

/-- Where markup always starts with one and the same character, a text without this character does
not end inside markup. -/
theorem not_endsInside {first : Char} (hfirst : ∀ cs b, p cs = some b → cs.head? = some first)
    {cs : List Char} (h : first ∉ cs) : ¬p.EndsInside cs := by
  rintro ⟨tail, back, hne, htail, -, hsome⟩
  obtain ⟨c, tail, rfl⟩ := List.exists_cons_of_ne_nil hne
  obtain ⟨b, hb⟩ := Option.isSome_iff_exists.mp hsome
  obtain rfl : c = first := Option.some.inj (hfirst _ b hb)
  exact h (htail.subset List.mem_cons_self)

theorem KeepsApart.cons {piece next : List Char} {pieces : List (List Char)}
    (h : p.KeepsApart (piece :: next :: pieces)) :
    ¬p.EndsInside piece ∧ p.KeepsApart (next :: pieces) := by
  unfold KeepsApart at h ⊢
  rw [List.dropLast_cons_cons] at h
  exact List.forall_mem_cons.mp h

/-- The first stretch of a text is a front of it. -/
theorem exists_stretches_eq_cons (p : Pattern α) (q : List Char → Bool) (cs : List Char) :
    ∃ first others, p.stretches q cs = first :: others ∧ first <+: cs := by
  unfold stretches
  cases (p.occurrences cs).filter fun o => q (o.text cs) with
  | nil => exact ⟨cs, [], rfl, List.prefix_refl cs⟩
  | cons o os => exact ⟨_, _, rfl, List.take_prefix o.start cs⟩

theorem Absent.matched_eq_nil {cs : List Char} (h : p.Absent cs) : p.matched cs = [] := by
  rw [matched, h.occurrences_eq_nil]
  rfl

theorem absent_cons {c : Char} {cs : List Char} (h : p (c :: cs) = none) (hcs : p.Absent cs) :
    p.Absent (c :: cs) := by
  intro tail htail
  rcases List.suffix_cons_iff.mp htail with rfl | htail
  · exact h
  · exact hcs tail htail

theorem absent_append {front back : List Char} (hinside : ¬p.EndsInside front)
    (hfront : p.Absent front) (hback : p.Absent back) : p.Absent (front ++ back) := by
  induction front with
  | nil => exact hback
  | cons c front ih =>
    refine absent_cons ?_ (ih (fun h => hinside (h.of_suffix (List.suffix_cons c front)))
      (hfront.of_suffix (List.suffix_cons c front)))
    exact eq_none_of_not_endsInside hinside (List.cons_ne_nil c front) (List.suffix_refl _)
      (hfront _ (List.suffix_refl _)) back

namespace Proper

variable (hp : Proper p) {cs : List Char}

include hp

theorem eq_none_of_append {front : List Char} (back : List Char) (h : p (front ++ back) = none) :
    p front = none := by
  rw [← Option.not_isSome_iff_eq_none] at h ⊢
  exact fun hsome => h (hp.isSome_append back hsome)

theorem absent_nil : p.Absent [] := by
  intro tail htail
  obtain rfl := List.suffix_nil.mp htail
  cases hfound : p [] with
  | none => rfl
  | some b => exact absurd rfl (hp.ne_nil hfound)

theorem absent_of_infix {part : List Char} (h : p.Absent cs) (hpart : part <:+: cs) :
    p.Absent part := by
  obtain ⟨before, after, rfl⟩ := hpart
  rintro tail ⟨front, rfl⟩
  refine hp.eq_none_of_append after (h _ ⟨before ++ front, ?_⟩)
  simp only [List.append_assoc]

theorem absent_of_matched_eq_nil (h : p.matched cs = []) : p.Absent cs := by
  induction cs using hp.scan_induction with
  | nil => exact hp.absent_nil
  | found cs n meaning hfound ih =>
    rw [hp.matched_of_some hfound] at h
    exact absurd h (List.cons_ne_nil _ _)
  | passed c cs hnone ih =>
    rw [matched_of_none hnone] at h
    exact absent_cons hnone (ih h)

/-- The stretches between some of the occurrences hold no occurrence of this kind. -/
theorem matched_of_mem_stretches {q : List Char → Bool} {stretch : List Char}
    (h : stretch ∈ p.stretches q cs) : ∀ m ∈ p.matched stretch, q m = false := by
  induction cs using hp.scan_induction generalizing stretch with
  | nil =>
    obtain rfl := List.mem_singleton.mp h
    exact fun m hm => absurd hm List.not_mem_nil
  | found cs n meaning hfound ih =>
    rw [hp.stretches_of_some hfound] at h
    split at h
    · rcases List.mem_cons.mp h with rfl | h
      · exact fun m hm => absurd hm List.not_mem_nil
      · exact ih h
    · next hq =>
      obtain ⟨first, others, heq, back, hback⟩ := exists_stretches_eq_cons p q (cs.drop n)
      rw [heq] at h ih
      rcases List.mem_cons.mp h with rfl | h
      · -- an occurrence that is kept is found again, since it is all that it takes to find it
        have hlen : (cs.take n).length = n := List.length_take_of_le (hp.le_length hfound)
        have hfirst : p (cs.take n ++ first) = some (n, meaning) := by
          refine hp.of_append back ?_ (by
            show n ≤ _
            rw [List.length_append, hlen]
            omega)
          rwa [List.append_assoc, hback, List.take_append_drop]
        rw [hp.matched_of_some hfirst, List.take_left' hlen, List.drop_left' hlen]
        exact List.forall_mem_cons.mpr ⟨by simpa using hq, ih List.mem_cons_self⟩
      · exact ih (List.mem_cons_of_mem _ h)
  | passed c cs hnone ih =>
    rw [stretches_of_none hnone] at h
    obtain ⟨first, others, heq, back, hback⟩ := exists_stretches_eq_cons p q cs
    rw [heq] at h ih
    rcases List.mem_cons.mp h with rfl | h
    · -- what is not found with the whole text behind it is not found with less
      have hfirst : p (c :: first) = none := by
        refine hp.eq_none_of_append back ?_
        rwa [List.cons_append, hback]
      show ∀ m ∈ p.matched (c :: first), q m = false
      rw [matched_of_none hfirst]
      exact ih List.mem_cons_self
    · exact ih (List.mem_cons_of_mem _ h)

/-- The stretches between all occurrences hold no occurrence at any place. -/
theorem absent_of_mem_gaps {gap : List Char} (h : gap ∈ p.gaps cs) : p.Absent gap := by
  refine hp.absent_of_matched_eq_nil (List.eq_nil_iff_forall_not_mem.mpr fun m hm => ?_)
  exact absurd (hp.matched_of_mem_stretches h m hm) (by decide)

/-- Texts without markup that do not end inside markup are joined to a text without markup. -/
theorem absent_flatten {pieces : List (List Char)} (hapart : p.KeepsApart pieces)
    (h : ∀ piece ∈ pieces, p.Absent piece) : p.Absent pieces.flatten := by
  induction pieces with
  | nil => exact hp.absent_nil
  | cons piece pieces ih =>
    obtain ⟨hpiece, hpieces⟩ := List.forall_mem_cons.mp h
    cases pieces with
    | nil =>
      rw [List.flatten_cons, List.flatten_nil, List.append_nil]
      exact hpiece
    | cons next pieces =>
      obtain ⟨hinside, hapart⟩ := hapart.cons
      exact absent_append hinside hpiece (ih hapart hpieces)

end Proper

end Pattern

open Pattern

/-! ## Codes in joined texts -/

namespace InlineCode

variable {front : List Char}

theorem head?_of_pattern {cs : List Char} {b : Nat × Unit} (h : pattern cs = some b) :
    cs.head? = some '[' := by
  obtain ⟨w, rest, rfl, ⟨c, line, rfl, -⟩, -⟩ := bracketed_eq_some_iff.mp h
  rfl

theorem not_endsInside {cs : List Char} (h : '[' ∉ cs) : ¬pattern.EndsInside cs :=
  Pattern.not_endsInside (fun _ _ hb => head?_of_pattern hb) h

/-- Where no code is found inside another one, the codes that are found from left to right are those
at all places of the text. -/
theorem mem_matched_of_suffix {cs tail : List Char} {n : Nat}
    (hinside : ∀ m ∈ pattern.matched cs, '[' ∉ m.tail) (htail : tail <:+ cs)
    (h : pattern tail = some (n, ())) : tail.take n ∈ pattern.matched cs := by
  induction cs using proper_pattern.scan_induction with
  | nil =>
    obtain rfl := List.suffix_nil.mp htail
    exact absurd rfl (proper_pattern.ne_nil h)
  | found cs k meaning hfound ih =>
    rw [proper_pattern.matched_of_some hfound] at hinside ⊢
    obtain ⟨hfirst, hothers⟩ := List.forall_mem_cons.mp hinside
    obtain ⟨front, rfl⟩ := htail
    rcases Nat.lt_or_ge front.length k with hlt | hle
    · cases front with
      | nil =>
        obtain rfl : k = n := (Prod.mk.inj (Option.some.inj (hfound.symm.trans h))).1
        exact List.mem_cons_self
      | cons c front =>
        -- the code would begin inside the first one
        obtain ⟨rest, rfl⟩ := List.head?_eq_some_iff.mp (head?_of_pattern h)
        obtain ⟨j, rfl⟩ : ∃ j, k = front.length + (j + 1) + 1 :=
          ⟨k - front.length - 2, by rw [List.length_cons] at hlt; omega⟩
        refine absurd ?_ hfirst
        rw [List.cons_append, List.take_succ_cons, List.tail_cons, List.take_length_add_append]
        exact List.mem_append_right front List.mem_cons_self
    · refine List.mem_cons_of_mem _ (ih hothers ⟨front.drop k, ?_⟩)
      rw [List.drop_append_of_le_length hle]
  | passed c cs hnone ih =>
    rw [matched_of_none hnone] at hinside ⊢
    rcases List.suffix_cons_iff.mp htail with rfl | htail
    · rw [hnone] at h
      simp at h
    · exact ih hinside htail

/-- The codes of a text that does not end inside a code are found whatever stands behind it, and
then those of what stands behind it. -/
theorem matched_append (h : ¬pattern.EndsInside front) (back : List Char) :
    pattern.matched (front ++ back) = pattern.matched front ++ pattern.matched back := by
  induction front using proper_pattern.scan_induction with
  | nil => rfl
  | found front n meaning hfound ih =>
    have hle : n ≤ front.length := proper_pattern.le_length hfound
    have hmore : pattern (front ++ back) = some (n, meaning) := bracketed_append hfound back
    rw [proper_pattern.matched_of_some hmore, proper_pattern.matched_of_some hfound,
      List.take_append_of_le_length hle, List.drop_append_of_le_length hle,
      ih fun hinside => h (hinside.of_suffix (List.drop_suffix n front)), List.cons_append]
  | passed c front hnone ih =>
    have hmore : pattern (c :: front ++ back) = none :=
      eq_none_of_not_endsInside h (List.cons_ne_nil c front) (List.suffix_refl _) hnone back
    rw [List.cons_append] at hmore ⊢
    rw [matched_of_none hmore, matched_of_none hnone,
      ih fun hinside => h (hinside.of_suffix (List.suffix_cons c front))]

theorem matched_append_of_notMem (h : '[' ∉ front) (back : List Char) :
    pattern.matched (front ++ back) = pattern.matched back := by
  rw [matched_append (not_endsInside h), (absent_pattern h).matched_eq_nil,
    List.nil_append]

theorem matched_flatten {pieces : List (List Char)} (h : pattern.KeepsApart pieces) :
    pattern.matched pieces.flatten = pieces.flatMap pattern.matched := by
  induction pieces with
  | nil => rfl
  | cons piece pieces ih =>
    cases pieces with
    | nil =>
      rw [List.flatten_cons, List.flatten_nil, List.append_nil, List.flatMap_cons,
        List.flatMap_nil, List.append_nil]
    | cons next pieces =>
      obtain ⟨hinside, hapart⟩ := h.cons
      rw [List.flatten_cons, matched_append hinside, ih hapart, List.flatMap_cons]
      rfl

/-- Stretches that do not end inside a code keep their codes when pieces are put between them that
let the codes behind them be found. -/
theorem subset_matched_splice {stretches pieces : List (List Char)}
    (hlength : stretches.length = pieces.length + 1) (hapart : pattern.KeepsApart stretches)
    (hpieces : ∀ piece ∈ pieces, ∀ back,
      pattern.matched back ⊆ pattern.matched (piece ++ back)) :
    stretches.flatMap pattern.matched ⊆ pattern.matched (splice stretches pieces) := by
  induction pieces generalizing stretches with
  | nil =>
    obtain ⟨stretch, rfl⟩ := List.length_eq_one_iff.mp hlength
    simp [splice]
  | cons piece pieces ih =>
    obtain ⟨hpiece, hpieces⟩ := List.forall_mem_cons.mp hpieces
    rcases stretches with _ | ⟨stretch, _ | ⟨next, stretches⟩⟩
    · simp at hlength
    · simp at hlength
    · obtain ⟨hinside, hapart⟩ := hapart.cons
      rw [splice, List.append_assoc, matched_append hinside, List.flatMap_cons]
      have hothers := ih (Nat.succ_injective hlength) hapart hpieces
      exact List.append_subset.mpr ⟨List.subset_append_left _ _,
        fun m hm => List.mem_append_right _ (hpiece _ (hothers hm))⟩

/-- Characters behind a text none of which can close a code do not change its codes. -/
theorem matched_append_of_notMem_closing {back : List Char} (hopening : '[' ∉ back)
    (hclosing : ']' ∉ back) : pattern.matched (front ++ back) = pattern.matched front := by
  induction front using proper_pattern.scan_induction with
  | nil => exact (absent_pattern hopening).matched_eq_nil
  | found front n meaning hfound ih =>
    have hle : n ≤ front.length := proper_pattern.le_length hfound
    have hmore : pattern (front ++ back) = some (n, meaning) := bracketed_append hfound back
    rw [proper_pattern.matched_of_some hmore, proper_pattern.matched_of_some hfound,
      List.take_append_of_le_length hle, List.drop_append_of_le_length hle, ih]
  | passed c front hnone ih =>
    have hmore : pattern (c :: front ++ back) = none := by
      rw [← Option.not_isSome_iff_eq_none]
      intro hsome
      obtain ⟨b, hb⟩ := Option.isSome_iff_exists.mp hsome
      obtain ⟨w, rest, heq, ⟨d, line, hw, -⟩, hlength⟩ := bracketed_eq_some_iff.mp hb
      rcases Nat.lt_or_ge (c :: front).length w.length with hlt | hle
      · -- the closing bracket would stand behind the text
        obtain ⟨left, hleft, hback⟩ := exists_eq_append_of_append_eq heq.symm hlt.le
        have hne : left ≠ [] := by
          rintro rfl
          rw [hleft, List.append_nil] at hlt
          omega
        have hlast : w.getLast? = some ']' := by rw [hw, List.getLast?_concat]
        rw [hleft, List.getLast?_append_of_ne_nil _ hne] at hlast
        rw [hback] at hclosing
        exact hclosing (List.mem_append_left rest (List.mem_of_getLast? hlast))
      · rw [proper_pattern.of_append back hb (hlength ▸ hle)] at hnone
        exact absurd hnone (by simp)
    rw [List.cons_append] at hmore ⊢
    rw [matched_of_none hmore, matched_of_none hnone, ih]

/-- Taking the codes of one kind out of a text joins the stretches between them. -/
theorem strip_eq_flatten (kind text : List Char) :
    strip kind text =
      (pattern.stretches (fun m => decide ((parse m).kind = kind)) text).flatten := by
  rw [← proper_pattern.map_eq_flatten_stretches]
  simp only [decide_eq_true_eq]
  rfl

theorem strip_eq_self {kind text : List Char}
    (h : ∀ m ∈ pattern.matched text, (parse m).kind ≠ kind) : strip kind text = text :=
  proper_pattern.map_eq_self fun m hm => if_neg (h m hm)

end InlineCode

/-! ## Codes and mentions -/

namespace Mention

variable {platform : String} {cs : List Char}

theorem extract_fst (text : List Char) (platform : String) :
    (extract text platform).1 = ((pattern platform).gaps text).flatten :=
  (proper_pattern platform).map_eq_flatten_stretches (fun _ => true) text

theorem pattern_qq : pattern "QQ" = numbered "[CQ:at,qq=" "]" := by
  have htag : String.ofList ("QQ".toList.map Char.toUpper) = "QQ" := by decide
  unfold pattern
  rw [htag]
  rfl

theorem head?_of_enclosed {opening : List Char} {allowed : Char → Bool}
    {closing : List Char → Option Nat} {first : Char} (hfirst : opening.head? = some first)
    {b : Nat × List Char} (h : enclosed opening allowed closing cs = some b) :
    cs.head? = some first := by
  obtain ⟨rest, k, rfl, -⟩ := enclosed_eq_some_iff.mp h
  cases opening with
  | nil => simp at hfirst
  | cons c opening => exact hfirst

/-- Only on platforms that use codes does a mention start as a code does. -/
theorem numbered_of_pattern {b : Nat × List Char} (h : pattern platform cs = some b)
    (hhead : cs.head? = some '[') : numbered "[CQ:at,qq=" "]" cs = some b := by
  have hother : ∀ (first : Char) {opening : String} {allowed closing},
      opening.toList.head? = some first → first ≠ '[' →
      enclosed opening.toList allowed closing cs ≠ some b := by
    intro first opening allowed closing hfirst hne hb
    have heq := (head?_of_enclosed hfirst hb).symm.trans hhead
    exact hne (Option.some.inj heq)
  -- the markup of every other platform starts with a character of its own
  generalize hp : pattern platform = p at h
  unfold pattern at hp
  split at hp <;> subst hp
  · exact absurd h (hother '(' (by decide) (by decide))
  · rcases Option.or_eq_some_iff.mp h with h | ⟨-, h⟩
    · exact absurd h (hother '<' (by decide) (by decide))
    · exact absurd h (hother '<' (by decide) (by decide))
  · exact absurd h (hother '<' (by decide) (by decide))
  · exact absurd h (hother '<' (by decide) (by decide))
  · exact absurd h (hother '<' (by decide) (by decide))
  · exact absurd h (hother '<' (by decide) (by decide))
  · exact absurd h (hother 't' (by decide) (by decide))
  · exact h

/-- The markup of a mention is a code if it starts as one. -/
theorem bracketed_of_pattern {m run : List Char} (hm : pattern platform m = some (m.length, run))
    (hhead : m.head? = some '[') : Bracketed InlineCode.opening m := by
  obtain ⟨rest, k, hsplit, -, hrun, -, hclosing, hlength⟩ :=
    enclosed_eq_some_iff.mp (numbered_of_pattern hm hhead)
  obtain ⟨left, hleft, hk⟩ := Option.map_eq_some_iff.mp hclosing
  obtain rfl := List.append_eq_of_isPrefixOf?_eq_some hleft
  have hnil : left = [] := by
    rw [hsplit] at hlength
    simp only [List.length_append] at hlength
    exact List.length_eq_zero_iff.mp (by omega)
  have hopening : "[CQ:at,qq=".toList = InlineCode.opening ++ 'a' :: "t,qq=".toList := by decide
  refine ⟨'a', "t,qq=".toList ++ run, ?_, by decide, ?_, ?_⟩
  · rw [hsplit, hnil, hopening]
    simp
  · intro hmem
    rcases List.mem_append.mp hmem with hmem | hmem
    · exact absurd hmem (by decide)
    · exact absurd (hrun _ hmem) (by decide)
  · intro hmem
    rcases List.mem_append.mp hmem with hmem | hmem
    · exact absurd hmem (by decide)
    · exact absurd (hrun _ hmem) (by decide)

/-- The codes behind a mention are found whether or not the mention stands before them. -/
theorem subset_matched_mention {m : List Char} (hm : m ∈ (pattern platform).matched cs)
    (htail : '[' ∉ m.tail) (back : List Char) :
    InlineCode.pattern.matched back ⊆ InlineCode.pattern.matched (m ++ back) := by
  obtain ⟨run, hrun⟩ := (proper_pattern platform).eq_some_of_mem_matched hm
  by_cases hhead : m.head? = some '['
  · -- the mention is itself a code
    have hcode : InlineCode.pattern (m ++ back) = some (m.length, ()) :=
      bracketed_eq_some_iff.mpr ⟨m, back, rfl, bracketed_of_pattern hrun hhead, rfl⟩
    rw [InlineCode.proper_pattern.matched_of_some hcode, List.drop_left]
    exact List.subset_cons_self _ _
  · have hnot : '[' ∉ m := by
      cases m with
      | nil => exact List.not_mem_nil
      | cons c m =>
        exact List.not_mem_cons_of_ne_of_not_mem (fun h => hhead (congrArg some h.symm)) htail
    rw [InlineCode.matched_append_of_notMem hnot]
    exact List.Subset.refl _

/-- Without the mentions, a text has no codes that it did not have with them. -/
theorem matched_flatten_gaps_subset
    (hapart : InlineCode.pattern.KeepsApart ((pattern platform).gaps cs))
    (htail : ∀ m ∈ (pattern platform).matched cs, '[' ∉ m.tail) :
    InlineCode.pattern.matched ((pattern platform).gaps cs).flatten ⊆
      InlineCode.pattern.matched cs := by
  have hsplice := InlineCode.subset_matched_splice (length_gaps (pattern platform) cs) hapart
    fun m hm => subset_matched_mention hm (htail m hm)
  rwa [(proper_pattern platform).splice_matched, ← InlineCode.matched_flatten hapart] at hsplice

end Mention

end DiceBot
