import DiceBot.Text.Lowercase
import DiceBot.Proofs.Text.Words

/-!
# Characters without case

A caseless character is its own lower-case form and has no part in that of any other character, so a
comparison that disregards case cannot mistake it: it stands in one of two such equal texts if it
stands in the other (`mem_iff_of_eqIgnoringCase`). White space is caseless, and so are the digits
and the signs of arithmetic. A text that is equal but for case to a word of small letters of ASCII
has that word as its lower-case form, character by character (`map_lowerChar_of_eqIgnoringCase`).
-/

namespace DiceBot.Text

/-- Is `c` neither changed by lower-casing nor what lower-casing makes of another character? -/
def isCaseless (c : Char) : Bool :=
  c.toNat ≠ 0 && !(['İ', '\u0307', 'ς'].contains c) &&
    caseRuns.all fun run =>
      (c.toNat < run.first || run.last < c.toNat) &&
        (c.toNat < run.image || run.image + (run.last - run.first) < c.toNat)

variable {c d : Char}

theorem isCaseless_iff : isCaseless c = true ↔
    (c.toNat ≠ 0 ∧ c ≠ 'İ' ∧ c ≠ '\u0307' ∧ c ≠ 'ς') ∧ ∀ run ∈ caseRuns,
      (c.toNat < run.first ∨ run.last < c.toNat) ∧
        (c.toNat < run.image ∨ run.image + (run.last - run.first) < c.toNat) := by
  simp [isCaseless, and_assoc]

theorem isCaseless_of_isBlank (h : isBlank c = true) : isCaseless c = true := by
  obtain ⟨r, hr, hfirst, hlast⟩ := exists_range_of_coversCodePoint h
  -- no range of white space meets a run of capital letters or of their lower-case forms
  have hranges : ∀ r ∈ blankRanges, 0 < r.1 ∧ (r.2 < 0x130 ∨ 0x3C2 < r.1) ∧ ∀ run ∈ caseRuns,
      (r.2 < run.first ∨ run.last < r.1) ∧
        (r.2 < run.image ∨ run.image + (run.last - run.first) < r.1) := by
    decide +kernel
  obtain ⟨hpos, hspecial, hruns⟩ := hranges r hr
  have hne : ∀ d : Char, 0x130 ≤ d.toNat → d.toNat ≤ 0x3C2 → c ≠ d := by
    rintro d h₁ h₂ rfl
    omega
  refine Iff.mpr isCaseless_iff ⟨⟨by omega, hne _ (by decide) (by decide),
    hne _ (by decide) (by decide), hne _ (by decide) (by decide)⟩, fun run hrun => ?_⟩
  obtain ⟨hupper, hlower⟩ := hruns run hrun
  omega

theorem isCaseless_of_isDigit (h : c.isDigit = true) : isCaseless c = true := by
  obtain ⟨hfirst, hlast⟩ := toNat_of_isDigit h
  -- all capital letters and their lower-case forms lie behind the digits
  have hruns : ∀ run ∈ caseRuns, 57 < run.first ∧ 57 < run.image := by decide +kernel
  have hne : ∀ d : Char, 57 < d.toNat → c ≠ d := by
    rintro d hd rfl
    omega
  refine Iff.mpr isCaseless_iff ⟨⟨by omega, hne _ (by decide), hne _ (by decide), hne _ (by decide)⟩,
    fun run hrun => ?_⟩
  have hrun' := hruns run hrun
  omega

/-! ## Lower-casing -/

/-- A code point is its own lower-case form, or it lies in a run of the table. -/
theorem lowerCodePoint_cases (runs : List CaseRun) (n : Nat) :
    lowerCodePoint runs n = n ∨ ∃ run ∈ runs, (run.first ≤ n ∧ n ≤ run.last) ∧
      lowerCodePoint runs n = run.image + (n - run.first) := by
  induction runs with
  | nil => exact .inl rfl
  | cons run runs ih =>
    rw [lowerCodePoint]
    split
    · exact .inl rfl
    · next hfirst =>
      split
      · next hrun =>
        have hlast : n ≤ run.last := by simpa using (Bool.and_eq_true_iff.mp hrun).1
        exact .inr ⟨run, List.mem_cons_self, ⟨by omega, hlast⟩, rfl⟩
      · rcases ih with h | ⟨run', hrun', h⟩
        · exact .inl h
        · exact .inr ⟨run', List.mem_cons_of_mem _ hrun', h⟩

theorem lowerChar_eq_self (h : isCaseless c = true) : lowerChar c = c := by
  have hruns := (Iff.mp isCaseless_iff h).2
  rcases lowerCodePoint_cases caseRuns c.toNat with heq | ⟨run, hrun, hmem, -⟩
  · rw [lowerChar, heq, Char.ofNat_toNat]
  · have hout := (hruns run hrun).1
    omega

/-- The character of a code point other than zero has that code point, or else is no character. -/
theorem toNat_eq_of_ofNat {n : Nat} (h : Char.ofNat n = c) (hc : c.toNat ≠ 0) : c.toNat = n := by
  by_cases hvalid : n.isValidChar
  · have hchar : Char.ofNat n = Char.ofNatAux n hvalid := dif_pos hvalid
    rw [← h, hchar]
    rfl
  · have hchar : (Char.ofNat n).toNat = 0 := congrArg Char.toNat (dif_neg hvalid)
    exact absurd (h ▸ hchar) hc

theorem eq_of_lowerChar (h : isCaseless c = true) (hd : lowerChar d = c) : d = c := by
  obtain ⟨⟨hzero, -⟩, hruns⟩ := Iff.mp isCaseless_iff h
  have hnat : c.toNat = lowerCodePoint caseRuns d.toNat := toNat_eq_of_ofNat hd hzero
  rcases lowerCodePoint_cases caseRuns d.toNat with heq | ⟨run, hrun, hmem, heq⟩
  · exact Char.toNat_inj.mp (by omega)
  · have hout := (hruns run hrun).2
    omega

/-- Lower-casing neither takes a caseless character away nor brings one in. -/
theorem mem_lowerAfter_iff (h : isCaseless c = true) (before cs : List Char) :
    c ∈ lowerAfter before cs ↔ c ∈ cs := by
  have hne : ∀ d, isCaseless d = false → c ≠ d := by
    rintro d hd rfl
    rw [h] at hd
    exact nomatch hd
  obtain ⟨⟨-, hdotted, hdot, hfinal⟩, -⟩ := Iff.mp isCaseless_iff h
  induction cs generalizing before with
  | nil => rfl
  | cons d cs ih =>
    unfold lowerAfter
    split
    · next hd =>
      simp [hd, ih, hdotted, hdot, hne 'i' (by decide)]
    · split
      · next hd =>
        have hsigma : c ≠ if meetsCased before && !meetsCased cs then 'ς' else 'σ' := by
          split
          · exact hfinal
          · exact hne 'σ' (by decide)
        simp only [List.mem_cons, ih, hd, hsigma, hne 'Σ' (by decide), false_or]
      · have hhead : c = lowerChar d ↔ c = d :=
          ⟨fun heq => (eq_of_lowerChar h heq.symm).symm,
            fun heq => by rw [← heq, lowerChar_eq_self h]⟩
        simp [ih, hhead]

theorem toLower_eq_or (d : Char) :
    d.toLower = d ∨ (0x41 ≤ d.toNat ∧ d.toNat ≤ 0x5A) ∧ d.toLower.toNat = d.toNat + 32 := by
  unfold Char.toLower
  split
  · next hd =>
    have hupper : 0x41 ≤ d.toNat ∧ d.toNat ≤ 0x5A := hd
    refine .inr ⟨hupper, ?_⟩
    show (d.val + 32).toNat = d.val.toNat + 32
    have hlt : d.val.toNat ≤ 0x5A := hupper.2
    rw [UInt32.toNat_add]
    show (d.val.toNat + 32) % 2 ^ 32 = _
    omega
  · exact .inl rfl

theorem mem_map_toLower_iff (h : isCaseless c = true) (cs : List Char) :
    c ∈ cs.map Char.toLower ↔ c ∈ cs := by
  have hascii := (Iff.mp isCaseless_iff h).2 ⟨0x41, 0x5A, 1, 0x61⟩ (.head _)
  dsimp only at hascii
  rw [List.mem_map]
  constructor
  · rintro ⟨d, hd, rfl⟩
    rcases toLower_eq_or d with heq | ⟨hupper, hlower⟩
    · rwa [heq]
    · omega
  · intro hc
    refine ⟨c, hc, ?_⟩
    rcases toLower_eq_or c with heq | ⟨hupper, -⟩
    · exact heq
    · omega

/-- Texts that are equal but for case have the same caseless characters. -/
theorem mem_iff_of_eqIgnoringCase (h : isCaseless c = true) {xs ys : List Char}
    (heq : eqIgnoringCase xs ys = true) : c ∈ xs ↔ c ∈ ys := by
  simp only [eqIgnoringCase, Bool.or_eq_true, beq_iff_eq] at heq
  rcases heq with heq | heq
  · rw [← mem_map_toLower_iff h xs, heq, mem_map_toLower_iff h ys]
  · rw [← mem_lowerAfter_iff h [] xs, ← mem_lowerAfter_iff h [] ys]
    exact iff_of_eq (congrArg (c ∈ ·) heq)

theorem eqIgnoringCase_comm (xs ys : List Char) : eqIgnoringCase xs ys = eqIgnoringCase ys xs := by
  simp only [eqIgnoringCase, BEq.comm]

theorem eqIgnoringCase_refl (cs : List Char) : eqIgnoringCase cs cs = true := by
  simp [eqIgnoringCase]

/-! ## Texts of caseless characters -/

section Caseless

variable {cs : List Char}

theorem lowerAfter_eq_self (h : ∀ c ∈ cs, isCaseless c = true) (before : List Char) :
    lowerAfter before cs = cs := by
  induction cs generalizing before with
  | nil => rfl
  | cons c cs ih =>
    obtain ⟨hc, hcs⟩ := List.forall_mem_cons.mp h
    have hdotted : c ≠ 'İ' := (Iff.mp isCaseless_iff hc).1.2.1
    have hsigma : c ≠ 'Σ' := by
      rintro rfl
      exact absurd hc (by decide)
    rw [lowerAfter, if_neg hdotted, if_neg hsigma, lowerChar_eq_self hc, ih hcs]

theorem eq_of_caseless_lowerAfter {before : List Char}
    (h : ∀ c ∈ lowerAfter before cs, isCaseless c = true) : lowerAfter before cs = cs := by
  induction cs generalizing before with
  | nil => rfl
  | cons d cs ih =>
    rw [lowerAfter] at h ⊢
    split at h
    · exact absurd (h 'i' (by simp)) (by decide)
    · split at h
      · have hsigma := h _ List.mem_cons_self
        split at hsigma <;> exact absurd hsigma (by decide)
      · next hdotted hsigma =>
        obtain ⟨hd, hcs⟩ := List.forall_mem_cons.mp h
        rw [if_neg hdotted, if_neg hsigma, ih hcs, ← eq_of_lowerChar hd rfl]

theorem toLower_eq_self (h : isCaseless c = true ∨ isCaseless c.toLower = true) :
    c.toLower = c := by
  rcases toLower_eq_or c with heq | ⟨hupper, hlower⟩
  · exact heq
  · rcases h with h | h
    · have hout := ((Iff.mp isCaseless_iff h).2 ⟨0x41, 0x5A, 1, 0x61⟩ (.head _)).1
      dsimp only at hout
      omega
    · have hout := ((Iff.mp isCaseless_iff h).2 ⟨0x41, 0x5A, 1, 0x61⟩ (.head _)).2
      dsimp only at hout
      omega

theorem map_toLower_eq_self (h : ∀ c ∈ cs, isCaseless c = true ∨ isCaseless c.toLower = true) :
    cs.map Char.toLower = cs := by
  have hsame : ∀ c ∈ cs, c.toLower = id c := fun c hc => toLower_eq_self (h c hc)
  rw [List.map_congr_left hsame, List.map_id]

/-- A text of caseless characters is the only one that is equal to it but for case. -/
theorem eq_of_eqIgnoringCase {xs : List Char} (h : ∀ c ∈ cs, isCaseless c = true)
    (heq : eqIgnoringCase xs cs = true) : xs = cs := by
  simp only [eqIgnoringCase, Bool.or_eq_true, beq_iff_eq] at heq
  rcases heq with heq | heq
  · rw [map_toLower_eq_self fun c hc => .inl (h c hc)] at heq
    have hxs : ∀ c ∈ xs, isCaseless c = true ∨ isCaseless c.toLower = true := fun c hc =>
      .inr (h _ (heq ▸ List.mem_map_of_mem hc))
    rwa [map_toLower_eq_self hxs] at heq
  · rw [lower, lower, lowerAfter_eq_self h] at heq
    have hxs : ∀ c ∈ lowerAfter [] xs, isCaseless c = true := fun c hc => h c (heq ▸ hc)
    rwa [eq_of_caseless_lowerAfter hxs] at heq

end Caseless

/-! ## Small letters of ASCII -/

theorem toNat_of_isLower (h : c.isLower = true) : 0x61 ≤ c.toNat ∧ c.toNat ≤ 0x7A := by
  obtain ⟨hfirst, hlast⟩ := (Bool.and_eq_true _ _).mp h
  exact ⟨of_decide_eq_true hfirst, of_decide_eq_true hlast⟩

theorem lowerChar_of_isLower (h : c.isLower = true) : lowerChar c = c := by
  obtain ⟨hfirst, hlast⟩ := toNat_of_isLower h
  -- no run of capital letters meets the small letters
  have hruns : ∀ run ∈ caseRuns, run.last < 0x61 ∨ 0x7A < run.first := by decide +kernel
  rcases lowerCodePoint_cases caseRuns c.toNat with heq | ⟨run, hrun, hmem, -⟩
  · rw [lowerChar, heq, Char.ofNat_toNat]
  · have hout := hruns run hrun
    omega

/-- A character that is a small letter in lower case by the rules of ASCII is so by those of
Unicode. -/
theorem lowerChar_of_isLower_toLower (h : c.toLower.isLower = true) :
    lowerChar c = c.toLower := by
  rcases toLower_eq_or c with heq | ⟨hupper, hlower⟩
  · rw [heq] at h ⊢
    exact lowerChar_of_isLower h
  · have hcode : lowerCodePoint caseRuns c.toNat = c.toNat + 32 := by
      rw [caseRuns, lowerCodePoint]
      dsimp only
      rw [if_neg (by omega), if_pos (by simp; omega)]
      omega
    rw [lowerChar, hcode, ← hlower, Char.ofNat_toNat]

section Word

variable {word : List Char}

theorem lowerAfter_of_isLower (h : ∀ c ∈ word, c.isLower = true) (before : List Char) :
    lowerAfter before word = word := by
  induction word generalizing before with
  | nil => rfl
  | cons c cs ih =>
    obtain ⟨hc, hcs⟩ := List.forall_mem_cons.mp h
    have hne : ∀ d : Char, d.isLower = false → c ≠ d := by
      rintro d hd rfl
      rw [hc] at hd
      exact nomatch hd
    rw [lowerAfter, if_neg (hne 'İ' (by decide)), if_neg (hne 'Σ' (by decide)),
      lowerChar_of_isLower hc, ih hcs]

/-- The special cases of lower-casing give no small letter of ASCII alone. -/
theorem map_lowerChar_of_lowerAfter {before cs : List Char}
    (h : ∀ c ∈ lowerAfter before cs, c.isLower = true) :
    cs.map lowerChar = lowerAfter before cs := by
  induction cs generalizing before with
  | nil => rfl
  | cons c cs ih =>
    rw [lowerAfter] at h ⊢
    split at h
    · exact absurd (h '\u0307' (by simp)) (by decide)
    · split at h
      · have hsigma := h _ List.mem_cons_self
        split at hsigma <;> exact absurd hsigma (by decide)
      · next hdotted hsigma =>
        obtain ⟨-, hcs⟩ := List.forall_mem_cons.mp h
        rw [if_neg hdotted, if_neg hsigma, List.map_cons, ih hcs]

/-- A text that is a word of small letters but for case has it as its lower-case form. -/
theorem map_lowerChar_of_eqIgnoringCase {cs : List Char} (h : ∀ c ∈ word, c.isLower = true)
    (heq : eqIgnoringCase cs word = true) : cs.map lowerChar = word := by
  simp only [eqIgnoringCase, Bool.or_eq_true, beq_iff_eq] at heq
  rcases heq with heq | heq
  · have hword : word.map Char.toLower = word := by
      have hsame : ∀ c ∈ word, c.toLower = id c := fun c hc => by
        rcases toLower_eq_or c with heq | ⟨hupper, -⟩
        · exact heq
        · have hsmall := toNat_of_isLower (h c hc)
          omega
      rw [List.map_congr_left hsame, List.map_id]
    rw [hword] at heq
    rw [← heq]
    refine List.map_congr_left fun c hc => lowerChar_of_isLower_toLower (h _ ?_)
    exact heq ▸ List.mem_map_of_mem hc
  · rw [lower, lower, lowerAfter_of_isLower h] at heq
    rw [← heq]
    exact map_lowerChar_of_lowerAfter fun c hc => h c (heq ▸ hc)

end Word

end DiceBot.Text
