import DiceBot.Proofs.Text.Bytes
import DiceBot.Proofs.Text.Letter
import DiceBot.Proofs.Text.Lowercase

/-!
# Equality that disregards case

ASCII case makes no difference to the lower-case form of a text, so two texts are equal but for case
exactly if their lower-case forms are equal (`eqIgnoringCase_iff`). The lower-case form has at least
as many characters as the text, so of the fronts of a text at most one is equal to a given word but
for case (`eq_front_of_eqIgnoringCase`). It may have another number of bytes than the text: the
Kelvin sign has three and its lower case `k` has one. It has as many if no character changes its
width (`byteLength_eq_of_keepsWidth`).
-/

namespace DiceBot.Text

variable {c d : Char}

/-! ## ASCII case -/

/-- Behind ASCII no character is the lower case of another one by the rules of ASCII. -/
theorem toLower_eq_iff (hd : 0x7A < d.toNat) : c.toLower = d ↔ c = d := by
  rcases toLower_eq_or c with heq | ⟨hupper, hlower⟩
  · rw [heq]
  · refine iff_of_false ?_ ?_
    · rintro rfl
      omega
    · rintro rfl
      omega

theorem lowerChar_toLower (c : Char) : lowerChar c.toLower = lowerChar c := by
  rcases toLower_eq_or c with heq | ⟨hupper, hlower⟩
  · rw [heq]
  · have hsmall : c.toLower.isLower = true := by
      refine (Bool.and_eq_true _ _).mpr ⟨decide_eq_true ?_, decide_eq_true ?_⟩
      · show 0x61 ≤ c.toLower.toNat
        omega
      · show c.toLower.toNat ≤ 0x7A
        omega
    rw [lowerChar_of_isLower hsmall, lowerChar_of_isLower_toLower hsmall]

/-- A property that the capital letters of ASCII share with the small ones is one of the lower case. -/
theorem inRanges_toLower {table : List (Nat × Nat)}
    (h : ∀ n < 0x5B, 0x41 ≤ n → coversCodePoint table (n + 32) = coversCodePoint table n)
    (c : Char) : inRanges table c.toLower = inRanges table c := by
  rcases toLower_eq_or c with heq | ⟨⟨hfirst, hlast⟩, hlower⟩
  · rw [heq]
  · rw [inRanges, hlower, h c.toNat (by omega) hfirst, inRanges]

theorem isCased_toLower (c : Char) : isCased c.toLower = isCased c :=
  inRanges_toLower (by decide +kernel) c

theorem isCaseIgnorable_toLower (c : Char) : isCaseIgnorable c.toLower = isCaseIgnorable c :=
  inRanges_toLower (by decide +kernel) c

theorem meetsCased_cons (c : Char) (cs : List Char) :
    meetsCased (c :: cs) = if isCaseIgnorable c then meetsCased cs else isCased c := by
  cases hc : isCaseIgnorable c <;> simp [meetsCased, hc]

theorem meetsCased_map_toLower (cs : List Char) :
    meetsCased (cs.map Char.toLower) = meetsCased cs := by
  induction cs with
  | nil => rfl
  | cons c cs ih =>
    rw [List.map_cons, meetsCased_cons, meetsCased_cons, isCaseIgnorable_toLower, isCased_toLower,
      ih]

/-- Lower-casing does not see ASCII case, neither in the text nor in front of it. -/
theorem lowerAfter_map_toLower (before cs : List Char) :
    lowerAfter (before.map Char.toLower) (cs.map Char.toLower) = lowerAfter before cs := by
  induction cs generalizing before with
  | nil => rfl
  | cons c cs ih =>
    have hrest : lowerAfter (c.toLower :: before.map Char.toLower) (cs.map Char.toLower) =
        lowerAfter (c :: before) cs := ih (c :: before)
    rw [List.map_cons, lowerAfter, lowerAfter, hrest, meetsCased_map_toLower,
      meetsCased_map_toLower, lowerChar_toLower]
    simp only [toLower_eq_iff (by decide : 0x7A < Char.toNat 'İ'),
      toLower_eq_iff (by decide : 0x7A < Char.toNat 'Σ')]

/-- Texts that are equal but for ASCII case have the same lower-case form anyway. -/
theorem eqIgnoringCase_iff {xs ys : List Char} :
    eqIgnoringCase xs ys = true ↔ lower xs = lower ys := by
  simp only [eqIgnoringCase, Bool.or_eq_true, beq_iff_eq]
  refine or_iff_right_of_imp fun hascii => ?_
  calc lower xs = lower (xs.map Char.toLower) := (lowerAfter_map_toLower [] xs).symm
    _ = lower (ys.map Char.toLower) := by rw [hascii]
    _ = lower ys := lowerAfter_map_toLower [] ys

/-! ## The number of characters -/

/-- Only `İ` has two characters for its lower case. -/
theorem length_lowerAfter (before cs : List Char) :
    (lowerAfter before cs).length = cs.length + cs.count 'İ' := by
  induction cs generalizing before with
  | nil => rfl
  | cons c cs ih =>
    rw [lowerAfter, List.length_cons, List.count_cons]
    split
    · next hdotted =>
      simp only [hdotted, List.length_cons, ih, beq_self_eq_true, if_true]
      omega
    · next hdotted =>
      have hcount : (if (c == 'İ') = true then 1 else 0) = 0 := if_neg (by simpa using hdotted)
      rw [hcount]
      split <;> simp only [List.length_cons, ih] <;> omega

/-- What follows a front of a text is nothing if it adds nothing to the lower-case form. -/
theorem eq_nil_of_lower_append {front more : List Char} (h : lower (front ++ more) = lower front) :
    more = [] := by
  have hlength := congrArg List.length h
  rw [lower, lower, length_lowerAfter, length_lowerAfter, List.length_append, List.count_append]
    at hlength
  exact List.eq_nil_of_length_eq_zero (by omega)

/-- Two fronts of a text that are equal to the same word but for case are the same front. -/
theorem eq_front_of_eqIgnoringCase {front front' rest rest' word : List Char}
    (htext : front ++ rest = front' ++ rest') (h : eqIgnoringCase front word = true)
    (h' : eqIgnoringCase front' word = true) : front = front' := by
  have hlower : lower front = lower front' :=
    (eqIgnoringCase_iff.mp h).trans (eqIgnoringCase_iff.mp h').symm
  rcases List.append_eq_append_iff.mp htext with ⟨more, rfl, -⟩ | ⟨more, rfl, -⟩
  · rw [eq_nil_of_lower_append hlower.symm, List.append_nil]
  · rw [eq_nil_of_lower_append hlower, List.append_nil]

/-! ## The number of bytes -/

/-- Does the lower case of the character have as many bytes as the character? -/
def keepsWidth (c : Char) : Bool := byteLength (lower [c]) == c.utf8Size

theorem keepsWidth_iff : keepsWidth c = true ↔ byteLength (lower [c]) = c.utf8Size := beq_iff_eq

/-- What stands around a character has no part in how many bytes its lower case has. -/
theorem byteLength_lowerAfter_cons (before : List Char) (c : Char) (cs : List Char) :
    byteLength (lowerAfter before (c :: cs)) =
      byteLength (lower [c]) + byteLength (lowerAfter (c :: before) cs) := by
  rw [lower, lowerAfter, lowerAfter]
  split
  · simp only [byteLength, lowerAfter]
    omega
  · split
    · -- both forms of the small sigma have two bytes
      split <;> rfl
    · rfl

theorem byteLength_lowerAfter {cs : List Char} (h : ∀ c ∈ cs, keepsWidth c = true)
    (before : List Char) : byteLength (lowerAfter before cs) = byteLength cs := by
  induction cs generalizing before with
  | nil => rfl
  | cons c cs ih =>
    obtain ⟨hc, hcs⟩ := List.forall_mem_cons.mp h
    rw [byteLength_lowerAfter_cons, keepsWidth_iff.mp hc, ih hcs, byteLength]

/-- Texts that are equal but for case are equally long if all their characters keep their width. -/
theorem byteLength_eq_of_keepsWidth {xs ys : List Char} (heq : eqIgnoringCase xs ys = true)
    (h : ∀ c ∈ xs ++ ys, keepsWidth c = true) : byteLength xs = byteLength ys := by
  obtain ⟨hxs, hys⟩ := List.forall_mem_append.mp h
  rw [← byteLength_lowerAfter hxs [], ← byteLength_lowerAfter hys []]
  exact congrArg byteLength (eqIgnoringCase_iff.mp heq)

example : keepsWidth '\u212A' = false ∧ keepsWidth 'ẞ' = false ∧ keepsWidth 'Ä' = true := by decide

end DiceBot.Text
