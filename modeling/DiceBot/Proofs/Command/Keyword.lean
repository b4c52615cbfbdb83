import DiceBot.Command.Keyword
import DiceBot.Proofs.Text.Bytes
import DiceBot.Proofs.Text.Lowercase

/-!
# Which keyword is matched

A text starts with a word, disregarding case, if a front of as many bytes is equal to the word
(`stripIgnoringCase?_eq_some_iff`). Of the keywords that a text starts with the longest is taken,
and of equally long ones the first (`isLongest_longestAfter`, `longestKeyword?_first_of_longest`), so
the order of the list only decides between equally long ones (`longestKeyword?_perm`), and what is
behind a front of the text has no part in the choice as long as no match reaches into it
(`longestKeyword?_append`).
-/

namespace DiceBot

open Text

variable {word text rest : List Char}

theorem stripIgnoringCase?_eq_some_iff : stripIgnoringCase? word text = some rest ↔
    ∃ front, text = front ++ rest ∧ byteLength front = byteLength word ∧
      eqIgnoringCase front word = true := by
  constructor
  · intro h
    unfold stripIgnoringCase? at h
    split at h
    · next front back hsplit =>
      obtain ⟨htext, hlength⟩ := eq_append_of_splitAtByte? hsplit
      split at h
      · next heq => exact ⟨front, Option.some.inj h ▸ htext, hlength, heq⟩
      · exact nomatch h
    · exact nomatch h
  · rintro ⟨front, rfl, hlength, heq⟩
    unfold stripIgnoringCase?
    rw [← hlength, splitAtByte?_append]
    exact if_pos heq

theorem stripIgnoringCase?_self_append (word rest : List Char) :
    stripIgnoringCase? word (word ++ rest) = some rest :=
  Iff.mpr stripIgnoringCase?_eq_some_iff ⟨word, rfl, rfl, eqIgnoringCase_refl word⟩

theorem stripIgnoringCase?_append (h : stripIgnoringCase? word text = some rest)
    (more : List Char) : stripIgnoringCase? word (text ++ more) = some (rest ++ more) := by
  obtain ⟨front, rfl, hlength, heq⟩ := Iff.mp stripIgnoringCase?_eq_some_iff h
  exact Iff.mpr stripIgnoringCase?_eq_some_iff ⟨front, List.append_assoc _ _ _, hlength, heq⟩

/-- The front of the text decides the match of a word that is as long. -/
theorem stripIgnoringCase?_of_byteLength_eq {front : List Char}
    (h : byteLength front = byteLength word) :
    stripIgnoringCase? word (front ++ rest) =
      if eqIgnoringCase front word then some rest else none := by
  unfold stripIgnoringCase?
  rw [← h, splitAtByte?_append]

/-! ## The longest keyword -/

/-- The text starts with the word, disregarding case. -/
def StartsWith (word text : List Char) : Prop := (stripIgnoringCase? word text).isSome = true

instance (word text : List Char) : Decidable (StartsWith word text) :=
  inferInstanceAs (Decidable (_ = _))

theorem startsWith_iff : StartsWith word text ↔ ∃ rest, stripIgnoringCase? word text = some rest :=
  Option.isSome_iff_exists

theorem StartsWith.append (h : StartsWith word text) (more : List Char) :
    StartsWith word (text ++ more) := by
  obtain ⟨rest, hrest⟩ := Iff.mp startsWith_iff h
  exact Iff.mpr startsWith_iff ⟨rest ++ more, stripIgnoringCase?_append hrest more⟩

/-- What follows the front of a text has no part in a match that does not reach into it. -/
theorem stripIgnoringCase?_append_of_startsWith {more : List Char}
    (h : StartsWith word (text ++ more) → StartsWith word text) :
    stripIgnoringCase? word (text ++ more) = (stripIgnoringCase? word text).map (· ++ more) := by
  cases hstrip : stripIgnoringCase? word text with
  | some rest => exact stripIgnoringCase?_append hstrip more
  | none =>
    refine Option.eq_none_iff_forall_ne_some.mpr fun rest hrest => ?_
    obtain ⟨rest', hrest'⟩ := Iff.mp startsWith_iff (h (Iff.mpr startsWith_iff ⟨rest, hrest⟩))
    rw [hstrip] at hrest'
    exact nomatch hrest'

theorem StartsWith.byteLength_le (h : StartsWith word text) : byteLength word ≤ byteLength text := by
  obtain ⟨rest, hrest⟩ := Iff.mp startsWith_iff h
  obtain ⟨front, rfl, hlength, -⟩ := Iff.mp stripIgnoringCase?_eq_some_iff hrest
  rw [byteLength_append]
  omega

/-- A match does not reach over a caseless character that the word does not hold. -/
theorem StartsWith.of_append {more : List Char} (h : StartsWith word (text ++ more))
    (hmore : ∀ c ∈ more.head?, isCaseless c = true ∧ c ∉ word) : StartsWith word text := by
  obtain ⟨rest, hrest⟩ := Iff.mp startsWith_iff h
  obtain ⟨front, heq, hlength, hsame⟩ := Iff.mp stripIgnoringCase?_eq_some_iff hrest
  rcases List.append_eq_append_iff.mp heq with ⟨extra, rfl, rfl⟩ | ⟨extra, rfl, -⟩
  · cases extra with
    | nil =>
      exact Iff.mpr startsWith_iff ⟨[], stripIgnoringCase?_eq_some_iff.mpr
        ⟨text, by simp, by simpa using hlength, by simpa using hsame⟩⟩
    | cons c extra =>
      obtain ⟨hcaseless, hnotMem⟩ := hmore c rfl
      exact absurd ((mem_iff_of_eqIgnoringCase hcaseless hsame).mp (by simp)) hnotMem
  · exact startsWith_iff.mpr
      ⟨extra, Iff.mpr stripIgnoringCase?_eq_some_iff ⟨front, rfl, hlength, hsame⟩⟩

/-- A text does not start with a word whose first character is another one in lower case too. -/
theorem not_startsWith_of_head {c d : Char} (hc : c ≠ 'İ' ∧ c ≠ 'Σ') (hd : d ≠ 'İ' ∧ d ≠ 'Σ')
    (hascii : c.toLower ≠ d.toLower) (hlower : lowerChar c ≠ lowerChar d) (cs ds : List Char) :
    ¬StartsWith (d :: ds) (c :: cs) := by
  intro h
  obtain ⟨rest, hrest⟩ := Iff.mp startsWith_iff h
  obtain ⟨front, heq, hlength, hsame⟩ := Iff.mp stripIgnoringCase?_eq_some_iff hrest
  cases front with
  | nil => exact absurd hlength (Nat.ne_of_lt (byteLength_pos (List.cons_ne_nil d ds)))
  | cons c' front =>
    obtain ⟨rfl, -⟩ := List.cons.inj heq
    have hcons : ∀ {c : Char} (cs : List Char), c ≠ 'İ' ∧ c ≠ 'Σ' →
        lower (c :: cs) = lowerChar c :: lowerAfter [c] cs := by
      rintro c cs ⟨hdotted, hsigma⟩
      rw [lower, lowerAfter, if_neg hdotted, if_neg hsigma]
    simp only [eqIgnoringCase, hcons _ hc, hcons _ hd, List.map_cons, Bool.or_eq_true,
      beq_iff_eq, List.cons.injEq] at hsame
    exact hsame.elim (fun h => hascii h.1) fun h => hlower h.1

/-- A text that starts with a word of small letters has the word in front of its lower-case form. -/
theorem StartsWith.isPrefix_map_lowerChar (hword : ∀ c ∈ word, c.isLower = true)
    (h : StartsWith word text) : word <+: text.map lowerChar := by
  obtain ⟨rest, hrest⟩ := Iff.mp startsWith_iff h
  obtain ⟨front, rfl, -, hsame⟩ := Iff.mp stripIgnoringCase?_eq_some_iff hrest
  rw [List.map_append, map_lowerChar_of_eqIgnoringCase hword hsame]
  exact List.prefix_append _ _

/-- The length that a keyword has to exceed to replace the best one so far. -/
def bestLength : Option (List Char × List Char) → Nat
  | none => 0
  | some (found, _) => byteLength found

theorem longestAfter_cons (text : List Char) (best : Option (List Char × List Char))
    (word : List Char) (words : List (List Char)) :
    longestAfter text best (word :: words) =
      if bestLength best < byteLength word then
        match stripIgnoringCase? word text with
        | some rest => longestAfter text (some (word, rest)) words
        | none => longestAfter text best words
      else longestAfter text best words := by
  cases best with
  | none =>
    cases word with
    | nil => rfl
    | cons c word =>
      have hlonger : bestLength none < byteLength (c :: word) :=
        byteLength_pos (List.cons_ne_nil c word)
      rw [if_pos hlonger]
      rfl
  | some best =>
    obtain ⟨found, rest⟩ := best
    rw [longestAfter.eq_def]
    simp only [bestLength, decide_eq_true_eq]
    rfl

/-- Either no keyword is better than the best one so far, which stays, or the first of the longest
ones is taken. -/
def IsLongest (text : List Char) (best : Option (List Char × List Char)) (words : List (List Char))
    (result : Option (List Char × List Char)) : Prop :=
  (result = best ∧ ∀ w ∈ words, StartsWith w text → byteLength w ≤ bestLength best) ∨
    ∃ before found after rest, words = before ++ found :: after ∧ result = some (found, rest) ∧
      stripIgnoringCase? found text = some rest ∧ bestLength best < byteLength found ∧
      (∀ w ∈ before, StartsWith w text → byteLength w < byteLength found) ∧
      ∀ w ∈ after, StartsWith w text → byteLength w ≤ byteLength found

theorem IsLongest.cons_of_le {best result : Option (List Char × List Char)}
    {words : List (List Char)} (h : IsLongest text best words result)
    (hword : StartsWith word text → byteLength word ≤ bestLength best) :
    IsLongest text best (word :: words) result := by
  rcases h with ⟨heq, hall⟩ |
      ⟨before, found, after, rest, rfl, heq, hfound, hlength, hbefore, hafter⟩
  · exact .inl ⟨heq, List.forall_mem_cons.mpr ⟨hword, hall⟩⟩
  · have hshorter : StartsWith word text → byteLength word < byteLength found := fun hstarts =>
      Nat.lt_of_le_of_lt (hword hstarts) hlength
    exact .inr ⟨word :: before, found, after, rest, rfl, heq, hfound, hlength,
      List.forall_mem_cons.mpr ⟨hshorter, hbefore⟩, hafter⟩

theorem isLongest_longestAfter (text : List Char) (best : Option (List Char × List Char))
    (words : List (List Char)) : IsLongest text best words (longestAfter text best words) := by
  induction words generalizing best with
  | nil => exact .inl ⟨rfl, by simp⟩
  | cons word words ih =>
    rw [longestAfter_cons]
    by_cases hlonger : bestLength best < byteLength word
    · rw [if_pos hlonger]
      cases hstrip : stripIgnoringCase? word text with
      | some rest =>
        dsimp only
        -- the word is the best one so far, and stays so or is replaced by a longer one
        rcases ih (some (word, rest)) with ⟨heq, hall⟩ |
            ⟨before, found, after, rest', rfl, heq, hfound, hlength, hbefore, hafter⟩
        · exact .inr ⟨[], word, words, rest, rfl, heq, hstrip, hlonger, by simp, hall⟩
        · exact .inr ⟨word :: before, found, after, rest', rfl, heq, hfound,
            Nat.lt_trans hlonger hlength, List.forall_mem_cons.mpr ⟨fun _ => hlength, hbefore⟩,
            hafter⟩
      | none =>
        have hword : ¬StartsWith word text := by simp [StartsWith, hstrip]
        exact (ih best).cons_of_le fun hstarts => absurd hstarts hword
    · rw [if_neg hlonger]
      exact (ih best).cons_of_le fun _ => Nat.le_of_not_lt hlonger

/-- Either the text starts with no keyword, or the first of the longest ones that it starts with is
matched. -/
theorem longestKeyword?_cases (text : List Char) (keywords : List (List Char)) :
    (longestKeyword? text keywords = none ∧
      ∀ w ∈ keywords, w ≠ [] → stripIgnoringCase? w text = none) ∨
    ∃ before found after rest, keywords = before ++ found :: after ∧
      longestKeyword? text keywords = some (found, rest) ∧
      stripIgnoringCase? found text = some rest ∧ found ≠ [] ∧
      (∀ w ∈ before, StartsWith w text → byteLength w < byteLength found) ∧
      ∀ w ∈ after, StartsWith w text → byteLength w ≤ byteLength found := by
  rcases isLongest_longestAfter text none keywords with ⟨heq, hall⟩ |
      ⟨before, found, after, rest, rfl, heq, hfound, hlength, hbefore, hafter⟩
  · refine .inl ⟨heq, fun w hw hne => ?_⟩
    have hpos := byteLength_pos hne
    cases hstrip : stripIgnoringCase? w text with
    | none => rfl
    | some rest =>
      have hzero : byteLength w ≤ 0 := hall w hw (by simp [StartsWith, hstrip])
      omega
  · refine .inr ⟨before, found, after, rest, rfl, heq, hfound, ?_, hbefore, hafter⟩
    rintro rfl
    exact Nat.not_lt_zero _ hlength

/-! ### The first of the longest keywords -/

/-- Matches of words that are equally long leave the same rest of the text. -/
theorem rest_eq_of_byteLength_eq {word' rest' : List Char}
    (h : stripIgnoringCase? word text = some rest) (h' : stripIgnoringCase? word' text = some rest')
    (hlength : byteLength word = byteLength word') : rest = rest' := by
  obtain ⟨front, htext, hfront, -⟩ := stripIgnoringCase?_eq_some_iff.mp h
  obtain ⟨front', htext', hfront', -⟩ := stripIgnoringCase?_eq_some_iff.mp h'
  have hsplit : splitAtByte? (byteLength word) text = some (front, rest) := by
    rw [htext, ← hfront, splitAtByte?_append]
  have hsplit' : splitAtByte? (byteLength word) text = some (front', rest') := by
    rw [htext', hlength, ← hfront', splitAtByte?_append]
  rw [hsplit] at hsplit'
  exact congrArg Prod.snd (Option.some.inj hsplit')

/-- The text starts with `found`, which is on the list in front of all keywords that are as long and
that the text starts with, and none of these is longer. -/
def FirstOfLongest (text : List Char) (keywords : List (List Char)) (found rest : List Char) :
    Prop :=
  ∃ before after, keywords = before ++ found :: after ∧ found ≠ [] ∧
    stripIgnoringCase? found text = some rest ∧
    (∀ w ∈ before, StartsWith w text → byteLength w < byteLength found) ∧
    ∀ w ∈ after, StartsWith w text → byteLength w ≤ byteLength found

namespace FirstOfLongest

variable {keywords : List (List Char)} {found found' rest' : List Char}

theorem mem (h : FirstOfLongest text keywords found rest) : found ∈ keywords := by
  obtain ⟨before, after, rfl, -⟩ := h
  exact List.mem_append_right before List.mem_cons_self

theorem strip_eq (h : FirstOfLongest text keywords found rest) :
    stripIgnoringCase? found text = some rest := by
  obtain ⟨_, _, -, -, hstrip, -⟩ := h
  exact hstrip

theorem startsWith (h : FirstOfLongest text keywords found rest) : StartsWith found text :=
  startsWith_iff.mpr ⟨rest, h.strip_eq⟩

theorem ne_nil (h : FirstOfLongest text keywords found rest) : found ≠ [] := by
  obtain ⟨_, _, -, hne, -⟩ := h
  exact hne

/-- No keyword that the text starts with is longer. -/
theorem byteLength_le (h : FirstOfLongest text keywords found rest) {w : List Char}
    (hw : w ∈ keywords) (hstarts : StartsWith w text) : byteLength w ≤ byteLength found := by
  obtain ⟨before, after, rfl, -, -, hbefore, hafter⟩ := h
  rcases List.mem_append.mp hw with hw | hw
  · exact Nat.le_of_lt (hbefore w hw hstarts)
  · rcases List.mem_cons.mp hw with rfl | hw
    · exact Nat.le_refl _
    · exact hafter w hw hstarts

/-- There is only one such keyword, and one rest behind it. -/
theorem unique (h : FirstOfLongest text keywords found rest)
    (h' : FirstOfLongest text keywords found' rest') : found = found' ∧ rest = rest' := by
  suffices heq : found = found' by
    refine ⟨heq, Option.some.inj ?_⟩
    rw [← h.strip_eq, heq, h'.strip_eq]
  have hstarts := h.startsWith
  have hstarts' := h'.startsWith
  obtain ⟨before, after, rfl, -, -, hbefore, hafter⟩ := h
  obtain ⟨before', after', hlist, -, -, hbefore', hafter'⟩ := h'
  -- the one that stands further behind on the list would be longer, and also not longer
  rcases List.append_eq_append_iff.mp hlist with ⟨between, rfl, heq⟩ | ⟨between, rfl, heq⟩
  · cases between with
    | nil => exact (List.cons.inj heq).1
    | cons w between =>
      obtain ⟨rfl, rfl⟩ := List.cons.inj heq
      have hlt := hbefore' found (by simp) hstarts
      have hle := hafter found' (by simp) hstarts'
      omega
  · cases between with
    | nil => exact (List.cons.inj heq).1.symm
    | cons w between =>
      obtain ⟨rfl, rfl⟩ := List.cons.inj heq
      have hlt := hbefore found' (by simp) hstarts'
      have hle := hafter' found (by simp) hstarts
      omega

end FirstOfLongest

theorem longestKeyword?_eq_some_iff {keywords : List (List Char)} {found : List Char} :
    longestKeyword? text keywords = some (found, rest) ↔
      FirstOfLongest text keywords found rest := by
  rcases longestKeyword?_cases text keywords with ⟨heq, hnone⟩ |
      ⟨before, found', after, rest', hlist, heq, hstrip, hne, hbefore, hafter⟩
  · refine iff_of_false (by rw [heq]; exact nofun) fun h => ?_
    have hstrip := h.strip_eq
    rw [hnone found h.mem h.ne_nil] at hstrip
    exact nomatch hstrip
  · have hfirst : FirstOfLongest text keywords found' rest' :=
      ⟨before, after, hlist, hne, hstrip, hbefore, hafter⟩
    rw [heq]
    constructor
    · intro h
      obtain ⟨rfl, rfl⟩ := Prod.mk.inj (Option.some.inj h)
      exact hfirst
    · intro h
      obtain ⟨rfl, rfl⟩ := hfirst.unique h
      rfl

theorem longestKeyword?_eq_none_iff {keywords : List (List Char)} :
    longestKeyword? text keywords = none ↔
      ∀ w ∈ keywords, w ≠ [] → stripIgnoringCase? w text = none := by
  rcases longestKeyword?_cases text keywords with ⟨heq, hnone⟩ |
      ⟨before, found, after, rest, rfl, heq, hstrip, hne, -⟩
  · exact iff_of_true heq hnone
  · refine iff_of_false (by rw [heq]; exact nofun) fun h => ?_
    rw [h found (by simp) hne] at hstrip
    exact nomatch hstrip

/-- In another order of the keywords another one may be matched, but one that is as long, and the
text behind it is the same. -/
theorem longestKeyword?_perm {keywords keywords' : List (List Char)}
    (h : keywords.Perm keywords') :
    (longestKeyword? text keywords').map (fun (found, rest) => (byteLength found, rest)) =
      (longestKeyword? text keywords).map fun (found, rest) => (byteLength found, rest) := by
  cases hmatch : longestKeyword? text keywords with
  | none =>
    have hnone := longestKeyword?_eq_none_iff.mp hmatch
    rw [longestKeyword?_eq_none_iff.mpr fun w hw => hnone w (h.mem_iff.mpr hw)]
  | some m =>
    obtain ⟨found, rest⟩ := m
    have hfirst := longestKeyword?_eq_some_iff.mp hmatch
    cases hmatch' : longestKeyword? text keywords' with
    | none =>
      have hstrip := longestKeyword?_eq_none_iff.mp hmatch' found (h.mem_iff.mp hfirst.mem)
        hfirst.ne_nil
      rw [hfirst.strip_eq] at hstrip
      exact nomatch hstrip
    | some m' =>
      obtain ⟨found', rest'⟩ := m'
      have hfirst' := longestKeyword?_eq_some_iff.mp hmatch'
      have hlength : byteLength found' = byteLength found := Nat.le_antisymm
        (hfirst.byteLength_le (h.mem_iff.mpr hfirst'.mem) hfirst'.startsWith)
        (hfirst'.byteLength_le (h.mem_iff.mp hfirst.mem) hfirst.startsWith)
      have hrest := rest_eq_of_byteLength_eq hfirst'.strip_eq hfirst.strip_eq hlength
      simp only [Option.map_some, hlength, hrest]

/-- The choice of the keyword. There is none exactly if the text starts with no keyword but perhaps
the empty one. Otherwise it is the first of the longest ones that the text starts with, given with
what follows a front of as many bytes that is equal to it but for case. The order of the list only
decides between keywords that are equally long. -/
theorem longestKeyword?_first_of_longest (text : List Char) (keywords : List (List Char)) :
    (longestKeyword? text keywords = none ↔
      ∀ w ∈ keywords, w ≠ [] → stripIgnoringCase? w text = none) ∧
    (∀ found rest, longestKeyword? text keywords = some (found, rest) ↔
      ∃ before after, keywords = before ++ found :: after ∧ found ≠ [] ∧
        stripIgnoringCase? found text = some rest ∧
        (∀ w ∈ before, StartsWith w text → byteLength w < byteLength found) ∧
        ∀ w ∈ after, StartsWith w text → byteLength w ≤ byteLength found) ∧
    (∀ found rest, longestKeyword? text keywords = some (found, rest) →
      ∃ front, text = front ++ rest ∧ byteLength front = byteLength found ∧
        eqIgnoringCase front found = true) ∧
    ∀ keywords', keywords.Perm keywords' →
      (longestKeyword? text keywords').map (fun (found, rest) => (byteLength found, rest)) =
        (longestKeyword? text keywords).map fun (found, rest) => (byteLength found, rest) := by
  refine ⟨longestKeyword?_eq_none_iff, fun found rest => longestKeyword?_eq_some_iff,
    fun found rest hmatch => ?_, fun keywords' => longestKeyword?_perm⟩
  exact stripIgnoringCase?_eq_some_iff.mp (longestKeyword?_eq_some_iff.mp hmatch).strip_eq

/-- Both spellings of a keyword match, and the first one is taken, in either order. -/
example : longestKeyword? "rOll 1d6".toList ["r".toList, "Roll".toList, "roll".toList] =
      some ("Roll".toList, " 1d6".toList) ∧
    longestKeyword? "rOll 1d6".toList ["roll".toList, "r".toList, "Roll".toList] =
      some ("roll".toList, " 1d6".toList) := by decide

/-- What follows the front of a text has no part in the choice of the keyword, if no match reaches
into it. -/
theorem longestKeyword?_append {keywords : List (List Char)} {more : List Char}
    (h : ∀ w ∈ keywords, w ≠ [] → StartsWith w (text ++ more) → StartsWith w text) :
    longestKeyword? (text ++ more) keywords =
      (longestKeyword? text keywords).map fun (found, rest) => (found, rest ++ more) := by
  have hfrom : ∀ best : Option (List Char × List Char),
      longestAfter (text ++ more) (best.map fun (found, rest) => (found, rest ++ more)) keywords =
        (longestAfter text best keywords).map fun (found, rest) => (found, rest ++ more) := by
    induction keywords with
    | nil => exact fun best => rfl
    | cons word words ih =>
      intro best
      obtain ⟨hword, hwords⟩ := List.forall_mem_cons.mp h
      have hlength :
          bestLength (best.map fun (found, rest) => (found, rest ++ more)) = bestLength best := by
        cases best <;> rfl
      rw [longestAfter_cons, longestAfter_cons, hlength]
      split
      · next hlonger =>
        have hne : word ≠ [] := by
          rintro rfl
          exact Nat.not_lt_zero _ hlonger
        rw [stripIgnoringCase?_append_of_startsWith (hword hne)]
        cases stripIgnoringCase? word text with
        | some rest => exact ih hwords (some (word, rest))
        | none => exact ih hwords best
      · exact ih hwords best
  exact hfrom none

end DiceBot
