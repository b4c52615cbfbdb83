import DiceBot.Proofs.Command.Reading

/-!
# Which messages are commands

Two readers decide whether a message is meant for the bot: one only looks for the lead-in, the other
reads the whole command. They look for the same lead-in (`Invocation.startsWithLeadIn_eq`), and the
second one also wants something other than white space behind it
(`Invocation.isSome_parse?_iff_exists`). Neither folding a spelling nor putting a space behind a
keyword makes a text of white space, or out of one (`allBlank_foldSpelling_iff`,
`allBlank_commandBody_iff`), so the keywords have no part in it (`Invocation.isSome_parse?_iff`).
-/

namespace DiceBot

open Text

/-! ## Texts of white space -/

/-- The text holds nothing but white space. -/
def AllBlank (cs : List Char) : Prop := ∀ c ∈ cs, isBlank c = true

instance (cs : List Char) : Decidable (AllBlank cs) := inferInstanceAs (Decidable (∀ c ∈ cs, _))

variable {word text rest body : List Char}

theorem allBlank_append_iff {cs ds : List Char} :
    AllBlank (cs ++ ds) ↔ AllBlank cs ∧ AllBlank ds :=
  List.forall_mem_append

theorem allBlank_trim_iff (cs : List Char) : AllBlank (trim cs) ↔ AllBlank cs := by
  obtain ⟨before, after, heq, hbefore, hafter⟩ := exists_eq_trim cs
  constructor
  · intro h
    rw [heq]
    exact allBlank_append_iff.mpr ⟨allBlank_append_iff.mpr ⟨hbefore, h⟩, hafter⟩
  · intro h
    rw [heq] at h
    exact (allBlank_append_iff.mp (allBlank_append_iff.mp h).1).2

theorem splitCommand?_eq_none_iff : splitCommand? body = none ↔ AllBlank body := by
  have hempty : (trimLeft body).takeWhile (fun c => !isBlank c) = [] ↔ trimLeft body = [] := by
    cases htext : trimLeft body with
    | nil => simp
    | cons c cs =>
      have hc := List.head?_dropWhile_not isBlank body
      rw [trimLeft] at htext
      rw [htext] at hc
      simp_all
  have hnone : splitCommand? body = none ↔
      (trimLeft body).takeWhile (fun c => !isBlank c) = [] := by
    unfold splitCommand?
    dsimp only
    rw [← List.isEmpty_iff]
    split <;> simp [*]
  rw [hnone, hempty, trimLeft_eq_nil_iff]
  rfl

/-- A word and the front of a text that is matched with it are white space together. -/
theorem allBlank_iff_of_eqIgnoringCase {front : List Char} (h : eqIgnoringCase front word = true) :
    AllBlank front ↔ AllBlank word := by
  constructor
  · intro hfront
    have hcaseless : ∀ c ∈ front, isCaseless c = true := fun c hc =>
      isCaseless_of_isBlank (hfront c hc)
    rw [eqIgnoringCase_comm] at h
    rwa [eq_of_eqIgnoringCase hcaseless h]
  · intro hword
    have hcaseless : ∀ c ∈ word, isCaseless c = true := fun c hc =>
      isCaseless_of_isBlank (hword c hc)
    rwa [eq_of_eqIgnoringCase hcaseless h]

theorem allBlank_iff_of_stripIgnoringCase? (h : stripIgnoringCase? word text = some rest) :
    AllBlank text ↔ AllBlank word ∧ AllBlank rest := by
  obtain ⟨front, rfl, -, hsame⟩ := stripIgnoringCase?_eq_some_iff.mp h
  rw [allBlank_append_iff, allBlank_iff_of_eqIgnoringCase hsame]

theorem allBlank_foldSpelling_iff (text : List Char) :
    AllBlank (foldSpelling text foldedSpellings) ↔ AllBlank text := by
  rw [foldedSpellings, foldSpelling]
  split
  · next tail hstrip =>
    have hspelling : ¬AllBlank "bot list".toList := by decide
    have hword : ¬AllBlank "botlist".toList := by decide
    rw [allBlank_append_iff, allBlank_iff_of_stripIgnoringCase? hstrip]
    simp only [hspelling, hword, false_and]
  · rfl

theorem allBlank_commandBody_iff (keywords : List String) (text : List Char) :
    AllBlank (commandBody keywords text) ↔ AllBlank text := by
  unfold commandBody
  rcases longestKeyword?_cases text (keywords.map String.toList) with ⟨hnone, -⟩ |
      ⟨-, found, -, rest, -, hfound, hstrip, -⟩
  · rw [hnone]
  · have hspace : AllBlank (' ' :: rest) ↔ AllBlank rest := by
      simp only [AllBlank, List.forall_mem_cons, and_iff_right_iff_imp]
      exact fun _ => by decide
    rw [hfound]
    dsimp only
    rw [allBlank_append_iff, hspace, allBlank_iff_of_stripIgnoringCase? hstrip]

namespace Invocation

variable {message platform : String} {leadIns keywords : List String} {consume : Bool}

/-- A message is a command if a lead-in is found and not only white space stands behind it. -/
theorem isSome_parse?_iff_exists :
    (parse? message platform leadIns keywords consume).isSome = true ↔
      ∃ leadIn rest,
        findLeadIn? (markedText message platform consume).1 leadIns = some (leadIn, rest) ∧
        ¬AllBlank rest := by
  have hsplit : ∀ rest, (splitCommand? (commandBody keywords
      (foldSpelling (trim rest) foldedSpellings))).isSome = true ↔ ¬AllBlank rest := by
    intro rest
    rw [Option.isSome_iff_ne_none, Ne, splitCommand?_eq_none_iff, allBlank_commandBody_iff,
      allBlank_foldSpelling_iff, allBlank_trim_iff]
  rw [parse?_eq]
  simp only [Option.isSome_bind, Option.any_eq_true, Option.isSome_map, hsplit, Prod.exists]

/-- Both readers find a lead-in in the same texts. -/
theorem startsWithLeadIn_eq : startsWithLeadIn message platform leadIns =
    (findLeadIn? (markedText message platform true).1 leadIns).isSome := by
  simp only [startsWithLeadIn, markedText, if_true]
  generalize (RepeatMarker.take (normalizeMessage message.toList platform).1).1 = text
  induction leadIns with
  | nil => rfl
  | cons p leadIns ih =>
    rw [List.any_cons, findLeadIn?_cons, ih]
    by_cases hp : p ≠ "" ∧ p.toList <+: text
    · rw [if_pos hp]
      simp [hp]
    · rw [if_neg hp]
      have hfalse : (!p.isEmpty && p.toList.isPrefixOf text) = false := by
        rw [← Bool.not_eq_true, Bool.and_eq_true_iff, List.isPrefixOf_iff_prefix]
        simpa using hp
      rw [hfalse, Bool.false_or]

/-- A message is a command if and only if it starts with a lead-in, markup and a repeat marker
aside, and behind the first one on the list that it starts with there is a character other than
white space. Which keywords there are has no part in it. -/
theorem isSome_parse?_iff (message platform : String) (leadIns keywords : List String) :
    ((parse? message platform leadIns keywords true).isSome = true ↔
      startsWithLeadIn message platform leadIns = true ∧
      ∀ before leadIn after rest, leadIns = before ++ leadIn :: after → leadIn ≠ "" →
        (markedText message platform true).1 = leadIn.toList ++ rest →
        (∀ p ∈ before, p ≠ "" → ¬p.toList <+: (markedText message platform true).1) →
        ∃ c ∈ rest, isBlank c = false) ∧
    ∀ consume keywords', (parse? message platform leadIns keywords' consume).isSome =
      (parse? message platform leadIns keywords consume).isSome := by
  have hink : ∀ {rest : List Char}, ¬AllBlank rest ↔ ∃ c ∈ rest, isBlank c = false := by
    simp [AllBlank]
  constructor
  · rw [isSome_parse?_iff_exists, startsWithLeadIn_eq]
    constructor
    · rintro ⟨leadIn, rest, hfound, hrest⟩
      refine ⟨by rw [hfound]; rfl, fun before leadIn' after rest' hlist hne htext hbefore => ?_⟩
      -- there is only one lead-in that comes first
      have hfound' := findLeadIn?_eq_some_iff.mpr ⟨hne, htext, before, after, hlist, hbefore⟩
      obtain ⟨rfl, rfl⟩ := Prod.mk.inj (Option.some.inj (hfound.symm.trans hfound'))
      exact hink.mp hrest
    · rintro ⟨hstarts, hrest⟩
      obtain ⟨⟨leadIn, rest⟩, hfound⟩ := Option.isSome_iff_exists.mp hstarts
      obtain ⟨hne, htext, before, after, hlist, hbefore⟩ := findLeadIn?_eq_some_iff.mp hfound
      exact ⟨leadIn, rest, hfound,
        hink.mpr (hrest before leadIn after rest hlist hne htext hbefore)⟩
  · intro consume keywords'
    rw [Bool.eq_iff_iff, isSome_parse?_iff_exists, isSome_parse?_iff_exists]

theorem isSome_parse?_iff_marked :
    (parse? "[CQ:reply,id=1] 2#。d6" "QQ" [".", "。"] ["r"] true).isSome = true ∧
      startsWithLeadIn "[CQ:reply,id=1] 2#。d6" "QQ" [".", "。"] = true ∧
      (∃ c ∈ "d6".toList, isBlank c = false) ∧
      (parse? "[CQ:reply,id=1] 2#。d6" "QQ" [".", "。"] ["d", "d6"] true).isSome = true := by
  have hsome : (parse? "[CQ:reply,id=1] 2#。d6" "QQ" [".", "。"] ["r"] true).isSome = true := by
    decide +kernel
  obtain ⟨hiff, hkeywords⟩ := isSome_parse?_iff "[CQ:reply,id=1] 2#。d6" "QQ" [".", "。"] ["r"]
  obtain ⟨hstarts, hbehind⟩ := hiff.mp hsome
  refine ⟨hsome, hstarts, ?_, by rw [hkeywords, hsome]⟩
  exact hbehind ["."] "。" [] "d6".toList rfl (by decide) (by decide +kernel) (by decide +kernel)

end Invocation

end DiceBot
