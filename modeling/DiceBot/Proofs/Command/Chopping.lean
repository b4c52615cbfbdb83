import DiceBot.Proofs.Command.Reading
import DiceBot.Proofs.Text.CaseEquality

/-!
# Splitting off a sub-command

The first candidate that the first argument starts with is split off it
(`Invocation.chop?_of_first_match`). The arguments of a message that has just been read are words, and
its clean text is these words joined by single spaces (`Invocation.words_of_parse?`), so the two are
chopped alike and nothing is lost (`Invocation.chop?_loses_nothing`).

Only a front of as many bytes as the candidate is compared with it. At most one front of a text is equal
to a word but for case, and it is matched exactly if it has as many bytes
(`front_matched_iff_equally_long`), which a front with other characters may not have
(`not_front_matched`).
-/

namespace DiceBot

open Text

/-! ## Fronts that are equal to a word -/

/-- A front that is equal to the word but for case is the one that is compared, or none is matched. -/
theorem stripIgnoringCase?_of_eqIgnoringCase {word front : List Char}
    (h : eqIgnoringCase front word = true) (rest : List Char) :
    stripIgnoringCase? word (front ++ rest) =
      if byteLength front = byteLength word then some rest else none := by
  by_cases hlength : byteLength front = byteLength word
  · rw [stripIgnoringCase?_of_byteLength_eq hlength, if_pos h, if_pos hlength]
  · rw [if_neg hlength]
    refine Option.eq_none_iff_forall_ne_some.mpr fun rest' hstrip => ?_
    obtain ⟨front', htext, hlength', h'⟩ := stripIgnoringCase?_eq_some_iff.mp hstrip
    rw [eq_front_of_eqIgnoringCase htext h h'] at hlength
    exact hlength hlength'

/-! ## Words and what is left of them -/

theorem intercalate_cons_eq_append (w : List Char) (tokens : List (List Char)) :
    List.intercalate [' '] (w :: tokens) = w ++ tokens.flatMap (' ' :: ·) := by
  induction tokens generalizing w with
  | nil => simp
  | cons w' tokens ih =>
    rw [List.intercalate_cons_cons, ih w', List.flatMap_cons]
    simp

theorem trim_of_not_blank {rest : List Char} (h : ∀ c ∈ rest, isBlank c = false) :
    trim rest = rest := by
  rcases eq_or_ne rest [] with rfl | hne
  · rfl
  · have htrim := trim_intercalate (List.forall_mem_singleton.mpr (⟨hne, h⟩ : IsWord rest))
    rwa [List.intercalate_singleton] at htrim

/-- The rest of a first word and the words behind it, without the space that stands in front if the
first word is used up. -/
theorem trim_rest_append {rest : List Char} {tokens : List (List Char)}
    (hrest : ∀ c ∈ rest, isBlank c = false) (htokens : ∀ w ∈ tokens, IsWord w) :
    trim (rest ++ tokens.flatMap (' ' :: ·)) =
      List.intercalate [' '] ((if rest = [] then [] else [rest]) ++ tokens) := by
  by_cases hne : rest = []
  · rw [if_pos hne, hne, List.nil_append, List.nil_append]
    cases tokens with
    | nil => rfl
    | cons w tokens =>
      have hspace : ∀ c ∈ [' '], isBlank c = true := by decide
      have hjoined : (w :: tokens).flatMap (' ' :: ·) =
          [' '] ++ List.intercalate [' '] (w :: tokens) := by
        rw [intercalate_cons_eq_append, List.flatMap_cons]
        rfl
      rw [hjoined, trim, trimLeft_append_of_blank hspace]
      exact trim_intercalate htokens
  · rw [if_neg hne, List.singleton_append, ← intercalate_cons_eq_append]
    exact trim_intercalate (List.forall_mem_cons.mpr ⟨⟨hne, hrest⟩, htokens⟩)

namespace Invocation

variable {message platform : String} {leadIns keywords candidates : List String} {consume : Bool}
  {x : Invocation}

/-- The arguments are words, which the clean text holds with single spaces between them. -/
theorem words_of_parse? (h : parse? message platform leadIns keywords consume = some x) :
    ∃ tokens : List (List Char), (∀ w ∈ tokens, IsWord w) ∧
      x.arguments = tokens.map String.ofList ∧
      x.cleanText.toList = List.intercalate [' '] tokens := by
  rw [parse?_eq] at h
  obtain ⟨⟨leadIn, tail⟩, -, h⟩ := Option.bind_eq_some_iff.mp h
  obtain ⟨⟨command, line⟩, -, rfl⟩ := Option.map_eq_some_iff.mp h
  refine ⟨(words line).filter fun w => (NamedArgument.parse? w).isNone,
    fun w hw => isWord_of_mem_words (List.mem_of_mem_filter hw), partitionArguments_fst _, ?_⟩
  dsimp only
  rw [String.toList_ofList, trim_joined_arguments]

/-! ## Which candidate is split off -/

/-- Nothing is split off exactly if the first argument starts with no candidate. -/
theorem chop?_eq_none_iff : x.chop? candidates = none ↔
    ∀ first ∈ x.arguments.head?, ∀ c ∈ candidates, ¬StartsWith c.toList first.toList := by
  unfold chop?
  cases x.arguments with
  | nil => simp
  | cons first others => simp [StartsWith]

/-- The first candidate that the first argument starts with is split off. -/
theorem chop?_of_first_match {first c : String} {others before : List String} {rest : List Char}
    (harguments : x.arguments = first :: others)
    (hbefore : ∀ b ∈ before, ¬StartsWith b.toList first.toList)
    (hstrip : stripIgnoringCase? c.toList first.toList = some rest) (after : List String) :
    x.chop? (before ++ c :: after) = some { x with
      arguments :=
        c :: (if (trim rest).isEmpty then [] else [String.ofList (trim rest)]) ++ others
      choppedText := String.ofList
        (((stripIgnoringCase? c.toList x.cleanText.toList).map trim).getD []) } := by
  unfold chop?
  rw [harguments]
  refine List.findSome?_eq_some_iff.mpr ⟨before, c, after, rfl, by rw [hstrip]; rfl, ?_⟩
  intro b hb
  simpa [StartsWith] using hbefore b hb

/-- Splitting a sub-command off a message that has just been read. If the first argument starts with
no candidate, nothing is split off. Otherwise the first such candidate becomes the first argument,
what is left of the old first argument, if anything, becomes an argument of its own, and the others
follow it. The chopped text is the new arguments behind the first, joined by single spaces, and the
rest of the invocation is as it was. -/
theorem chop?_loses_nothing (h : parse? message platform leadIns keywords consume = some x)
    (candidates : List String) :
    (x.chop? candidates = none ↔
      ∀ first ∈ x.arguments.head?, ∀ c ∈ candidates, ¬StartsWith c.toList first.toList) ∧
    ∀ first others before c after rest, x.arguments = first :: others →
      candidates = before ++ c :: after →
      (∀ b ∈ before, ¬StartsWith b.toList first.toList) →
      stripIgnoringCase? c.toList first.toList = some rest →
      let behind := (if rest = [] then [] else [String.ofList rest]) ++ others
      x.chop? candidates = some { x with
        arguments := c :: behind
        choppedText := String.intercalate " " behind } := by
  refine ⟨chop?_eq_none_iff, ?_⟩
  rintro first others before c after rest harguments rfl hbefore hstrip behind
  obtain ⟨tokens, hwords, hargs, hclean⟩ := words_of_parse? h
  obtain ⟨w, tokens, rfl⟩ : ∃ w tokens', tokens = w :: tokens' := by
    cases tokens with
    | nil => simp [harguments] at hargs
    | cons w tokens => exact ⟨w, tokens, rfl⟩
  obtain ⟨rfl, rfl⟩ : first = String.ofList w ∧ others = tokens.map String.ofList := by
    simpa [harguments] using hargs
  obtain ⟨hw, htokens⟩ := List.forall_mem_cons.mp hwords
  rw [String.toList_ofList] at hstrip
  obtain ⟨front, hfront, -⟩ := stripIgnoringCase?_eq_some_iff.mp hstrip
  have hrest : ∀ d ∈ rest, isBlank d = false := fun d hd => hw.2 d (by simp [hfront, hd])
  -- the candidate is split off the joined words as it is split off the first of them
  have hafter : ((stripIgnoringCase? c.toList x.cleanText.toList).map trim).getD [] =
      List.intercalate [' '] ((if rest = [] then [] else [rest]) ++ tokens) := by
    rw [hclean, intercalate_cons_eq_append, stripIgnoringCase?_append hstrip, Option.map_some,
      Option.getD_some, trim_rest_append hrest htokens]
  have hbehind : behind.map String.toList = (if rest = [] then [] else [rest]) ++ tokens := by
    by_cases hne : rest = [] <;> simp [behind, hne, Function.comp_def]
  have htext : String.ofList (((stripIgnoringCase? c.toList x.cleanText.toList).map trim).getD []) =
      String.intercalate " " behind := by
    refine String.toList_inj.mp ?_
    rw [hafter, String.toList_ofList, String.toList_intercalate, hbehind]
    rfl
  rw [chop?_of_first_match harguments hbefore (by rwa [String.toList_ofList]) after,
    trim_of_not_blank hrest, htext]
  simp only [List.isEmpty_iff]
  rfl

/-- A sub-command in capital letters, written directly in front of a name. -/
theorem chop?_loses_nothing_glued :
    ∃ x, parse? ".st DELhp mp" "QQ" ["."] ["st"] true = some x ∧
      x.chop? ["show", "del", "de"] = some { x with
        arguments := ["del", "hp", "mp"]
        choppedText := "hp mp" } := by
  obtain ⟨x, hx⟩ : ∃ x, parse? ".st DELhp mp" "QQ" ["."] ["st"] true = some x :=
    Option.isSome_iff_exists.mp (by decide +kernel)
  have harguments : x.arguments = ["DELhp", "mp"] := by
    have hparse : (parse? ".st DELhp mp" "QQ" ["."] ["st"] true).map arguments =
        some ["DELhp", "mp"] := by decide +kernel
    rw [hx] at hparse
    exact Option.some.inj hparse
  obtain ⟨-, hchop⟩ := chop?_loses_nothing hx ["show", "del", "de"]
  exact ⟨x, hx, hchop "DELhp" ["mp"] ["show"] "del" ["de"] "hp".toList harguments rfl
    (by decide) (by decide)⟩

end Invocation

/-! ## How far matching is complete -/

/-- A word is matched with a front that is equal to it but for case exactly if the two have as many
bytes, and they do if no character of theirs changes its width in lower case. So a first argument that
counts as equal to a word is recognised as that sub-command exactly if it has as many bytes. -/
theorem front_matched_iff_equally_long {word front : List Char}
    (h : eqIgnoringCase front word = true) :
    (∀ rest, stripIgnoringCase? word (front ++ rest) =
      if byteLength front = byteLength word then some rest else none) ∧
    ((∀ c ∈ front ++ word, keepsWidth c = true) →
      ∀ rest, stripIgnoringCase? word (front ++ rest) = some rest) ∧
    ∀ (x : Invocation) (first w : String), x.argument? 1 = some first →
      x.isArgumentAmong 1 [w] = true →
      ((x.chop? [w]).isSome = true ↔ byteLength first.toList = byteLength w.toList) := by
  refine ⟨stripIgnoringCase?_of_eqIgnoringCase h, fun hwidth rest => ?_, ?_⟩
  · rw [stripIgnoringCase?_of_eqIgnoringCase h, if_pos (byteLength_eq_of_keepsWidth h hwidth)]
  · intro x first w hfirst hamong
    have hequal : eqIgnoringCase first.toList w.toList = true := by
      simpa [Invocation.isArgumentAmong, hfirst] using hamong
    have hhead : x.arguments.head? = some first := by
      rwa [Invocation.argument?, if_neg Nat.one_ne_zero, ← List.head?_eq_getElem?] at hfirst
    have hwhole := stripIgnoringCase?_of_eqIgnoringCase hequal []
    rw [List.append_nil] at hwhole
    rw [Option.isSome_iff_ne_none, Ne, Invocation.chop?_eq_none_iff, hhead]
    by_cases hlength : byteLength first.toList = byteLength w.toList <;>
      simp [StartsWith, hwhole, hlength]

/-- An umlaut has two bytes in either case. -/
theorem front_matched_iff_equally_long_umlaut :
    eqIgnoringCase "ÄRGER".toList "ärger".toList = true ∧
      stripIgnoringCase? "ärger".toList "ÄRGER 5".toList = some " 5".toList ∧
      ∃ x, Invocation.parse? ".r ÄRGER 5" "QQ" ["."] ["r"] true = some x ∧
        x.isArgumentAmong 1 ["ärger"] = true ∧ (x.chop? ["ärger"]).isSome = true := by
  have hequal : eqIgnoringCase "ÄRGER".toList "ärger".toList = true := by decide
  obtain ⟨-, hmatched, hchop⟩ := front_matched_iff_equally_long hequal
  obtain ⟨x, hx, hfirst, hamong⟩ : ∃ x,
      Invocation.parse? ".r ÄRGER 5" "QQ" ["."] ["r"] true = some x ∧
      x.argument? 1 = some "ÄRGER" ∧ x.isArgumentAmong 1 ["ärger"] = true :=
    Invocation.exists_of_read (by decide +kernel)
  exact ⟨hequal, hmatched (by decide) " 5".toList, x, hx, hamong,
    (hchop x "ÄRGER" "ärger" hfirst hamong).mpr (by decide)⟩

/-- The Kelvin sign is `k` but for case, and a text that consists of it does not start with `k`. -/
theorem not_front_matched :
    (¬∀ word front rest : List Char, word ≠ [] → eqIgnoringCase front word = true →
      (stripIgnoringCase? word (front ++ rest)).isSome = true) ∧
    ¬∀ (x : Invocation) (w : String), x.isArgumentAmong 1 [w] = true →
      (x.chop? [w]).isSome = true := by
  constructor
  · intro hcomplete
    exact absurd (hcomplete ['k'] ['\u212A'] [] (by decide) (by decide)) (by decide)
  · intro hchops
    obtain ⟨x, -, hamong, hnone⟩ : ∃ x,
        Invocation.parse? ".r \u212A" "QQ" ["."] ["r"] true = some x ∧
        x.isArgumentAmong 1 ["k"] = true ∧ (x.chop? ["k"]).isSome = false :=
      Invocation.exists_of_read (by decide +kernel)
    rw [hchops x "k" hamong] at hnone
    exact nomatch hnone

end DiceBot
