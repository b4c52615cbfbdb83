import DiceBot.Proofs.Command.Reading

/-!
# Reading a message again

An invocation keeps the message, the lead-in and the keywords, so that the message can be read again
with the other treatment of repeat markers. Going back and forth loses nothing
(`rederive?_reversible`). A marker that was taken out comes back among the arguments if it stands
behind the command word (`rederive?_restores_marker`); in front of that, inside it or on a later line
it changes the reading (`not_rederive?_restores_marker`).
-/

namespace DiceBot

open Text

namespace Invocation

variable {message platform : String} {leadIns keywords : List String} {consume : Bool}
  {x y : Invocation}

/-! ## Back and forth -/

/-- To read again is to read the same message by the lead-in that was found. -/
theorem rederive?_eq_some_iff (h : parse? message platform leadIns keywords consume = some x)
    (b : Bool) : x.rederive? b = some y ↔ parse? message platform [x.leadIn] keywords b = some y := by
  obtain ⟨hmessage, hplatform, hkeywords, hmentions⟩ := source_of_parse? h
  rw [rederive?, hmessage, hplatform, hkeywords, hmentions]
  -- the mentions put back are those that reading again finds
  have hback : ∀ z, parse? message platform [x.leadIn] keywords b = some z →
      { z with mentions := (normalizeMessage message.toList platform).2 } = z := by
    intro z hz
    rw [← (source_of_parse? hz).2.2.2]
  constructor
  · intro hy
    obtain ⟨z, hz, rfl⟩ := Option.map_eq_some_iff.mp hy
    rw [hback z hz]
    exact hz
  · exact fun hy => Option.map_eq_some_iff.mpr ⟨y, hy, hback y hy⟩

/-- How a reading without its marker and the reading again with it are related is found by
computing both. -/
theorem exists_readings (message platform : String) (leadIns keywords : List String)
    (p : Invocation → Invocation → Prop) [DecidableRel p]
    (h : ((parse? message platform leadIns keywords true).any fun x =>
      (x.rederive? false).any fun y => p x y) = true) :
    ∃ x y, parse? message platform leadIns keywords true = some x ∧ x.rederive? false = some y ∧
      p x y := by
  obtain ⟨x, hx, h⟩ := (Option.any_eq_true _ _).mp h
  obtain ⟨y, hy, h⟩ := (Option.any_eq_true _ _).mp h
  exact ⟨x, y, hx, hy, of_decide_eq_true h⟩

/-- Reading a message again in the same way gives the same invocation, and so does reading it in
another way and then in the same way. -/
theorem rederive?_reversible (message platform : String) (leadIns keywords : List String)
    (a : Bool) (x : Invocation) (h : parse? message platform leadIns keywords a = some x) :
    x.rederive? a = some x ∧ ∀ b y, x.rederive? b = some y → y.rederive? a = some x := by
  have hagain := parse?_singleton h
  refine ⟨(rederive?_eq_some_iff h a).mpr hagain, fun b y hy => ?_⟩
  have hyparse := (rederive?_eq_some_iff h b).mp hy
  obtain ⟨tail, -, -, hleadIn, -⟩ := stages_of_parse? hyparse
  rw [rederive?_eq_some_iff hyparse, eq_of_findLeadIn?_singleton hleadIn]
  exact hagain

theorem rederive?_reversible_marker :
    ∃ x y, parse? ".r 3#1d6" "QQ" [".", "。"] ["r"] true = some x ∧ x.rederive? true = some x ∧
      x.rederive? false = some y ∧ y ≠ x ∧ y.rederive? true = some x := by
  obtain ⟨x, y, hx, hy, hne⟩ := exists_readings ".r 3#1d6" "QQ" [".", "。"] ["r"]
    (fun x y => y ≠ x) (by decide +kernel)
  obtain ⟨hsame, hback⟩ := rederive?_reversible _ _ _ _ _ x hx
  exact ⟨x, y, hx, hsame, hy, hne, hback false y hy⟩

/-! ## What the front of a text decides -/

/-- The first word of a text. -/
def firstWord (text : List Char) : List Char := (trimLeft text).takeWhile fun c => !isBlank c

/-- What stands behind the first word of a text. -/
def behindFirstWord (text : List Char) : List Char :=
  trimLeft ((trimLeft text).dropWhile fun c => !isBlank c)

/-- The front of a text decides which command word is read: no keyword and no spelling that the
text starts with reaches beyond the front, and the first word of what is read ends in it. -/
structure DecidedBy (keywords : List String) (front text : List Char) : Prop where
  spelling : ∀ s ∈ foldedSpellings, StartsWith s.1 (trim text) → StartsWith s.1 (trim front)
  keyword : ∀ k ∈ keywords, k ≠ "" →
    StartsWith k.toList (foldSpelling (trim text) foldedSpellings) →
      StartsWith k.toList (foldSpelling (trim front) foldedSpellings)
  word : ∃ c ∈ trimLeft (commandBody keywords (foldSpelling (trimLeft front) foldedSpellings)),
    isBlank c = true

theorem foldSpelling_append {spellings : List (List Char × List Char)} {front more : List Char}
    (h : ∀ s ∈ spellings, StartsWith s.1 (front ++ more) → StartsWith s.1 front) :
    foldSpelling (front ++ more) spellings = foldSpelling front spellings ++ more := by
  induction spellings with
  | nil => rfl
  | cons s spellings ih =>
    obtain ⟨hs, hspellings⟩ := List.forall_mem_cons.mp h
    rw [foldSpelling, foldSpelling, stripIgnoringCase?_append_of_startsWith hs]
    cases stripIgnoringCase? s.1 front with
    | some tail => exact (List.append_assoc s.2 tail more).symm
    | none => exact ih hspellings

theorem commandBody_append {keywords : List String} {front more : List Char}
    (h : ∀ k ∈ keywords, k ≠ "" → StartsWith k.toList (front ++ more) →
      StartsWith k.toList front) :
    commandBody keywords (front ++ more) = commandBody keywords front ++ more := by
  have hlists : ∀ w ∈ keywords.map String.toList, w ≠ [] → StartsWith w (front ++ more) →
      StartsWith w front := by
    intro w hw hne
    obtain ⟨k, hk, rfl⟩ := List.mem_map.mp hw
    exact h k hk fun hempty => hne (by rw [hempty]; rfl)
  unfold commandBody
  rw [longestKeyword?_append hlists]
  cases longestKeyword? front (keywords.map String.toList) with
  | none => rfl
  | some found => simp

theorem splitCommand?_eq_some {text command line : List Char}
    (h : splitCommand? text = some (command, line)) :
    command = firstWord text ∧ line = (behindFirstWord text).takeWhile (· ≠ '\n') := by
  have hdrop : (trimLeft text).drop (firstWord text).length =
      (trimLeft text).dropWhile fun c => !isBlank c := by
    conv_lhs => rw [← List.takeWhile_append_dropWhile (p := fun c => !isBlank c) (l := trimLeft text)]
    exact List.drop_left
  unfold splitCommand? at h
  dsimp only at h
  split at h
  · exact nomatch h
  · obtain ⟨rfl, rfl⟩ := Prod.mk.inj (Option.some.inj h)
    exact ⟨rfl, congrArg (fun rest => (trimLeft rest).takeWhile (· ≠ '\n')) hdrop⟩

/-- A word that ends in the front of a text is its first word whatever follows the front. -/
theorem firstWord_append {front : List Char} (h : ∃ c ∈ trimLeft front, isBlank c = true)
    (more : List Char) : firstWord (front ++ more) = firstWord front := by
  obtain ⟨c, hc, hblank⟩ := h
  unfold firstWord
  rw [Text.trimLeft_append (List.ne_nil_of_mem hc), List.takeWhile_append, if_neg]
  intro hlength
  have hall := List.takeWhile_eq_self_iff.mp ((List.takeWhile_prefix _).eq_of_length hlength) c hc
  simp [hblank] at hall

theorem firstWord_append_of_blank {more : List Char} (h : ∀ c ∈ more, isBlank c = true)
    (front : List Char) : firstWord (front ++ more) = firstWord front := by
  have hmore : more.takeWhile (fun c => !isBlank c) = [] := by
    cases more with
    | nil => rfl
    | cons c more => simp [h c]
  unfold firstWord
  by_cases hfront : trimLeft front = []
  · rw [trimLeft_append_of_blank (trimLeft_eq_nil_iff.mp hfront), hfront,
      trimLeft_eq_nil_iff.mpr h]
  · rw [Text.trimLeft_append hfront, List.takeWhile_append, hmore]
    split
    · next hlength =>
      rw [List.append_nil]
      exact ((List.takeWhile_prefix _).eq_of_length hlength).symm
    · rfl

theorem behindFirstWord_append {front word : List Char} (h : ∃ c ∈ trimLeft front, isBlank c = true)
    (hword : IsWord word) (more : List Char) :
    behindFirstWord (front ++ (word ++ more)) = behindFirstWord front ++ (word ++ more) := by
  obtain ⟨c, hc, hblank⟩ := h
  unfold behindFirstWord
  rw [Text.trimLeft_append (List.ne_nil_of_mem hc), List.dropWhile_append, if_neg,
    hword.trimLeft_append_append]
  intro hnil
  have hall := List.dropWhile_eq_nil_iff.mp (List.isEmpty_iff.mp hnil) c hc
  simp [hblank] at hall

theorem commandBody_nil (keywords : List String) : commandBody keywords [] = [] := by
  unfold commandBody
  rcases longestKeyword?_cases [] (keywords.map String.toList) with ⟨hnone, -⟩ |
      ⟨-, found, -, rest, -, -, hfound, hne, -⟩
  · rw [hnone]
  · obtain ⟨front, hnil, hlength, -⟩ := stripIgnoringCase?_eq_some_iff.mp hfound
    obtain ⟨rfl, -⟩ := List.append_eq_nil_iff.mp hnil.symm
    exact absurd hlength (Nat.ne_of_lt (byteLength_pos hne))

namespace DecidedBy

variable {front text more : List Char}

theorem trimLeft_ne_nil (h : DecidedBy keywords front text) : trimLeft front ≠ [] := by
  intro hnil
  obtain ⟨c, hc, -⟩ := h.word
  have hfold : foldSpelling [] foldedSpellings = [] := by decide
  rw [hnil, hfold, commandBody_nil] at hc
  exact nomatch hc

theorem commandBody_eq (h : DecidedBy keywords front text)
    (htext : trim text = trimLeft front ++ more) :
    commandBody keywords (foldSpelling (trim text) foldedSpellings) =
      commandBody keywords (foldSpelling (trimLeft front) foldedSpellings) ++ more ∧
    ∃ blanks, (∀ c ∈ blanks, isBlank c = true) ∧
      commandBody keywords (foldSpelling (trimLeft front) foldedSpellings) =
        commandBody keywords (foldSpelling (trim front) foldedSpellings) ++ blanks := by
  obtain ⟨hspelling, hkeyword, -⟩ := h
  obtain ⟨blanks, hfront, hblanks⟩ : ∃ blanks, trimLeft front = trim front ++ blanks ∧
      ∀ c ∈ blanks, isBlank c = true :=
    ⟨(trimLeft front).rtakeWhile isBlank, List.rdropWhile_append_rtakeWhile.symm,
      fun c => List.mem_rtakeWhile_imp⟩
  rw [htext, hfront] at hspelling hkeyword
  rw [htext, hfront]
  -- a spelling or keyword that the longer text starts with is one that the trimmed front starts with
  have hfold : foldSpelling (trim front ++ blanks) foldedSpellings =
      foldSpelling (trim front) foldedSpellings ++ blanks :=
    foldSpelling_append fun s hs hstarts => hspelling s hs (hstarts.append more)
  have hfoldMore : foldSpelling (trim front ++ blanks ++ more) foldedSpellings =
      foldSpelling (trim front) foldedSpellings ++ blanks ++ more := by
    rw [foldSpelling_append fun s hs hstarts => (hspelling s hs hstarts).append blanks, hfold]
  rw [hfoldMore] at hkeyword ⊢
  rw [hfold]
  refine ⟨?_, blanks, hblanks, ?_⟩
  · exact commandBody_append fun k hk hne hstarts => (hkeyword k hk hne hstarts).append blanks
  · exact commandBody_append fun k hk hne hstarts => hkeyword k hk hne (hstarts.append more)

end DecidedBy

/-! ## Markers that come back -/

/-- What is read in front of a marker as the beginning of the arguments. -/
def argumentsBefore (keywords : List String) (front : List Char) : List Char :=
  behindFirstWord (commandBody keywords (foldSpelling (trimLeft front) foldedSpellings))

/-- A marker with what stands around it up to the nearest white space. -/
def wordAround (before marker after : List Char) : List Char :=
  before.rtakeWhile (fun c => !isBlank c) ++ marker ++ after.takeWhile fun c => !isBlank c

theorem wordAround_mem_words {marker : List Char} (h : IsWord marker) (before after : List Char) :
    wordAround before marker after ∈ words (before ++ marker ++ after) := by
  have hsplit : before ++ marker ++ after =
      before.rdropWhile (fun c => !isBlank c) ++ wordAround before marker after ++
        after.dropWhile fun c => !isBlank c := by
    unfold wordAround
    conv_lhs =>
      rw [← List.rdropWhile_append_rtakeWhile (p := fun c => !isBlank c) (l := before),
        ← List.takeWhile_append_dropWhile (p := fun c => !isBlank c) (l := after)]
    simp only [List.append_assoc]
  have hword : IsWord (wordAround before marker after) := by
    refine ⟨by simp [wordAround, h.1], fun c hc => ?_⟩
    simp only [wordAround, List.mem_append] at hc
    rcases hc with (hc | hc) | hc
    · simpa using List.mem_rtakeWhile_imp hc
    · exact h.2 c hc
    · simpa using List.mem_takeWhile_imp hc
  rw [hsplit]
  refine mem_words hword (fun c hc => ?_) fun c hc => ?_
  · obtain ⟨hne, rfl⟩ := List.mem_getLast?_eq_getLast hc
    simpa using List.rdropWhile_last_not _ before hne
  · have hhead := List.head?_dropWhile_not (fun c => !isBlank c) after
    rw [Option.mem_def.mp hc] at hhead
    simpa using hhead

/-- A word of the arguments that is not a named argument stands in the clean text. -/
theorem infix_cleanText {line w : List Char} (hmem : w ∈ words line)
    (hpositional : NamedArgument.parse? w = none) :
    w <:+: trim (String.intercalate " " (splitArguments line).1).toList := by
  rw [trim_joined_arguments]
  exact infix_intercalate (List.mem_filter.mpr ⟨hmem, by rw [hpositional]; rfl⟩) _

/-- Where the front decides the command word, a word behind it makes no difference to the command
and stands among the arguments. -/
theorem split_of_decided {front marker after command command' line line' : List Char}
    (hmarker : IsWord marker) (hafter : trimRight after = after)
    (hout : DecidedBy keywords front (front ++ after))
    (hin : DecidedBy keywords front (front ++ marker ++ after))
    (h : splitCommand? (commandBody keywords
      (foldSpelling (trim (front ++ after)) foldedSpellings)) = some (command, line))
    (h' : splitCommand? (commandBody keywords
      (foldSpelling (trim (front ++ marker ++ after)) foldedSpellings)) = some (command', line')) :
    command' = command ∧
      line' = (argumentsBefore keywords front ++ (marker ++ after)).takeWhile (· ≠ '\n') := by
  have htrimIn : trim (front ++ marker ++ after) = trimLeft front ++ (marker ++ after) := by
    rw [trim, List.append_assoc, hmarker.trimLeft_append_append, ← List.append_assoc,
      hmarker.trimRight_append_append, hafter, List.append_assoc]
  obtain ⟨hbodyIn, blanks, hblanks, hbody⟩ := hin.commandBody_eq htrimIn
  obtain ⟨rfl, -⟩ := splitCommand?_eq_some h
  obtain ⟨rfl, rfl⟩ := splitCommand?_eq_some h'
  rw [hbodyIn, firstWord_append hin.word, behindFirstWord_append hin.word hmarker]
  refine ⟨?_, rfl⟩
  by_cases hempty : after = []
  · -- nothing is left behind the front, and the white space at its end is trimmed
    rw [hempty, List.append_nil, hbody, firstWord_append_of_blank hblanks]
  · have htrimOut : trim (front ++ after) = trimLeft front ++ after := by
      rw [trim, Text.trimLeft_append hout.trimLeft_ne_nil, Text.trimRight_append (by rwa [hafter]),
        hafter]
    rw [(hout.commandBody_eq htrimOut).1, firstWord_append hout.word]

/-- A marker is taken out of a text between what stands before it and what stands behind. -/
structure TakesOut (text before marker after : List Char) (count : Nat) : Prop where
  text_eq : text = before ++ marker ++ after
  isMarker : RepeatMarker.IsMarker marker count
  take_eq : RepeatMarker.take text = (before ++ after, count)

/-- A message that was read with a repeat marker taken out is read again with the marker left in.
The count is then 0. If the marker stands behind the lead-in and what stands between them decides
the command word with and without it, the command is the same; if moreover no line ends between the
command word and the marker, the marker is back in the text of the arguments, and in the clean text
unless it belongs to a named argument. -/
theorem rederive?_restores_marker (message platform : String) (leadIns keywords : List String)
    (x y : Invocation) (h : parse? message platform leadIns keywords true = some x)
    (hcount : x.repeatCount ≠ 0) (hy : x.rederive? false = some y) :
    y.repeatCount = 0 ∧
    (∃ before marker after, TakesOut (normalizeMessage message.toList platform).1
      before marker after x.repeatCount) ∧
    ∀ front marker after, TakesOut (normalizeMessage message.toList platform).1
        (x.leadIn.toList ++ front) marker after x.repeatCount →
      DecidedBy keywords front (front ++ after) →
      DecidedBy keywords front (front ++ marker ++ after) →
      y.command = x.command ∧
      ('\n' ∉ argumentsBefore keywords front →
        y.argumentText.toList =
          argumentsBefore keywords front ++ marker ++ after.takeWhile (· ≠ '\n') ∧
        (NamedArgument.parse? (wordAround (argumentsBefore keywords front) marker
            (after.takeWhile (· ≠ '\n'))) = none →
          marker <:+: y.cleanText.toList)) := by
  obtain ⟨tail, command, line, hleadIn, hsplit, hcommand, -, -, hrepeat⟩ := stages_of_parse? h
  obtain ⟨tail', command', line', hleadIn', hsplit', hcommand', hargument, hclean, hrepeat'⟩ :=
    stages_of_parse? ((rederive?_eq_some_iff h false).mp hy)
  have htrimmed := trimRight_normalizeMessage message.toList platform
  unfold markedText at hleadIn hrepeat hleadIn' hrepeat'
  simp only [if_true, Bool.false_eq_true, if_false] at hleadIn hrepeat hleadIn' hrepeat'
  generalize (normalizeMessage message.toList platform).1 = text at *
  -- a count other than 0 shows that a marker was found and taken out
  refine ⟨hrepeat', ?_, ?_⟩
  · rcases RepeatMarker.take_cases text with hnone |
        ⟨before, marker, after, count, htext, hmarker, htake⟩
    · rw [hnone] at hrepeat
      exact absurd hrepeat hcount
    · rw [htake] at hrepeat
      exact ⟨before, marker, after, htext, hrepeat ▸ hmarker, hrepeat ▸ htake⟩
  · rintro front marker after ⟨rfl, hmarker, htake⟩ hout hin
    have hword := hmarker.isWord
    have hafter : trimRight after = after := by
      rw [hword.trimRight_append_append] at htrimmed
      exact List.append_cancel_left htrimmed
    -- the two readings go on behind the same lead-in, one without the marker and one with it
    have htail : tail = front ++ after := by
      obtain ⟨-, heq, -⟩ := findLeadIn?_eq_some_iff.mp hleadIn
      rw [htake, List.append_assoc] at heq
      exact (List.append_cancel_left heq).symm
    have htail' : tail' = front ++ marker ++ after := by
      obtain ⟨-, heq, -⟩ := findLeadIn?_eq_some_iff.mp hleadIn'
      rw [eq_of_findLeadIn?_singleton hleadIn', List.append_assoc, List.append_assoc,
        ← List.append_assoc front] at heq
      exact (List.append_cancel_left heq).symm
    rw [htail] at hsplit
    rw [htail'] at hsplit'
    obtain ⟨rfl, rfl⟩ := split_of_decided hword hafter hout hin hsplit hsplit'
    refine ⟨hcommand'.trans hcommand.symm, fun hline => ?_⟩
    have hall : ∀ c ∈ argumentsBefore keywords front ++ marker, decide (c ≠ '\n') = true := by
      intro c hc
      refine decide_eq_true ?_
      rintro rfl
      rcases List.mem_append.mp hc with hc | hc
      · exact hline hc
      · exact absurd (hword.2 _ hc) (by decide)
    rw [← List.append_assoc, List.takeWhile_append_of_pos hall] at hargument hclean
    rw [hargument, hclean, String.toList_ofList, String.toList_ofList]
    refine ⟨rfl, fun hpositional => ?_⟩
    have hmarkerWord : marker <:+: wordAround (argumentsBefore keywords front) marker
        (after.takeWhile (· ≠ '\n')) := ⟨_, _, rfl⟩
    exact hmarkerWord.trans (infix_cleanText (wordAround_mem_words hword _ _) hpositional)

theorem rederive?_restores_marker_argument :
    ∃ x y, parse? ".r 3#1d6" "QQ" [".", "。"] ["r"] true = some x ∧ x.repeatCount ≠ 0 ∧
      x.rederive? false = some y ∧ y.repeatCount = 0 ∧ y.command = x.command ∧
      ['3', '#'] <:+: y.cleanText.toList := by
  obtain ⟨x, y, hx, hy, ⟨hcount, hleadIn⟩, hthree⟩ := exists_readings ".r 3#1d6" "QQ"
    [".", "。"] ["r"] (fun x _ => (x.repeatCount ≠ 0 ∧ x.leadIn = ".") ∧ x.repeatCount = 3)
    (by decide +kernel)
  obtain ⟨hzero, -, hrest⟩ := rederive?_restores_marker _ _ _ _ x y hx hcount hy
  obtain ⟨hcommand, hmarker⟩ := hrest "r ".toList "3#".toList "1d6".toList
    ⟨by rw [hleadIn]; decide +kernel, ⟨['3'], '#', rfl, by simp, by decide, rfl, hthree⟩,
      by rw [hleadIn, hthree]; decide +kernel⟩
    ⟨by decide +kernel, by decide +kernel, List.any_eq_true.mp (by decide +kernel)⟩
    ⟨by decide +kernel, by decide +kernel, List.any_eq_true.mp (by decide +kernel)⟩
  exact ⟨x, y, hx, hcount, hy, hzero, hcommand, (hmarker (by decide +kernel)).2 (by decide +kernel)⟩

/-- A marker in front of the command word becomes part of it, one in a named argument is not in the
clean text, and neither is one on a later line. -/
theorem not_rederive?_restores_marker :
    (∃ x y, parse? ".3#r 1d6" "QQ" ["."] ["r"] true = some x ∧ x.rederive? false = some y ∧
      x.repeatCount ≠ 0 ∧ y.command ≠ x.command) ∧
    (∃ x y, parse? ".r --a=3#b" "QQ" ["."] ["r"] true = some x ∧ x.rederive? false = some y ∧
      x.repeatCount ≠ 0 ∧ ¬['3', '#'] <:+: y.cleanText.toList) ∧
    ∃ x y, parse? ".r 1d6\n3#1d6" "QQ" ["."] ["r"] true = some x ∧ x.rederive? false = some y ∧
      x.repeatCount ≠ 0 ∧ ¬['3', '#'] <:+: y.cleanText.toList :=
  ⟨exists_readings _ _ _ _ _ (by decide +kernel), exists_readings _ _ _ _ _ (by decide +kernel),
    exists_readings _ _ _ _ _ (by decide +kernel)⟩

end Invocation

end DiceBot
