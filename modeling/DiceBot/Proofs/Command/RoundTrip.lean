import DiceBot.Proofs.Command.Reading

/-!
# Command lines that are written out

A command line is a lead-in, a keyword, a space or nothing, and words with single spaces between
them. Under the conditions of `CommandLine.Plain` such a line is read back as what it was written
from: the keyword is recognised (`exists_longestKeyword?`), and the words are its arguments
(`parse?_of_longest`).
-/

namespace DiceBot

open Text

/-- A command line in its parts. -/
structure CommandLine where
  leadIn : String
  keyword : String
  /-- What stands between the keyword and the words. -/
  separator : String
  tokens : List String

namespace CommandLine

/-- The words with single spaces between them. -/
def arguments (line : CommandLine) : String := String.intercalate " " line.tokens

/-- What is written behind the lead-in. -/
def body (line : CommandLine) : String := line.keyword ++ line.separator ++ line.arguments

/-- The line as it is written. -/
def text (line : CommandLine) : String := line.leadIn ++ line.body

/-- What is left behind the keyword when the line is trimmed. -/
def tail (line : CommandLine) : List Char :=
  if line.tokens = [] then [] else line.separator.toList ++ line.arguments.toList

/-- What a line has to be like to be read back: nothing in it is markup, the lead-in is the first
that fits, and no longer keyword than its own can be made out in it. -/
structure Plain (line : CommandLine) (platform : String) (leadIns keywords : List String)
    (consume : Bool) : Prop where
  keywords_words : ∀ w ∈ keywords, ∀ c ∈ w.toList, isBlank c = false
  tokens_words : ∀ t ∈ line.tokens, IsWord t.toList
  leadIn_ne_empty : line.leadIn ≠ ""
  leadIn_not_blank : startsBlank line.leadIn.toList = false
  leadIn_first : ∃ before after, leadIns = before ++ line.leadIn :: after ∧
    ∀ q ∈ before, q ≠ "" → ¬q.toList <+: line.text.toList
  keyword_mem : line.keyword ∈ keywords
  keyword_ne_empty : line.keyword ≠ ""
  separator_eq : line.separator = " " ∨ line.separator = "" ∧
    ∀ w ∈ keywords, StartsWith w.toList line.body.toList →
      byteLength w.toList ≤ byteLength line.keyword.toList
  not_spelling : ¬StartsWith "bot list".toList line.body.toList
  no_mention : (Mention.pattern platform).Absent line.text.toList
  no_code : InlineCode.pattern.Absent line.text.toList
  no_lineEnd : ¬['\r', '\n'] <:+: line.text.toList
  no_marker : consume = true → RepeatMarker.Unmarked line.text.toList

/-- What such a line is read as if `command` is recognised in it. -/
def reading (line : CommandLine) (platform : String) (keywords : List String) (command : String) :
    Invocation where
  command
  arguments := line.tokens.filter fun t => (NamedArgument.parse? t.toList).isNone
  named := line.tokens.filterMap fun t => NamedArgument.parse? t.toList
  mentions := []
  argumentText := line.arguments
  message := line.text
  leadIn := line.leadIn
  platform
  keywords
  spaced := line.separator = " " && !line.tokens.isEmpty
  repeatCount := 0
  cleanText := String.intercalate " "
    (line.tokens.filter fun t => (NamedArgument.parse? t.toList).isNone)

variable {line : CommandLine} {platform : String} {leadIns keywords : List String} {consume : Bool}

theorem toList_arguments (line : CommandLine) :
    line.arguments.toList = List.intercalate [' '] (line.tokens.map String.toList) :=
  String.toList_intercalate

theorem toList_body (line : CommandLine) : line.body.toList =
    line.keyword.toList ++ (line.separator.toList ++ line.arguments.toList) := by
  simp [body]

theorem toList_text (line : CommandLine) :
    line.text.toList = line.leadIn.toList ++ line.body.toList := by
  simp [text]

namespace Plain

variable (h : line.Plain platform leadIns keywords consume)

include h

theorem keyword_isWord : IsWord line.keyword.toList :=
  ⟨by simpa using h.keyword_ne_empty, h.keywords_words _ h.keyword_mem⟩

theorem separator_blank : ∀ c ∈ line.separator.toList, isBlank c = true := by
  rcases h.separator_eq with heq | ⟨heq, -⟩ <;> rw [heq] <;> decide

theorem isWord_of_mem_tokens : ∀ w ∈ line.tokens.map String.toList, IsWord w :=
  List.forall_mem_map.mpr h.tokens_words

/-! ### What trimming leaves -/

theorem trimRight_arguments :
    trimRight (line.separator.toList ++ line.arguments.toList) = line.tail := by
  unfold tail
  by_cases htokens : line.tokens = []
  · rw [if_pos htokens, toList_arguments, htokens, List.map_nil, List.intercalate_nil,
      List.append_nil]
    exact trimRight_eq_nil_iff.mpr h.separator_blank
  · obtain ⟨-, front, last, heq, hlast⟩ :=
      exists_ends_intercalate (by simpa using htokens) h.isWord_of_mem_tokens
    rw [if_neg htokens, toList_arguments, heq, ← List.append_assoc, hlast.trimRight_append]

theorem trim_text : trim line.text.toList =
    line.leadIn.toList ++ (line.keyword.toList ++ line.tail) := by
  have hleft : trimLeft line.text.toList = line.text.toList := by
    rw [toList_text]
    have hblank := h.leadIn_not_blank
    cases hleadIn : line.leadIn.toList with
    | nil => exact absurd (by simpa using hleadIn) h.leadIn_ne_empty
    | cons c cs =>
      rw [hleadIn] at hblank
      exact trimLeft_cons_of_not_blank hblank _
  rw [trim, hleft, toList_text, toList_body, ← List.append_assoc,
    h.keyword_isWord.trimRight_append_append, h.trimRight_arguments, List.append_assoc]

theorem trim_body : trim (line.keyword.toList ++ line.tail) = line.keyword.toList ++ line.tail := by
  have hright := h.keyword_isWord.trimRight_append_append [] line.tail
  have htail : trimRight line.tail = line.tail := by
    rw [← h.trimRight_arguments, trimRight_trimRight]
  rw [htail] at hright
  rw [trim, h.keyword_isWord.trimLeft_append]
  exact hright

/-- Nothing but white space at the end of the line is trimmed. -/
theorem exists_body_eq : ∃ blanks, line.body.toList = line.keyword.toList ++ line.tail ++ blanks := by
  refine ⟨(line.separator.toList ++ line.arguments.toList).rtakeWhile isBlank, ?_⟩
  rw [toList_body, ← h.trimRight_arguments, trimRight_eq_rdropWhile, List.append_assoc,
    List.rdropWhile_append_rtakeWhile]

theorem startsWith_body {word : List Char}
    (hword : StartsWith word (line.keyword.toList ++ line.tail)) :
    StartsWith word line.body.toList := by
  obtain ⟨blanks, hbody⟩ := h.exists_body_eq
  rw [hbody]
  exact hword.append blanks

theorem trimLeft_tail : trimLeft line.tail = line.arguments.toList := by
  unfold tail
  by_cases htokens : line.tokens = []
  · rw [if_pos htokens, toList_arguments, htokens]
    rfl
  · obtain ⟨⟨first, rest, heq, hfirst⟩, -⟩ :=
      exists_ends_intercalate (by simpa using htokens) h.isWord_of_mem_tokens
    rw [if_neg htokens, trimLeft_append_of_blank h.separator_blank, toList_arguments, heq,
      hfirst.trimLeft_append]

theorem startsBlank_tail :
    startsBlank line.tail = (decide (line.separator = " ") && !line.tokens.isEmpty) := by
  unfold tail
  by_cases htokens : line.tokens = []
  · rw [if_pos htokens, htokens]
    simp [startsBlank]
  · have hspaced : (!line.tokens.isEmpty) = true := by simpa using htokens
    rw [if_neg htokens, hspaced, Bool.and_true]
    rcases h.separator_eq with heq | ⟨heq, -⟩
    · rw [heq]
      rfl
    · obtain ⟨⟨first, rest, hargs, hfirst⟩, -⟩ :=
        exists_ends_intercalate (by simpa using htokens) h.isWord_of_mem_tokens
      rw [heq, toList_arguments, hargs]
      cases first with
      | nil => exact absurd rfl hfirst.1
      | cons c first => exact hfirst.2 c (by simp)

/-! ### The keyword -/

/-- No keyword that the line fits is longer than its own: a longer one would hold the space. -/
theorem byteLength_le_of_startsWith {w : String} (hw : w ∈ keywords)
    (hstarts : StartsWith w.toList (line.keyword.toList ++ line.tail)) :
    byteLength w.toList ≤ byteLength line.keyword.toList := by
  rcases h.separator_eq with hseparator | ⟨-, hlongest⟩
  · refine StartsWith.byteLength_le (hstarts.of_append fun c hc => ?_)
    have hc : c = ' ' := by
      unfold tail at hc
      split at hc
      · exact nomatch hc
      · rw [hseparator] at hc
        exact (Option.some.inj hc).symm
    subst hc
    exact ⟨isCaseless_of_isBlank (by decide),
      fun hmem => absurd (h.keywords_words w hw _ hmem) (by decide)⟩
  · exact hlongest w hw (h.startsWith_body hstarts)

/-- The keyword that is recognised is the first on the list that is as long as that of the line and
equal to it but for case. -/
theorem exists_longestKeyword? : ∃ command,
    (keywords.find? fun w => byteLength w.toList == byteLength line.keyword.toList &&
      eqIgnoringCase line.keyword.toList w.toList) = some command ∧
    IsWord command.toList ∧
    longestKeyword? (line.keyword.toList ++ line.tail) (keywords.map String.toList) =
      some (command.toList, line.tail) := by
  have hself : StartsWith line.keyword.toList (line.keyword.toList ++ line.tail) :=
    startsWith_iff.mpr ⟨line.tail, stripIgnoringCase?_self_append _ _⟩
  rcases longestKeyword?_cases (line.keyword.toList ++ line.tail) (keywords.map String.toList) with
    ⟨-, hnone⟩ | ⟨before, found, after, rest, hlist, heq, hfound, hne, hbefore, hafter⟩
  · have hkeyword := hnone _ (List.mem_map_of_mem h.keyword_mem) h.keyword_isWord.1
    rw [stripIgnoringCase?_self_append] at hkeyword
    exact nomatch hkeyword
  · obtain ⟨first, others, rfl, rfl, hothers⟩ := List.map_eq_append_iff.mp hlist
    obtain ⟨command, last, rfl, rfl, rfl⟩ := List.map_eq_cons_iff.mp hothers
    -- what is found is neither longer than the keyword of the line nor shorter, for both fit
    have hle := h.byteLength_le_of_startsWith (w := command) (by simp)
      (startsWith_iff.mpr ⟨rest, hfound⟩)
    have hge : byteLength line.keyword.toList ≤ byteLength command.toList := by
      rcases List.mem_append.mp h.keyword_mem with hmem | hmem
      · exact (hbefore _ (List.mem_map_of_mem hmem) hself).le
      · rcases List.mem_cons.mp hmem with hsame | hmem
        · rw [hsame]
        · exact hafter _ (List.mem_map_of_mem hmem) hself
    have hlength := Nat.le_antisymm hle hge
    rw [stripIgnoringCase?_of_byteLength_eq hlength.symm] at hfound
    split at hfound
    · next hsame =>
      obtain rfl := Option.some.inj hfound
      refine ⟨command, List.find?_eq_some_iff_append.mpr ⟨?_, first, last, rfl, fun w hw => ?_⟩,
        ⟨hne, h.keywords_words command (by simp)⟩, heq⟩
      · simp [hlength, hsame]
      · by_contra hfits
        obtain ⟨hwlength, hwsame⟩ : byteLength w.toList = byteLength line.keyword.toList ∧
            eqIgnoringCase line.keyword.toList w.toList = true := by simpa using hfits
        have hstarts : StartsWith w.toList (line.keyword.toList ++ line.tail) :=
          startsWith_iff.mpr ⟨line.tail, by
            rw [stripIgnoringCase?_of_byteLength_eq hwlength.symm, if_pos hwsame]⟩
        have hshorter := hbefore _ (List.mem_map_of_mem hw) hstarts
        omega
    · exact nomatch hfound

/-! ### The line as a whole -/

theorem markedText_eq : Invocation.markedText line.text platform consume =
    (line.leadIn.toList ++ (line.keyword.toList ++ line.tail), 0) := by
  have hnormal : normalizeMessage line.text.toList platform = (trim line.text.toList, []) :=
    normalizeMessage_of_plain h.no_lineEnd h.no_code h.no_mention
  unfold Invocation.markedText
  rw [hnormal, h.trim_text]
  dsimp only
  split
  · next hconsume =>
    obtain ⟨blanks, hbody⟩ := h.exists_body_eq
    have hfront : line.leadIn.toList ++ (line.keyword.toList ++ line.tail) <:+: line.text.toList := by
      rw [toList_text, hbody]
      exact ⟨[], blanks, by simp⟩
    exact RepeatMarker.take_eq_self ((h.no_marker hconsume).of_part hfront)
  · rfl

theorem findLeadIn?_eq :
    findLeadIn? (line.leadIn.toList ++ (line.keyword.toList ++ line.tail)) leadIns =
      some (line.leadIn, line.keyword.toList ++ line.tail) := by
  obtain ⟨before, after, hlist, hbefore⟩ := h.leadIn_first
  refine findLeadIn?_eq_some_iff.mpr ⟨h.leadIn_ne_empty, rfl, before, after, hlist,
    fun q hq hne hfront => hbefore q hq hne (hfront.trans ?_)⟩
  obtain ⟨blanks, hbody⟩ := h.exists_body_eq
  rw [toList_text, hbody, List.append_assoc]
  exact ⟨blanks, by simp⟩

theorem foldSpelling_eq :
    foldSpelling (trim (line.keyword.toList ++ line.tail)) foldedSpellings =
      line.keyword.toList ++ line.tail := by
  rw [h.trim_body, foldedSpellings, foldSpelling]
  split
  · next rest hrest =>
    exact absurd (h.startsWith_body (startsWith_iff.mpr ⟨rest, hrest⟩)) h.not_spelling
  · rfl

theorem splitArguments_eq : splitArguments line.arguments.toList =
    (line.tokens.filter fun t => (NamedArgument.parse? t.toList).isNone,
      line.tokens.filterMap fun t => NamedArgument.parse? t.toList) := by
  have hwords : words line.arguments.toList = line.tokens.map String.toList := by
    rw [toList_arguments]
    exact words_intercalate h.isWord_of_mem_tokens
  unfold splitArguments
  rw [hwords, Prod.ext_iff, partitionArguments_fst, partitionArguments_snd, List.filter_map,
    List.map_map, List.filterMap_map]
  have hid : String.ofList ∘ String.toList = id := funext fun t => String.ofList_toList
  rw [hid, List.map_id]
  exact ⟨rfl, rfl⟩

theorem takeWhile_arguments :
    line.arguments.toList.takeWhile (· ≠ '\n') = line.arguments.toList := by
  refine List.takeWhile_eq_self_iff.mpr fun c hc => decide_eq_true ?_
  rintro rfl
  rw [toList_arguments] at hc
  rcases mem_intercalate hc with hc | ⟨w, hw, hc⟩
  · exact absurd hc (by decide)
  · exact absurd ((h.isWord_of_mem_tokens w hw).2 _ hc) (by decide)

theorem cleanText_eq (command : String) :
    String.ofList (trim (String.intercalate " " (splitArguments line.arguments.toList).1).toList) =
      (line.reading platform keywords command).cleanText := by
  -- the positional arguments are words, so there is nothing to trim around them
  have htrim : trim (List.intercalate " ".toList ((line.tokens.filter fun t =>
      (NamedArgument.parse? t.toList).isNone).map String.toList)) = _ :=
    trim_intercalate fun w hw => by
      obtain ⟨t, ht, rfl⟩ := List.mem_map.mp hw
      exact h.tokens_words t (List.mem_of_mem_filter ht)
  rw [h.splitArguments_eq, String.toList_intercalate, htrim]
  refine String.toList_inj.mp ?_
  rw [String.toList_ofList, reading, String.toList_intercalate]
  rfl

theorem parse?_of_longest {command : String} (hcommand : IsWord command.toList)
    (hlongest : longestKeyword? (line.keyword.toList ++ line.tail) (keywords.map String.toList) =
      some (command.toList, line.tail)) :
    Invocation.parse? line.text platform leadIns keywords consume =
      some (line.reading platform keywords command) := by
  have hsplit : splitCommand? (commandBody keywords (line.keyword.toList ++ line.tail)) =
      some (command.toList, line.arguments.toList) := by
    have hspace : ∀ c ∈ (' ' :: line.tail).head?, isBlank c = true := by
      rintro c ⟨⟩
      decide
    have htail : trimLeft (' ' :: line.tail) = line.arguments.toList := by
      rw [← h.trimLeft_tail]
      exact trimLeft_append_of_blank (w := [' ']) (by decide) line.tail
    unfold commandBody
    rw [hlongest]
    dsimp only
    rw [splitCommand?_append hcommand hspace, htail, h.takeWhile_arguments]
  have hspaced : isSpacedBehind keywords (line.keyword.toList ++ line.tail) command.toList =
      (decide (line.separator = " ") && !line.tokens.isEmpty) := by
    unfold isSpacedBehind
    rw [hlongest]
    exact h.startsBlank_tail
  rw [Invocation.parse?_eq, h.markedText_eq, h.findLeadIn?_eq, Option.bind_some]
  dsimp only
  rw [h.foldSpelling_eq, hsplit, Option.map_some]
  dsimp only
  rw [hspaced, h.cleanText_eq command, h.splitArguments_eq, String.ofList_toList,
    String.ofList_toList, normalizeMessage_of_plain h.no_lineEnd h.no_code h.no_mention]
  rfl

end Plain

/-- A plain command line is read back as what it was written from: the command is the first of the
keywords that are as long as its own and equal to it but for case, the words are its positional and
named arguments in order, and the white space between keyword and words is noticed. -/
theorem parse?_text (line : CommandLine) (platform : String) (leadIns keywords : List String)
    (consume : Bool) (h : line.Plain platform leadIns keywords consume) :
    ∃ command,
      (keywords.find? fun w => byteLength w.toList == byteLength line.keyword.toList &&
        eqIgnoringCase line.keyword.toList w.toList) = some command ∧
      Invocation.parse? line.text platform leadIns keywords consume =
        some (line.reading platform keywords command) := by
  obtain ⟨command, hfirst, hcommand, hlongest⟩ := h.exists_longestKeyword?
  exact ⟨command, hfirst, h.parse?_of_longest hcommand hlongest⟩

theorem parse?_text_spaced :
    ∃ line : CommandLine, line.text = ".rd 20 --asm why" ∧
      line.Plain "QQ" [".", "。"] ["r", "RD", "rd"] true ∧
      Invocation.parse? line.text "QQ" [".", "。"] ["r", "RD", "rd"] true = some {
        command := "RD", arguments := ["20", "why"], named := [⟨"asm", none⟩], mentions := []
        argumentText := "20 --asm why", message := ".rd 20 --asm why", leadIn := "."
        platform := "QQ", keywords := ["r", "RD", "rd"], spaced := true, repeatCount := 0
        cleanText := "20 why" } := by
  have hline : (⟨".", "rd", " ", ["20", "--asm", "why"]⟩ : CommandLine).Plain "QQ" [".", "。"]
      ["r", "RD", "rd"] true := {
    keywords_words := by decide
    tokens_words := by decide
    leadIn_ne_empty := by decide
    leadIn_not_blank := by decide
    leadIn_first := ⟨[], ["。"], rfl, by simp⟩
    keyword_mem := by decide
    keyword_ne_empty := by decide
    separator_eq := .inl rfl
    not_spelling := by decide +kernel
    no_mention := by decide +kernel
    no_code := by decide +kernel
    no_lineEnd := by decide +kernel
    no_marker := by decide +kernel }
  obtain ⟨command, hfirst, hparse⟩ := parse?_text _ _ _ _ _ hline
  have hcommand : some command = some "RD" := hfirst.symm.trans (by decide +kernel)
  obtain rfl := Option.some.inj hcommand
  exact ⟨_, by decide +kernel, hline, by rw [hparse]; decide +kernel⟩

end CommandLine

end DiceBot
