import DiceBot.Bot.Answer
import DiceBot.Proofs.Command.AttributeEntry
import DiceBot.Proofs.Command.RoundTrip

/-!
# Lines that record attributes

The line of an attribute command whose words are made of entries (`EntryWord`). It holds no markup
and no marker, so it is read back as the command word and the words (`CommandLine.plain_ofWords`);
and unless the first word looks like a sub-command, the entries in these words are what the command
records (`Bot.attributes_ofWords`).
-/

namespace DiceBot

open Text AttributeEntry

/-- A word made of entries: it starts with a letter, holds a digit, and has no characters but
those of entries. -/
structure EntryWord (word : String) : Prop where
  chars : ∀ c ∈ word.toList, isLetter c = true ∨ c.isDigit = true ∨ isOperator c = true
  letter : ∃ c cs, word.toList = c :: cs ∧ isLetter c = true
  digit : ∃ c ∈ word.toList, c.isDigit = true

namespace EntryWord

variable {word : String} (h : EntryWord word)

include h

theorem isWord : IsWord word.toList := by
  obtain ⟨c, cs, heq, -⟩ := h.letter
  refine ⟨heq ▸ List.cons_ne_nil c cs, fun c hc => ?_⟩
  rcases h.chars c hc with hletter | hdigit | hoperator
  · exact isBlank_of_isLetter hletter
  · exact isBlank_of_isDigit hdigit
  · exact isBlank_of_isOperator hoperator

theorem parse?_eq_none : NamedArgument.parse? word.toList = none := by
  obtain ⟨c, cs, heq, hletter⟩ := h.letter
  have hfront : ['-', '-'].isPrefixOf? word.toList = none := by
    rw [heq, List.isPrefixOf?, if_neg (by simpa using (ne_of_isLetter hletter (by decide)).symm)]
  rw [NamedArgument.parse?, hfront]

end EntryWord

/-- Entries one directly behind the other make a word. -/
theorem entryWord_join {entries : List AttributeEntry} (hne : entries ≠ [])
    (h : ∀ entry ∈ entries, entry.Legible) : EntryWord (String.join (entries.map written)) := by
  obtain ⟨entry, others, rfl⟩ := List.exists_cons_of_ne_nil hne
  have hentry : entry.Legible := h entry List.mem_cons_self
  constructor
  · intro c hc
    rw [toList_join_written] at hc
    obtain ⟨source, hsource, hc⟩ := List.mem_flatMap.mp hc
    exact (h source hsource).of_mem_written hc
  · obtain ⟨c, cs, hname, hletter⟩ := hentry.exists_name_eq
    rw [toList_join_written, List.flatMap_cons, toList_written, hname]
    exact ⟨c, _, rfl, hletter⟩
  · obtain ⟨d, ds, hformula, hdigit⟩ := hentry.exists_formula_eq
    rw [toList_join_written, List.flatMap_cons, toList_written, hformula]
    exact ⟨d, by simp, hdigit⟩

theorem entryWord_written {entry : AttributeEntry} (h : entry.Legible) :
    EntryWord entry.written := by
  have hjoin : String.join ([entry].map written) = entry.written := by
    refine String.toList_inj.mp ?_
    rw [toList_join_written, List.flatMap_singleton]
  rw [← hjoin]
  exact entryWord_join (List.cons_ne_nil _ _) (by simpa using h)

namespace CommandLine

/-- The attribute command with these words. -/
def ofWords (words : List String) (separator : String) : CommandLine where
  leadIn := "."
  keyword := "st"
  separator
  tokens := words

/-- The line with these entries. -/
def recording (entries : List AttributeEntry) (separator : String) : CommandLine where
  leadIn := "."
  keyword := "st"
  separator
  tokens := entries.map AttributeEntry.written

/-- The dot leads in whatever starts with `.st`. -/
def DotLeadsIn (leadIns : List String) : Prop :=
  ∀ rest, findLeadIn? (".st".toList ++ rest) leadIns = some (".", "st".toList ++ rest)

theorem dotLeadsIn_default : DotLeadsIn [".", "。"] := fun _ => rfl

/-- The characters of such a line. -/
def isLineChar (c : Char) : Bool :=
  isLetter c || c.isDigit || AttributeEntry.isOperator c || c == ' ' || c == '.'

variable {words : List String} {separator : String}

theorem toList_body_ofWords : (ofWords words separator).body.toList =
    's' :: 't' :: (separator.toList ++ (ofWords words separator).arguments.toList) := by
  have hst : (ofWords words separator).keyword.toList = ['s', 't'] :=
    (by decide : "st".toList = _)
  rw [toList_body, hst]
  rfl

theorem toList_text_ofWords : (ofWords words separator).text.toList =
    '.' :: (ofWords words separator).body.toList := by
  have hleadIn : (ofWords words separator).leadIn.toList = ['.'] :=
    (by decide : ".".toList = _)
  rw [toList_text, hleadIn]
  rfl

theorem text_ofWords (words : List String) (separator : String) :
    (ofWords words separator).text = ".st" ++ separator ++ String.intercalate " " words := by
  refine String.toList_inj.mp ?_
  rw [toList_text_ofWords, toList_body_ofWords]
  simp [arguments, ofWords]

theorem text_recording (entries : List AttributeEntry) (separator : String) :
    (recording entries separator).text =
      ".st" ++ separator ++ String.intercalate " " (entries.map AttributeEntry.written) :=
  text_ofWords (entries.map written) separator

section Characters

variable (hseparator : separator = " " ∨ separator = "")
  (hwords : ∀ word ∈ words, EntryWord word)

include hseparator hwords

theorem isLineChar_of_mem {c : Char} (hc : c ∈ (ofWords words separator).text.toList) :
    isLineChar c = true := by
  have hfixed : ∀ c ∈ ['.', 's', 't', ' '], isLineChar c = true := by decide
  rw [toList_text_ofWords, toList_body_ofWords, List.mem_cons, List.mem_cons, List.mem_cons,
    List.mem_append, toList_arguments] at hc
  rcases hc with rfl | rfl | rfl | hc | hc
  · exact hfixed _ (by simp)
  · exact hfixed _ (by simp)
  · exact hfixed _ (by simp)
  · rcases hseparator with rfl | rfl
    · obtain rfl : c = ' ' := by simpa using hc
      exact hfixed _ (by simp)
    · exact nomatch hc
  · rcases mem_intercalate hc with hc | ⟨w, hw, hc⟩
    · obtain rfl := List.mem_singleton.mp hc
      exact hfixed _ (by simp)
    · obtain ⟨word, hword, rfl⟩ := List.mem_map.mp hw
      rcases (hwords word hword).chars c hc with h | h | h <;> simp [isLineChar, h]

theorem not_mem_text {c : Char} (hc : isLineChar c = false) :
    c ∉ (ofWords words separator).text.toList := by
  intro hmem
  rw [isLineChar_of_mem hseparator hwords hmem] at hc
  exact nomatch hc

end Characters

theorem not_startsWith_body {d : Char} (hd : d ≠ 'İ' ∧ d ≠ 'Σ') (hascii : 's' ≠ d.toLower)
    (hlower : 's' ≠ lowerChar d) (ds : List Char) :
    ¬StartsWith (d :: ds) (ofWords words separator).body.toList := by
  have hs : Char.toLower 's' = 's' ∧ lowerChar 's' = 's' := by decide
  rw [toList_body_ofWords]
  exact not_startsWith_of_head (by decide) hd (by rwa [hs.1]) (by rwa [hs.2]) _ ds

theorem plain_ofWords (platform : String) {leadIns : List String} (hleadIns : DotLeadsIn leadIns)
    (hseparator : separator = " " ∨ separator = "") (hwords : ∀ word ∈ words, EntryWord word) :
    (ofWords words separator).Plain platform leadIns HelpTopic.keywords true where
  keywords_words := by decide
  tokens_words t ht := (hwords t ht).isWord
  leadIn_ne_empty := (by decide : "." ≠ "")
  leadIn_not_blank := (by decide : startsBlank ".".toList = false)
  leadIn_first := by
    obtain ⟨-, -, hfirst⟩ := findLeadIn?_eq_some_iff.mp
      (hleadIns (separator.toList ++ (ofWords words separator).arguments.toList))
    rwa [toList_text_ofWords, toList_body_ofWords]
  keyword_mem := (by decide : "st" ∈ HelpTopic.keywords)
  keyword_ne_empty := (by decide : "st" ≠ "")
  separator_eq := by
    refine hseparator.imp_right fun heq => ⟨heq, fun w hw hstarts => ?_⟩
    -- of the keywords only two are longer, and no such line starts as they do
    have hkeywords : ∀ w ∈ HelpTopic.keywords, byteLength w.toList ≤ byteLength "st".toList ∨
        w = "roll" ∨ w = "help" := by decide
    rcases hkeywords w hw with hle | rfl | rfl
    · exact hle
    · exact absurd hstarts (not_startsWith_body (by decide) (by decide) (by decide) _)
    · exact absurd hstarts (not_startsWith_body (by decide) (by decide) (by decide) _)
  not_spelling := not_startsWith_body (by decide) (by decide) (by decide) _
  no_mention := Mention.absent_pattern platform
    (not_mem_text hseparator hwords (by decide))
    (not_mem_text hseparator hwords (by decide))
    (not_mem_text hseparator hwords (by decide))
    (not_mem_text hseparator hwords (by decide))
  no_code := InlineCode.absent_pattern (not_mem_text hseparator hwords (by decide))
  no_lineEnd h :=
    not_mem_text hseparator hwords (by decide : isLineChar '\r' = false)
      (h.mem (List.mem_cons_self ..))
  no_marker _ := RepeatMarker.unmarked_of_not_mem fun c hc => by
    have hsigns : isLineChar '#' = false ∧ isLineChar '＃' = false := by decide +kernel
    have hchar := isLineChar_of_mem hseparator hwords hc
    have hne : c ≠ '#' ∧ c ≠ '＃' :=
      ⟨fun heq => by simp [heq, hsigns.1] at hchar, fun heq => by simp [heq, hsigns.2] at hchar⟩
    simpa [RepeatMarker.isSign] using hne

end CommandLine

/-! ## The command -/

/-- The reading of such a line. -/
def wordsInvocation (words : List String) (separator platform : String) : Invocation :=
  (CommandLine.ofWords words separator).reading platform HelpTopic.keywords "st"

variable {words : List String} {separator : String}

theorem arguments_wordsInvocation (hwords : ∀ word ∈ words, EntryWord word) (platform : String) :
    (wordsInvocation words separator platform).arguments = words := by
  refine List.filter_eq_self.mpr fun t ht => ?_
  rw [(hwords t ht).parse?_eq_none, Option.isNone_none]

theorem cleanText_wordsInvocation (hwords : ∀ word ∈ words, EntryWord word) (platform : String) :
    (wordsInvocation words separator platform).cleanText = String.intercalate " " words :=
  congrArg (String.intercalate " ") (arguments_wordsInvocation hwords platform)

/-- The entries that an attribute command asks to record, unless a sub-command is meant. -/
def Invocation.entries? (x : Invocation) : Option (List AttributeEntry) :=
  let x := (x.chop? Bot.subCommands).getD x
  if x.isArgumentAmong 1 Bot.subCommands then none else some (all x.cleanText.toList)

theorem Invocation.entries?_eq (x : Invocation) : x.entries? =
    if ((x.chop? Bot.subCommands).getD x).isArgumentAmong 1 Bot.subCommands then none
    else some (all ((x.chop? Bot.subCommands).getD x).cleanText.toList) := rfl

theorem Invocation.isArgumentAmong_append (x : Invocation) (n : Nat) (words words' : List String) :
    x.isArgumentAmong n (words ++ words') =
      (x.isArgumentAmong n words || x.isArgumentAmong n words') := by
  unfold Invocation.isArgumentAmong
  cases x.argument? n with
  | none => rfl
  | some a => exact List.any_append

namespace Bot

theorem invocation?_ofWords {settings : Settings} {message : Message}
    (hleadIns : CommandLine.DotLeadsIn settings.leadIns)
    (hseparator : separator = " " ∨ separator = "") (hwords : ∀ word ∈ words, EntryWord word)
    (htext : message.text = (CommandLine.ofWords words separator).text) :
    invocation? settings message = some (wordsInvocation words separator settings.platform) := by
  have hplain := CommandLine.plain_ofWords settings.platform hleadIns hseparator hwords
  obtain ⟨command, hcommand, -, hlongest⟩ := hplain.exists_longestKeyword?
  have hst : some command = some "st" := hcommand.symm.trans (by
    show (HelpTopic.keywords.find? fun w => byteLength w.toList == byteLength "st".toList &&
      eqIgnoringCase "st".toList w.toList) = some "st"
    decide)
  obtain rfl := Option.some.inj hst
  unfold invocation?
  rw [htext, hplain.parse?_of_longest (by decide) hlongest]
  rfl

/-- A word that starts with an entry looks like a sub-command only if the name of the entry does:
the sub-command would have to hold the operator or a digit. -/
theorem startsWith_name {entry : AttributeEntry} (h : entry.Legible) {word : String}
    (hword : word ∈ subCommands) {rest : List Char}
    (hstarts : StartsWith word.toList (entry.written.toList ++ rest)) :
    StartsWith word.toList entry.name.toList := by
  rw [toList_written, List.append_assoc] at hstarts
  refine hstarts.of_append fun c hc => ?_
  have hsign : isCaseless c = true ∧ isLetter c = false := by
    obtain ⟨d, ds, hformula, hdigit⟩ := h.exists_formula_eq
    cases hoperator : entry.operator with
    | none =>
      rw [hoperator, hformula] at hc
      obtain rfl : d = c := by simpa using hc
      refine ⟨isCaseless_of_isDigit hdigit, ?_⟩
      by_contra hletter
      rw [isDigit_of_isLetter (eq_true_of_ne_false hletter)] at hdigit
      exact nomatch hdigit
    | some o =>
      rw [hoperator] at hc
      obtain rfl : o = c := by simpa using hc
      rcases isOperator_iff.mp (h.operator o hoperator) with rfl | rfl | rfl | rfl <;>
        decide
  have hletters : ∀ w ∈ subCommands, ∀ c ∈ w.toList, isLetter c = true := by decide
  refine ⟨hsign.1, fun hmem => ?_⟩
  rw [hletters word hword c hmem] at hsign
  exact nomatch hsign.2

/-- A word with a digit in it is no sub-command. -/
theorem isArgumentAmong_wordsInvocation (hwords : ∀ word ∈ words, EntryWord word)
    (platform : String) {candidates : List String}
    (hcandidates : ∀ w ∈ candidates, ∀ c ∈ w.toList, c.isDigit = false) :
    (wordsInvocation words separator platform).isArgumentAmong 1 candidates = false := by
  unfold Invocation.isArgumentAmong Invocation.argument?
  rw [arguments_wordsInvocation hwords]
  cases words with
  | nil => rfl
  | cons word words =>
    obtain ⟨d, hmem, hdigit⟩ := (hwords word List.mem_cons_self).digit
    refine List.any_eq_false.mpr fun w hw hsame => ?_
    have hd := (mem_iff_of_eqIgnoringCase (isCaseless_of_isDigit hdigit) hsame).mp hmem
    rw [hcandidates w hw d hd] at hdigit
    exact nomatch hdigit

/-- The entries in the words of a line are asked to be recorded if the first word does not look like
a sub-command. -/
theorem entries?_wordsInvocation (hwords : ∀ word ∈ words, EntryWord word)
    (hfirst : ∀ word ∈ words.head?, ∀ w ∈ subCommands, ¬StartsWith w.toList word.toList)
    (platform : String) : (wordsInvocation words separator platform).entries? =
      some (all (String.intercalate " " words).toList) := by
  have hchop : (wordsInvocation words separator platform).chop? subCommands = none := by
    unfold Invocation.chop?
    rw [arguments_wordsInvocation hwords]
    cases words with
    | nil => rfl
    | cons word words =>
      refine List.findSome?_eq_none_iff.mpr fun w hw => ?_
      have hnot := hfirst word rfl w hw
      rw [StartsWith, Bool.not_eq_true, Option.isSome_eq_false_iff, Option.isNone_iff_eq_none]
        at hnot
      rw [hnot, Option.map_none]
  rw [Invocation.entries?_eq, hchop, Option.getD_none,
    isArgumentAmong_wordsInvocation hwords platform (by decide), cleanText_wordsInvocation hwords]
  rfl

variable {δ : Type} [DiceSource δ]

/-- The entries that an attribute command asks to record are what it records. -/
theorem attributes_of_entries? {x : Invocation} {entries : List AttributeEntry}
    (h : x.entries? = some entries) (seat : Seat) : (attributes x seat : Act δ String) =
      if entries = [] then return HelpTopic.usageOf "st" else recordAttributes entries seat := by
  rw [Invocation.entries?_eq] at h
  unfold attributes
  generalize (x.chop? subCommands).getD x = y at h ⊢
  have hwords : subCommands = ["show", "list"] ++ (["del", "rm"] ++ ["clr", "clear"]) := rfl
  split at h
  · exact nomatch h
  · next hnone =>
    rw [Bool.not_eq_true, hwords, Invocation.isArgumentAmong_append,
      Invocation.isArgumentAmong_append, Bool.or_eq_false_iff, Bool.or_eq_false_iff] at hnone
    obtain ⟨hlisting, hremoval, hclearing⟩ := hnone
    obtain rfl := Option.some.inj h
    funext s
    simp only [hlisting, hremoval, hclearing, Bool.false_eq_true, if_false]
    cases all y.cleanText.toList <;> rfl

/-- The entries with single spaces between them are recorded if the first one does not look like a
sub-command. -/
theorem attributes_recording {entries : List AttributeEntry}
    (hentries : ∀ entry ∈ entries, entry.Legible)
    (hfirst : ∀ entry ∈ entries.head?, ∀ word ∈ subCommands,
      ¬StartsWith word.toList entry.name.toList) (platform : String) (seat : Seat) :
    (attributes (wordsInvocation (entries.map written) separator platform) seat : Act δ String) =
      if entries = [] then return HelpTopic.usageOf "st" else recordAttributes entries seat := by
  have hwords : ∀ word ∈ entries.map written, EntryWord word :=
    List.forall_mem_map.mpr fun entry hentry => entryWord_written (hentries entry hentry)
  refine attributes_of_entries? ?_ seat
  rw [entries?_wordsInvocation hwords, all_written hentries]
  intro word hword w hw hstarts
  cases entries with
  | nil => exact nomatch hword
  | cons entry entries =>
    obtain rfl := Option.some.inj hword
    rw [← List.append_nil entry.written.toList] at hstarts
    exact hfirst entry rfl w hw (startsWith_name (hentries entry List.mem_cons_self) hw hstarts)

end Bot

end DiceBot
