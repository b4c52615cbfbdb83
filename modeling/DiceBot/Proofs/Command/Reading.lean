import Mathlib.Data.List.Chain
import DiceBot.Command.Invocation
import DiceBot.Proofs.Command.Keyword
import DiceBot.Proofs.Markup.Occurrences
import DiceBot.Proofs.Text.Words

/-!
# How a message is read

A message is read in stages, and each stage is described here by what it does to a text: markup and
the white space around are taken off (`normalizeMessage_of_plain`), then the first repeat marker
(`RepeatMarker.take_cases`), then the lead-in (`findLeadIn?_eq_some_iff`), and what is left is split
into the command word and the line of its arguments (`splitCommand?_append`). A message is a command
if every stage has a result (`Invocation.parse?_eq`).
-/

namespace DiceBot

open Text

/-! ## Markup -/

theorem unifyLineEnds_eq_self {cs : List Char} (h : ¬['\r', '\n'] <:+: cs) :
    unifyLineEnds cs = cs := by
  induction cs with
  | nil => rfl
  | cons c cs ih =>
    have hcs : unifyLineEnds cs = cs := ih fun hcs => h (hcs.trans (List.suffix_cons c cs).isInfix)
    unfold unifyLineEnds
    split
    · exact absurd (List.prefix_append ['\r', '\n'] _).isInfix h
    · rw [hcs]

/-- A message without line ends of two characters, codes and mentions is only trimmed. -/
theorem normalizeMessage_of_plain {message : List Char} {platform : String}
    (hends : ¬['\r', '\n'] <:+: message) (hcodes : InlineCode.pattern.Absent message)
    (hmentions : (Mention.pattern platform).Absent message) :
    normalizeMessage message platform = (trim message, []) := by
  have hunquoted : InlineCode.strip ['r', 'e', 'p', 'l', 'y'] (unifyLineEnds message) = message := by
    rw [unifyLineEnds_eq_self hends]
    exact hcodes.map_eq_self _
  simp only [normalizeMessage, hunquoted, Mention.extract_of_absent hmentions]

theorem trimRight_normalizeMessage (message : List Char) (platform : String) :
    trimRight (normalizeMessage message platform).1 = (normalizeMessage message platform).1 := by
  unfold normalizeMessage
  dsimp only
  rw [trim, trimRight_trimRight]

/-! ## Repeat markers -/

namespace RepeatMarker

/-- A repeat marker: ASCII digits for the count, and then a sign. -/
def IsMarker (marker : List Char) (count : Nat) : Prop :=
  ∃ digits sign, marker = digits ++ [sign] ∧ digits ≠ [] ∧ (∀ d ∈ digits, d.isDigit = true) ∧
    isSign sign = true ∧ count = countOf digits

theorem IsMarker.isWord {marker : List Char} {count : Nat} (h : IsMarker marker count) :
    IsWord marker := by
  obtain ⟨digits, sign, rfl, -, hdigits, hsign, -⟩ := h
  have hblank : isBlank sign = false := by
    rcases Bool.or_eq_true_iff.mp hsign with hsign | hsign <;> rw [beq_iff_eq.mp hsign] <;> decide
  refine ⟨by simp, fun c hc => ?_⟩
  rcases List.mem_append.mp hc with hc | hc
  · exact isBlank_of_isDigit (hdigits c hc)
  · rw [List.mem_singleton.mp hc]
    exact hblank

theorem takeAfter_cases (digits text : List Char) (hdigits : ∀ d ∈ digits, d.isDigit = true) :
    takeAfter digits text = (digits.reverse ++ text, 0) ∨
    ∃ before marker after count, digits.reverse ++ text = before ++ marker ++ after ∧
      IsMarker marker count ∧ takeAfter digits text = (before ++ after, count) := by
  induction text generalizing digits with
  | nil => exact .inl (by rw [takeAfter, List.append_nil])
  | cons c text ih =>
    rw [takeAfter]
    split
    · next hc =>
      -- one more digit of the run
      have hrun := ih (c :: digits) (List.forall_mem_cons.mpr ⟨hc, hdigits⟩)
      simpa only [List.reverse_cons, List.append_assoc, List.singleton_append] using hrun
    · split
      · next hsign =>
        obtain ⟨hsign, hne⟩ := Bool.and_eq_true_iff.mp hsign
        exact .inr ⟨[], digits.reverse ++ [c], text, countOf digits.reverse, by simp,
          ⟨digits.reverse, c, rfl, by simpa using hne, by simpa using hdigits, hsign, rfl⟩, rfl⟩
      · rcases ih [] (by simp) with heq |
            ⟨before, marker, after, count, htext, hmarker, heq⟩
        · exact .inl (by rw [heq]; rfl)
        · refine .inr ⟨digits.reverse ++ c :: before, marker, after, count, ?_, hmarker, ?_⟩
          · have htext' : text = before ++ marker ++ after := htext
            rw [htext']
            simp
          · rw [heq]
            simp

theorem take_cases (text : List Char) :
    take text = (text, 0) ∨
    ∃ before marker after count, text = before ++ marker ++ after ∧ IsMarker marker count ∧
      take text = (before ++ after, count) :=
  takeAfter_cases [] text (by simp)

/-- No sign stands directly behind a digit. -/
def Unmarked (text : List Char) : Prop :=
  text.IsChain fun d s => ¬(d.isDigit = true ∧ isSign s = true)

instance (text : List Char) : Decidable (Unmarked text) :=
  inferInstanceAs (Decidable (List.IsChain _ _))

theorem Unmarked.of_part {part text : List Char} (h : Unmarked text) (hpart : part <:+: text) :
    Unmarked part :=
  List.IsChain.infix h hpart

theorem unmarked_of_not_mem {text : List Char} (hsign : ∀ c ∈ text, isSign c = false) :
    Unmarked text := by
  refine (List.pairwise_of_forall_mem_list fun d _ s hs h => ?_).isChain
  rw [hsign s hs] at h
  exact nomatch h.2

theorem take_eq_self {text : List Char} (h : Unmarked text) : take text = (text, 0) := by
  rcases take_cases text with heq | ⟨before, marker, after, count, rfl, hmarker, -⟩
  · exact heq
  · obtain ⟨digits, sign, rfl, hne, hdigits, hsign, -⟩ := hmarker
    obtain ⟨front, d, rfl⟩ := (List.eq_nil_or_concat digits).resolve_left hne
    have hd : d.isDigit = true := hdigits d (by simp)
    have hpair : [d, sign] <:+: before ++ (front.concat d ++ [sign]) ++ after :=
      ⟨before ++ front, after, by simp⟩
    have hapart : ¬(d.isDigit = true ∧ isSign sign = true) := by
      simpa [Unmarked] using h.of_part hpair
    exact absurd ⟨hd, hsign⟩ hapart

end RepeatMarker

/-! ## Lead-ins -/

theorem findLeadIn?_cons (text : List Char) (p : String) (leadIns : List String) :
    findLeadIn? text (p :: leadIns) =
      if p ≠ "" ∧ p.toList <+: text then some (p, text.drop p.toList.length)
      else findLeadIn? text leadIns := by
  rw [findLeadIn?.eq_def]
  dsimp only
  split
  · next tail htail =>
    obtain rfl := List.append_eq_of_isPrefixOf?_eq_some htail
    by_cases hp : p = ""
    · rw [if_pos (by rw [hp]; rfl), if_neg fun h => h.1 hp]
    · rw [if_neg (by simpa using hp), if_pos ⟨hp, List.prefix_append _ _⟩, List.drop_left]
  · next hnone =>
    refine (if_neg ?_).symm
    rintro ⟨-, tail, rfl⟩
    rw [List.isPrefixOf?_eq_some_iff_append_eq.mpr rfl] at hnone
    exact nomatch hnone

/-- The lead-in is the first one on the list that is not empty and that the text starts with. -/
theorem findLeadIn?_eq_some_iff {text rest : List Char} {leadIns : List String} {leadIn : String} :
    findLeadIn? text leadIns = some (leadIn, rest) ↔
      leadIn ≠ "" ∧ text = leadIn.toList ++ rest ∧
        ∃ before after, leadIns = before ++ leadIn :: after ∧
          ∀ p ∈ before, p ≠ "" → ¬p.toList <+: text := by
  have hfind : findLeadIn? text leadIns =
      (leadIns.find? fun p => p ≠ "" ∧ p.toList <+: text).map fun p =>
        (p, text.drop p.toList.length) := by
    induction leadIns with
    | nil => rfl
    | cons p leadIns ih =>
      rw [findLeadIn?_cons, List.find?_cons, ih]
      by_cases hp : p ≠ "" ∧ p.toList <+: text <;> simp [hp]
  rw [hfind, Option.map_eq_some_iff]
  constructor
  · rintro ⟨p, hp, heq⟩
    obtain ⟨rfl, rfl⟩ := Prod.mk.inj heq
    obtain ⟨hfront, before, after, hlist, hbefore⟩ := List.find?_eq_some_iff_append.mp hp
    obtain ⟨hne, rest, rfl⟩ := of_decide_eq_true hfront
    exact ⟨hne, by rw [List.drop_left], before, after, hlist,
      fun q hq hqne hq' => by simpa [hqne, hq'] using hbefore q hq⟩
  · rintro ⟨hne, rfl, before, after, rfl, hbefore⟩
    refine ⟨leadIn, List.find?_eq_some_iff_append.mpr ⟨?_, before, after, rfl, ?_⟩, ?_⟩
    · exact decide_eq_true ⟨hne, List.prefix_append _ _⟩
    · intro p hp
      rw [decide_eq_false fun h => hbefore p hp h.1 h.2]
      rfl
    · rw [List.drop_left]

theorem findLeadIn?_singleton {text rest : List Char} {leadIns : List String} {leadIn : String}
    (h : findLeadIn? text leadIns = some (leadIn, rest)) :
    findLeadIn? text [leadIn] = some (leadIn, rest) := by
  obtain ⟨hne, htext, -⟩ := findLeadIn?_eq_some_iff.mp h
  exact findLeadIn?_eq_some_iff.mpr ⟨hne, htext, [], [], rfl, by simp⟩

theorem eq_of_findLeadIn?_singleton {text rest : List Char} {p leadIn : String}
    (h : findLeadIn? text [p] = some (leadIn, rest)) : leadIn = p := by
  obtain ⟨-, -, before, after, hlist, -⟩ := findLeadIn?_eq_some_iff.mp h
  have hmem : leadIn ∈ [p] := hlist ▸ List.mem_append_right before List.mem_cons_self
  exact List.mem_singleton.mp hmem

/-! ## The command word and its arguments -/

/-- The text with the keyword that it starts with spelled as the list has it and a space behind. -/
def commandBody (keywords : List String) (text : List Char) : List Char :=
  match longestKeyword? text (keywords.map String.toList) with
  | some (keyword, rest) => keyword ++ ' ' :: rest
  | none => text

/-- Does white space stand behind the command word? -/
def isSpacedBehind (keywords : List String) (text command : List Char) : Bool :=
  match longestKeyword? text (keywords.map String.toList) with
  | some (_, rest) => startsBlank rest
  | none => startsBlank ((trimLeft (commandBody keywords text)).drop command.length)

/-- A word, then nothing or white space: the word is the command, and the arguments are what follows
on the line on which they start. -/
theorem splitCommand?_append {word rest : List Char} (hword : IsWord word)
    (hrest : ∀ c ∈ rest.head?, isBlank c = true) :
    splitCommand? (word ++ rest) = some (word, (trimLeft rest).takeWhile (· ≠ '\n')) := by
  unfold splitCommand?
  simp only [hword.trimLeft_append, hword.takeWhile_append hrest, List.drop_left]
  exact if_neg (by simpa using hword.1)

/-- The positional arguments are the words that are not named arguments. -/
theorem partitionArguments_fst (tokens : List (List Char)) :
    (partitionArguments tokens).1 =
      (tokens.filter fun w => (NamedArgument.parse? w).isNone).map String.ofList := by
  induction tokens with
  | nil => rfl
  | cons w tokens ih =>
    rw [partitionArguments]
    cases hw : NamedArgument.parse? w <;> simp [hw, ih]

theorem partitionArguments_snd (tokens : List (List Char)) :
    (partitionArguments tokens).2 = tokens.filterMap NamedArgument.parse? := by
  induction tokens with
  | nil => rfl
  | cons w tokens ih =>
    rw [partitionArguments]
    cases hw : NamedArgument.parse? w <;> simp [hw, ih]

theorem trim_joined_arguments (line : List Char) :
    trim (String.intercalate " " (splitArguments line).1).toList =
      List.intercalate [' '] ((words line).filter fun w => (NamedArgument.parse? w).isNone) := by
  have hjoined : (String.intercalate " " (splitArguments line).1).toList =
      List.intercalate [' '] ((words line).filter fun w => (NamedArgument.parse? w).isNone) := by
    rw [String.toList_intercalate, splitArguments, partitionArguments_fst, List.map_map]
    have hid : String.toList ∘ String.ofList = id := funext fun w => String.toList_ofList
    rw [hid, List.map_id]
    rfl
  rw [hjoined]
  exact trim_intercalate fun w hw => isWord_of_mem_words (List.mem_of_mem_filter hw)

/-! ## All stages -/

namespace Invocation

variable {message platform : String} {leadIns keywords : List String} {consume : Bool}
  {x : Invocation}

/-- The text in which the lead-in is looked for, and the repeat count taken out of it. -/
def markedText (message platform : String) (consume : Bool) : List Char × Nat :=
  let text := (normalizeMessage message.toList platform).1
  if consume then RepeatMarker.take text else (text, 0)

/-- A message is read stage by stage, and is a command if every stage has a result. -/
theorem parse?_eq : parse? message platform leadIns keywords consume =
    (findLeadIn? (markedText message platform consume).1 leadIns).bind fun (leadIn, tail) =>
      (splitCommand? (commandBody keywords (foldSpelling (trim tail) foldedSpellings))).map
        fun (command, line) => {
          command := String.ofList command
          arguments := (splitArguments line).1
          named := (splitArguments line).2
          mentions := (normalizeMessage message.toList platform).2
          argumentText := String.ofList line
          message
          leadIn
          platform
          keywords
          spaced := isSpacedBehind keywords (foldSpelling (trim tail) foldedSpellings) command
          repeatCount := (markedText message platform consume).2
          cleanText :=
            String.ofList (trim (String.intercalate " " (splitArguments line).1).toList) } := by
  unfold parse? markedText
  simp only [Option.bind_eq_bind]
  refine Option.bind_congr fun leadIn _ => ?_
  rw [Option.map_eq_bind]
  rfl

/-- What an invocation records of the stages that it was read in. -/
theorem stages_of_parse? (h : parse? message platform leadIns keywords consume = some x) :
    ∃ tail command line,
      findLeadIn? (markedText message platform consume).1 leadIns = some (x.leadIn, tail) ∧
      splitCommand? (commandBody keywords (foldSpelling (trim tail) foldedSpellings)) =
        some (command, line) ∧
      x.command = String.ofList command ∧ x.argumentText = String.ofList line ∧
      x.cleanText =
        String.ofList (trim (String.intercalate " " (splitArguments line).1).toList) ∧
      x.repeatCount = (markedText message platform consume).2 := by
  rw [parse?_eq] at h
  obtain ⟨⟨leadIn, tail⟩, hleadIn, h⟩ := Option.bind_eq_some_iff.mp h
  obtain ⟨⟨command, line⟩, hcommand, rfl⟩ := Option.map_eq_some_iff.mp h
  exact ⟨tail, command, line, hleadIn, hcommand, rfl, rfl, rfl, rfl⟩

/-- What an invocation keeps of the message for reading it again. -/
theorem source_of_parse? (h : parse? message platform leadIns keywords consume = some x) :
    x.message = message ∧ x.platform = platform ∧ x.keywords = keywords ∧
      x.mentions = (normalizeMessage message.toList platform).2 := by
  rw [parse?_eq] at h
  obtain ⟨_, _, h⟩ := Option.bind_eq_some_iff.mp h
  obtain ⟨_, _, rfl⟩ := Option.map_eq_some_iff.mp h
  exact ⟨rfl, rfl, rfl, rfl⟩

/-- The lead-in that was found is all that is needed of the list. -/
theorem parse?_singleton (h : parse? message platform leadIns keywords consume = some x) :
    parse? message platform [x.leadIn] keywords consume = some x := by
  rw [parse?_eq] at h ⊢
  obtain ⟨⟨leadIn, tail⟩, hleadIn, h⟩ := Option.bind_eq_some_iff.mp h
  have hx : x.leadIn = leadIn := by
    obtain ⟨_, _, rfl⟩ := Option.map_eq_some_iff.mp h
    rfl
  rw [hx, findLeadIn?_singleton hleadIn]
  exact h

/-- What a message is read as can be computed. -/
theorem exists_of_read {read : Option Invocation} {p : Invocation → Prop} [DecidablePred p]
    (h : (read.any fun x => p x) = true) : ∃ x, read = some x ∧ p x := by
  obtain ⟨x, hx, h⟩ := (Option.any_eq_true _ _).mp h
  exact ⟨x, hx, of_decide_eq_true h⟩

end Invocation

end DiceBot
