import DiceBot.Proofs.Bot.SubCommand
import DiceBot.Proofs.Command.AttributeLine

/-!
# White space between entries

What an attribute command does is told from the entries that its message asks to record
(`Bot.entriesOf?`, `Bot.answer_of_entriesOf?`). Entries with single spaces between them are these
entries. Without the spaces they still are, unless the name of a later one starts with the letter of
the dice operator, which then goes to the formula before it (`Bot.answer_unspaced`).
-/

namespace DiceBot

open AttributeEntry

/-- A first argument that starts with a sub-command is no entry. -/
theorem Invocation.entries?_eq_none {x : Invocation} {word first : String} {others : List String}
    (hword : word ∈ Bot.subCommands) (harguments : x.arguments = first :: others)
    (hfirst : StartsWith word.toList first.toList) : x.entries? = none := by
  obtain ⟨rest, hrest⟩ := startsWith_iff.mp hfirst
  have hchopped := Bot.arguments_chop? hword harguments hrest
  have hwords : ∀ w ∈ Bot.subCommands,
      Bot.subCommands.any (fun c => Text.eqIgnoringCase w.toList c.toList) = true := by decide
  have hamong : ((x.chop? Bot.subCommands).getD x).isArgumentAmong 1 Bot.subCommands = true := by
    unfold Invocation.isArgumentAmong Invocation.argument?
    rw [hchopped]
    exact hwords word hword
  rw [Invocation.entries?_eq, if_pos hamong]

namespace Bot

/-- The entries that a message asks to record. There are none if it is no attribute command or if a
sub-command is meant. -/
def entriesOf? (settings : Settings) (message : Message) : Option (List AttributeEntry) :=
  (invocation? settings message).bind fun x => if x.command = "st" then x.entries? else none

variable {settings : Settings} {message : Message} {words : List String} {separator : String}

theorem entriesOf?_ofWords (hleadIns : CommandLine.DotLeadsIn settings.leadIns)
    (hseparator : separator = " " ∨ separator = "") (hwords : ∀ word ∈ words, EntryWord word)
    (htext : message.text = ".st" ++ separator ++ String.intercalate " " words) :
    entriesOf? settings message =
      (wordsInvocation words separator settings.platform).entries? := by
  have hline := htext.trans (CommandLine.text_ofWords words separator).symm
  rw [entriesOf?, invocation?_ofWords hleadIns hseparator hwords hline, Option.bind_some]
  exact if_pos rfl

/-- If the words of a line are asked to be recorded, the first one does not look like a
sub-command. -/
theorem not_startsWith_of_entriesOf? (hleadIns : CommandLine.DotLeadsIn settings.leadIns)
    (hseparator : separator = " " ∨ separator = "") (hwords : ∀ word ∈ words, EntryWord word)
    (htext : message.text = ".st" ++ separator ++ String.intercalate " " words)
    (hrecords : (entriesOf? settings message).isSome = true) :
    ∀ word ∈ words.head?, ∀ w ∈ subCommands, ¬StartsWith w.toList word.toList := by
  intro word hword w hw hstarts
  cases words with
  | nil => exact nomatch hword
  | cons first others =>
    obtain rfl := Option.some.inj hword
    have harguments : (wordsInvocation (first :: others) separator settings.platform).arguments =
        first :: others := arguments_wordsInvocation hwords settings.platform
    rw [entriesOf?_ofWords hleadIns hseparator hwords htext,
      Invocation.entries?_eq_none hw harguments hstarts] at hrecords
    exact nomatch hrecords

/-- Entries without white space between them are one word, which looks like a sub-command only if
the first entry does. -/
theorem entriesOf?_glued {entries : List AttributeEntry}
    (hleadIns : CommandLine.DotLeadsIn settings.leadIns)
    (hseparator : separator = " " ∨ separator = "") (hentries : ∀ entry ∈ entries, entry.Legible)
    (hfirst : ∀ word ∈ (entries.map written).head?, ∀ w ∈ subCommands,
      ¬StartsWith w.toList word.toList)
    (htext : message.text = ".st" ++ separator ++ String.join (entries.map written)) :
    entriesOf? settings message = some (all (String.join (entries.map written)).toList) := by
  cases entries with
  | nil =>
    have hwords : ∀ word ∈ ([] : List String), EntryWord word := nofun
    rw [entriesOf?_ofWords hleadIns hseparator hwords htext, entries?_wordsInvocation hwords nofun]
    rfl
  | cons entry others =>
    have hentry : entry.Legible := hentries entry List.mem_cons_self
    have hjoin : String.intercalate " " [String.join ((entry :: others).map written)] =
        String.join ((entry :: others).map written) := String.intercalate_singleton
    have hwords : ∀ word ∈ [String.join ((entry :: others).map written)], EntryWord word :=
      List.forall_mem_singleton.mpr (entryWord_join (List.cons_ne_nil _ _) hentries)
    rw [entriesOf?_ofWords hleadIns hseparator hwords (by rw [htext, hjoin]),
      entries?_wordsInvocation hwords, hjoin]
    intro word hword w hw hstarts
    obtain rfl := Option.some.inj hword
    rw [toList_join_written, List.flatMap_cons] at hstarts
    refine hfirst entry.written rfl w hw ?_
    rw [toList_written]
    exact (startsWith_name hentry hw hstarts).append _

variable {δ : Type} [DiceSource δ] {s : Bot δ}

/-- What the answer is, and what it leaves, is told from the entries. -/
theorem answer_of_entriesOf? {entries : List AttributeEntry}
    (h : entriesOf? s.settings message = some entries) :
    let recorded := (if entries = [] then return HelpTopic.usageOf "st"
      else recordAttributes entries message.seat : Act δ String)
        { s with transient := s.transient.insert "$tPlayer" (.text message.name) }
    answer message s = (some recorded.1, { recorded.2 with transient := ∅ }) := by
  intro recorded
  obtain ⟨x, hread, hx⟩ := Option.bind_eq_some_iff.mp h
  split at hx
  · next hcommand =>
    refine answer_of_carryOut hread ?_
    rw [carryOut_of_attributes hcommand, attributes_of_entries? hx]
    rfl
  · exact nomatch hx

/-- Two messages from the same place that ask for the same entries are answered alike. -/
theorem answer_congr {message' : Message} {entries : List AttributeEntry}
    (h : entriesOf? s.settings message = some entries)
    (h' : entriesOf? s.settings message' = some entries) (hname : message'.name = message.name)
    (hseat : message'.seat = message.seat) : answer message' s = answer message s := by
  rw [answer_of_entriesOf? h, answer_of_entriesOf? h', hname, hseat]

/-- Entries of letters and digits that are recorded with single spaces between them are asked for
without the spaces, too, if no name but the first starts with the letter of the dice operator, and
only then. The answer is then the same, and so is all that it leaves. -/
theorem answer_unspaced {entries : List AttributeEntry} (message : Message)
    (hleadIns : CommandLine.DotLeadsIn s.settings.leadIns)
    (hseparator : separator = " " ∨ separator = "") (hentries : ∀ entry ∈ entries, entry.Legible)
    (hrecords : (entriesOf? s.settings { message with
      text := ".st" ++ separator ++ String.intercalate " " (entries.map written) }).isSome = true) :
    let spaced : Message := { message with
      text := ".st" ++ separator ++ String.intercalate " " (entries.map written) }
    let glued : Message := { message with
      text := ".st" ++ separator ++ String.join (entries.map written) }
    entriesOf? s.settings spaced = some entries ∧
    (entriesOf? s.settings glued = some entries ↔
      ∀ entry ∈ entries.tail, entry.startsAsDice = false) ∧
    ((∀ entry ∈ entries.tail, entry.startsAsDice = false) →
      answer glued s = answer spaced s) := by
  intro spaced glued
  have hwords : ∀ word ∈ entries.map written, EntryWord word :=
    List.forall_mem_map.mpr fun entry hentry => entryWord_written (hentries entry hentry)
  have hfirst := not_startsWith_of_entriesOf? hleadIns hseparator hwords rfl hrecords
  have hspaced : entriesOf? s.settings spaced = some entries := by
    rw [entriesOf?_ofWords hleadIns hseparator hwords rfl, entries?_wordsInvocation hwords hfirst,
      all_written hentries]
  have hglued : entriesOf? s.settings glued =
      some (all (String.join (entries.map written)).toList) :=
    entriesOf?_glued hleadIns hseparator hentries hfirst rfl
  have hiff : entriesOf? s.settings glued = some entries ↔
      ∀ entry ∈ entries.tail, entry.startsAsDice = false := by
    rw [hglued, Option.some_inj, all_glued_iff hentries]
  exact ⟨hspaced, hiff, fun hnames => answer_congr hspaced (hiff.mpr hnames) rfl rfl⟩

/-- A name that starts with `d` may come first, and a later one may hold it. -/
theorem answer_unspaced_first :
    let s : Bot ScriptedDice := start {} ⟨[]⟩ 8
    let message : Message := { text := "", group := "g", sender := "a", name := "Ann" }
    answer { message with text := ".st dex10力量+5wisdom3" } s =
      answer { message with text := ".st dex10 力量+5 wisdom3" } s := by
  intro s message
  let entries : List AttributeEntry :=
    [⟨"dex", none, "10"⟩, ⟨"力量", some '+', "5"⟩, ⟨"wisdom", none, "3"⟩]
  have hentries : ∀ entry ∈ entries, entry.Legible := by decide +kernel
  have hnames : ∀ entry ∈ entries.tail, entry.startsAsDice = false := by decide
  have hrecords : (entriesOf? s.settings { message with
      text := ".st" ++ " " ++ String.intercalate " " (entries.map written) }).isSome = true := by
    decide +kernel
  have hspaced : ".st" ++ " " ++ String.intercalate " " (entries.map written) =
      ".st dex10 力量+5 wisdom3" := by decide
  have hglued : ".st" ++ " " ++ String.join (entries.map written) =
      ".st dex10力量+5wisdom3" := by decide
  obtain ⟨-, -, hsame⟩ := answer_unspaced message CommandLine.dotLeadsIn_default (.inl rfl)
    hentries hrecords
  have hanswer := hsame hnames
  rwa [hspaced, hglued] at hanswer

/-- A later name that starts with `d` loses the letter to the number before it. -/
theorem not_answer_unspaced :
    let s : Bot ScriptedDice := start {} ⟨[]⟩ 8
    let spaced : Message := { text := ".st hp10 dex5", name := "Alice" }
    let glued : Message := { text := ".st hp10dex5", name := "Alice" }
    (answer spaced s).1 = some "<Alice> recorded hp=10 dex=5" ∧
      ((answer spaced s).2.records.seatMap spaced.seat)["dex"]? = some (.int 5) ∧
      ((answer glued s).2.records.seatMap glued.seat)["dex"]? = none := by
  decide +kernel

end Bot

end DiceBot
