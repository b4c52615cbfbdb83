import DiceBot.Proofs.Bot.AttributeRun
import DiceBot.Proofs.Bot.Isolation
import DiceBot.Proofs.Command.AttributeLine

/-!
# Recording attributes

An attribute command with plain entries, from the message to the reply. What it does to the map of
its seat is said by `AttributeEntry.recordAll`, a recursion over the entries that knows of no source,
code or machine: each entry gives its attribute a new value under its canonical name, until one fails.
Running the entries does the same (`Bot.SameButMap.recordEntries_eq`, by induction on them), and the
command does so with the entries that are read from its line (`Bot.answer_recording`).
-/

namespace DiceBot

/-- What entries do, one after the other, to the map of a seat. The result is how those recorded are
shown, or the name of the first one that fails and why it does. The map has what was recorded, also
if an entry fails. -/
def AttributeEntry.recordAll (aliases : Aliases) (legacy : LegacyMap) :
    List AttributeEntry → VariableMap → Except (String × Cause) (List String) × VariableMap
  | [], vars => (.ok [], vars)
  | entry :: entries, vars =>
      match entry.newValue (attributeValue aliases legacy vars entry.name) with
      | .error cause => (.error (entry.name, cause), vars)
      | .ok n =>
          let name := aliases.canonicalize entry.name
          let (result, vars) := recordAll aliases legacy entries (vars.insert name (.int n))
          (result.map fun shown => (name ++ "=" ++ toString n.toInt) :: shown, vars)

open AttributeEntry

namespace Replies

/-- The reply when all entries are recorded. -/
def recordedText : String := speaker ++ " recorded " ++ hole "$tResultText"

/-- The reply when an entry fails. -/
def failedText : String :=
  speaker ++ " could not set " ++ hole "$tResultText" ++ ": " ++ hole "$tError"

theorem hasText_recorded : HasText "core:stSet" recordedText ["$tPlayer", "$tResultText"]
    ["<".toList, "> recorded ".toList, []] :=
  ⟨by decide, rfl, by decide, by decide⟩

theorem hasText_failed : HasText "core:stFailed" failedText ["$tPlayer", "$tResultText", "$tError"]
    ["<".toList, "> could not set ".toList, ": ".toList, []] :=
  ⟨by decide, rfl, by decide, by decide⟩

end Replies

open Replies

namespace Bot

variable {δ : Type}

namespace SameButMap

variable {seat : Seat} {s t : Bot δ} {vars : VariableMap}

theorem aliases (h : SameButMap seat s vars t) : t.aliases = s.aliases :=
  congrArg Scoped.aliases h.vars

theorem transient (h : SameButMap seat s vars t) : t.transient = s.transient :=
  congrArg Scoped.transient h.vars

theorem withTransient (h : SameButMap seat s vars t) (f : VariableMap → VariableMap) :
    SameButMap seat { s with transient := f s.transient } vars
      { t with transient := f t.transient } where
  settings := h.settings
  dice := h.dice
  templates := h.templates
  vars := congrArg (fun v : Scoped => { v with transient := f v.transient }) h.vars

theorem pick (h : SameButMap seat s vars t) (name : String) :
    SameButMap seat s vars { t with templates := (t.templates.pick name).2 } where
  settings := h.settings
  dice := h.dice
  templates := h.templates.pick name
  vars := congrArg (fun v : Scoped => { v with templates := (t.templates.pick name).2 }) h.vars

variable [DiceSource δ]

/-- Running entries does to the map of the seat what they say. -/
theorem recordEntries_eq {entries : List AttributeEntry} (h : SameButMap seat s vars t)
    (hentries : ∀ entry ∈ entries, entry.Plain) (hcapacity : 8 ≤ s.settings.capacity)
    (hvars : HoldsPlain vars) :
    ∃ t' : Bot δ, recordEntries seat entries t =
        ((recordAll s.aliases (s.records.legacyMap seat.player) entries vars).1.mapError
          fun (name, cause) => (name, ⟨cause, none⟩), t') ∧
      SameButMap seat s (recordAll s.aliases (s.records.legacyMap seat.player) entries vars).2
        t' := by
  -- the state that the first entry leaves is again the same but for the map, with its value in it
  induction entries generalizing vars t with
  | nil => exact ⟨t, rfl, h⟩
  | cons entry entries ih =>
    obtain ⟨hentry, hmore⟩ := List.forall_mem_cons.mp hentries
    rw [recordAll, recordEntries]
    cases hnew : entry.newValue
        (attributeValue s.aliases (s.records.legacyMap seat.player) vars entry.name) with
    | error cause =>
      obtain ⟨t', hrun, ht'⟩ := h.run_of_newValue_error hentry hcapacity hvars hnew
      refine ⟨t', ?_, ht'⟩
      rw [Act.bind_of_eq hrun]
      rfl
    | ok n =>
      obtain ⟨o, t₁, hrun, hvalue, ht₁⟩ := h.run_of_newValue_ok hentry hcapacity hvars hnew
      obtain ⟨t', hrest, ht'⟩ := ih ht₁ hmore (hvars.insert _ n)
      refine ⟨t', ?_, ht'⟩
      rw [Act.bind_of_eq hrun]
      dsimp only
      rw [Act.bind_of_eq (get_eq t₁), Act.bind_of_eq hrest, ht₁.aliases, hvalue]
      dsimp only
      cases (recordAll s.aliases (s.records.legacyMap seat.player) entries
        (vars.insert (s.aliases.canonicalize entry.name) (.int n))).1 <;> rfl

/-- A reply leaves the map of the seat as it is. -/
theorem render_eq (h : SameButMap seat s vars t) {reply text shown : String}
    {literals : List (List Char)} {entries : List (String × Value)}
    (htext : HasText reply text (entries.map Prod.fst) literals)
    (hcapacity : entries.length + 2 ≤ s.settings.capacity) (hholds : Holds t.transient entries)
    (hshown : shown.toList = Pattern.splice literals (entries.map (·.2.display.toList))) :
    ∃ t' : Bot δ, render reply seat t = (shown, t') ∧ SameButMap seat s vars t' := by
  have hdrawn := h.pick reply
  rw [← h.settings] at hcapacity
  refine ⟨_, render_of_hasText htext (h.templates reply) hcapacity hholds hshown,
    hdrawn.keep rfl rfl ?_⟩
  rw [hdrawn.vars]

theorem render_recorded (h : SameButMap seat s vars t) (hcapacity : 8 ≤ s.settings.capacity)
    {player shown : String}
    (hholds : Holds t.transient [("$tPlayer", .text player), ("$tResultText", .text shown)]) :
    ∃ t' : Bot δ, render "core:stSet" seat t = ("<" ++ player ++ "> recorded " ++ shown, t') ∧
      SameButMap seat s vars t' :=
  h.render_eq hasText_recorded (Nat.le_trans (by decide : 2 + 2 ≤ 8) hcapacity) hholds
    (by simp [Value.display, Pattern.splice])

theorem render_failed (h : SameButMap seat s vars t) (hcapacity : 8 ≤ s.settings.capacity)
    {player name reason : String} (hholds : Holds t.transient
      [("$tPlayer", .text player), ("$tResultText", .text name), ("$tError", .text reason)]) :
    ∃ t' : Bot δ, render "core:stFailed" seat t =
        ("<" ++ player ++ "> could not set " ++ name ++ ": " ++ reason, t') ∧
      SameButMap seat s vars t' :=
  h.render_eq hasText_failed (Nat.le_trans (by decide : 3 + 2 ≤ 8) hcapacity) hholds
    (by simp [Value.display, Pattern.splice])

end SameButMap

/-- The reply to an attribute command. -/
def recordedReply (player : String) : Except (String × Cause) (List String) → String
  | .ok shown => "<" ++ player ++ "> recorded " ++ String.intercalate " " shown
  | .error (name, cause) => "<" ++ player ++ "> could not set " ++ name ++ ": " ++ cause.message

namespace SameButMap

variable {seat : Seat} {s t : Bot δ} {vars : VariableMap} [DiceSource δ]

/-- The transient variables are left with what the reply speaks of. -/
theorem recordAttributes_eq {entries : List AttributeEntry} (h : SameButMap seat s vars t)
    (hentries : ∀ entry ∈ entries, entry.Plain) (hcapacity : 8 ≤ s.settings.capacity)
    (hvars : HoldsPlain vars) {player : String}
    (hplayer : s.transient["$tPlayer"]? = some (.text player)) :
    ∃ (transient : VariableMap) (t' : Bot δ), recordAttributes entries seat t =
        (recordedReply player
          (recordAll s.aliases (s.records.legacyMap seat.player) entries vars).1, t') ∧
      SameButMap seat { s with transient }
        (recordAll s.aliases (s.records.legacyMap seat.player) entries vars).2 t' := by
  obtain ⟨t₁, hrun, ht₁⟩ := h.recordEntries_eq hentries hcapacity hvars
  have hnamed : Holds t₁.transient [("$tPlayer", .text player)] :=
    Holds.player (by rwa [ht₁.transient]) rfl
  unfold recordAttributes
  rw [Act.bind_of_eq hrun]
  -- the reply depends on what has come of the entries, not on how
  generalize recordAll s.aliases (s.records.legacyMap seat.player) entries vars = result at ht₁ ⊢
  obtain ⟨⟨name, cause⟩ | shown, vars'⟩ := result
  · let failed := (t₁.transient.insert "$tResultText" (.text name)).insert "$tError"
      (.text cause.message)
    have hholds : Holds failed [("$tPlayer", .text player), ("$tResultText", .text name),
        ("$tError", .text cause.message)] :=
      (hnamed.insert_last (by decide) rfl (by simp)).insert_last (by decide) rfl (by simp)
    have ht₃ := (ht₁.withTransient (·.insert "$tResultText" (.text name))).withTransient
      (·.insert "$tError" (.text cause.message))
    obtain ⟨t', hrender, ht'⟩ := ht₃.render_failed hcapacity hholds
    refine ⟨_, t', ?_, ht'⟩
    exact (Act.bind_of_eq (setTransient_eq t₁ "$tResultText" (.text name))).trans
      ((Act.bind_of_eq (setTransient_eq _ "$tError" (.text cause.message))).trans hrender)
  · let text := String.intercalate " " shown
    let recorded := t₁.transient.insert "$tResultText" (.text text)
    have hholds : Holds recorded [("$tPlayer", .text player), ("$tResultText", .text text)] :=
      hnamed.insert_last (by decide) rfl (by simp)
    have ht₂ := ht₁.withTransient (·.insert "$tResultText" (.text text))
    obtain ⟨t', hrender, ht'⟩ := ht₂.render_recorded hcapacity hholds
    refine ⟨_, t', ?_, ht'⟩
    exact (Act.bind_of_eq (setTransient_eq t₁ "$tResultText" (.text text))).trans hrender

end SameButMap

variable {s : Bot δ} [DiceSource δ]

theorem answer_eq_of_recording {message : Message} {entries : List AttributeEntry}
    {separator : String} (hleadIns : s.settings.leadIns = [".", "。"])
    (hseparator : separator = " " ∨ separator = "") (hentries : ∀ entry ∈ entries, entry.Plain)
    (hfirst : ∀ entry ∈ entries.head?, ∀ word ∈ subCommands,
      ¬StartsWith word.toList entry.name.toList)
    (htext : message.text = (CommandLine.recording entries separator).text) {reply : String}
    {t : Bot δ}
    (hrun : (if entries = [] then return HelpTopic.usageOf "st"
        else recordAttributes entries message.seat : Act δ String)
      { s with transient := s.transient.insert "$tPlayer" (.text message.name) } = (reply, t)) :
    answer message s = (some reply, { t with transient := ∅ }) := by
  have hlegible : ∀ entry ∈ entries, entry.Legible := fun entry hentry =>
    (hentries entry hentry).legible
  have hwords : ∀ word ∈ entries.map written, EntryWord word :=
    List.forall_mem_map.mpr fun entry hentry => entryWord_written (hlegible entry hentry)
  have hattributes : (attributes (wordsInvocation (entries.map written) separator
      s.settings.platform) message.seat : Act δ String) = _ :=
    attributes_recording hlegible hfirst s.settings.platform message.seat
  have hdot : CommandLine.DotLeadsIn s.settings.leadIns := hleadIns ▸ CommandLine.dotLeadsIn_default
  exact answer_of_carryOut (invocation?_ofWords hdot hseparator hwords htext)
    (Act.map_of_eq some ((congrFun hattributes _).trans hrun))

/-- An attribute command with plain entries records them in their order, up to the first that
fails, in the map of its seat and nowhere else. -/
theorem answer_recording {message : Message} {entries : List AttributeEntry} {separator : String}
    (hleadIns : s.settings.leadIns = [".", "。"]) (htemplates : s.templates.OnlyReplies)
    (hcapacity : 8 ≤ s.settings.capacity) (hvars : HoldsPlain (s.records.seatMap message.seat))
    (hentries : ∀ entry ∈ entries, entry.Plain)
    (hfirst : ∀ entry ∈ entries.head?, ∀ word ∈ subCommands,
      ¬StartsWith word.toList entry.name.toList)
    (hseparator : separator = " " ∨ separator = "")
    (htext : message.text =
      ".st" ++ separator ++ String.intercalate " " (entries.map written)) :
    let recorded := recordAll s.aliases (s.records.legacyMap message.sender) entries
      (s.records.seatMap message.seat)
    let after := (answer message s).2
    (answer message s).1 = some (if entries = [] then HelpTopic.usageOf "st"
      else recordedReply message.name recorded.1) ∧
    after.records.seatMap message.seat = recorded.2 ∧
    (∀ owner, owner ≠ s.records.localOwner message.seat →
      (after.records.mapOf? owner).getD ∅ = (s.records.mapOf? owner).getD ∅) ∧
    s.SameBeyond message.seat after ∧ after.dice = s.dice ∧ after.transient = ∅ := by
  intro recorded after
  have hbeyond : s.SameBeyond message.seat after := sameBeyond_answer message s
  let named : Bot δ := { s with transient := s.transient.insert "$tPlayer" (.text message.name) }
  have hnamed : SameButMap message.seat named (named.records.seatMap message.seat) named :=
    .refl (s := named) htemplates message.seat
  -- without entries the usage is the reply, and nothing is run
  obtain ⟨transient, t, hrun, ht⟩ : ∃ (transient : VariableMap) (t : Bot δ),
      (if entries = [] then return HelpTopic.usageOf "st"
        else recordAttributes entries message.seat : Act δ String) named =
          (if entries = [] then HelpTopic.usageOf "st" else recordedReply message.name recorded.1,
            t) ∧
      SameButMap message.seat { named with transient } recorded.2 t := by
    by_cases hnil : entries = []
    · subst hnil
      exact ⟨_, named, rfl, hnamed⟩
    · rw [if_neg hnil, if_neg hnil]
      exact hnamed.recordAttributes_eq hentries hcapacity hvars Std.ExtTreeMap.getElem?_insert_self
  have hanswer := answer_eq_of_recording hleadIns hseparator hentries hfirst
    (htext.trans (CommandLine.text_recording entries separator).symm) hrun
  have hafter : after = { t with transient := ∅ } := congrArg Prod.snd hanswer
  have hseat : (t.world message.seat).vars.seat = recorded.2 := congrArg Scoped.seat ht.vars
  have hplayer := congrArg Scoped.player ht.vars
  have hgroup := congrArg Scoped.group ht.vars
  refine ⟨congrArg Prod.fst hanswer, ?_, fun owner howner => ?_, hbeyond, ?_, ?_⟩
  · rw [hafter]
    exact hseat
  · rw [hafter] at hbeyond ⊢
    exact hbeyond.getD_mapOf? hplayer hgroup howner
  · rw [hafter]
    exact ht.dice
  · rw [hafter]

/-- An alias is recorded under the name that it stands for, and what is no number yet cannot be
raised. -/
theorem answer_recording_aliased :
    let s : Bot ScriptedDice := (start {} ⟨[]⟩ 8).after (.aliases "hp" ["life"])
    let message : Message :=
      { text := ".st life10 HP+5 luck+1 str:60", group := "g", sender := "a", name := "Ann" }
    (answer message s).1 = some ("<Ann> could not set luck: " ++
      (Cause.typeMismatch "+" .int .text).message) ∧
    (answer message s).2.records.seatMap message.seat = (∅ : VariableMap).insert "hp" (.int 15) := by
  intro s message
  let entries : List AttributeEntry :=
    [⟨"life", none, "10"⟩, ⟨"HP", some '+', "5"⟩, ⟨"luck", some '+', "1"⟩, ⟨"str", some ':', "60"⟩]
  have htemplates : s.templates.OnlyReplies := TemplateTable.onlyReplies_withReplies 8
  have hempty : s.records.seatMap message.seat = ∅ := by decide +kernel
  have hvars : HoldsPlain (s.records.seatMap message.seat) := fun key value hvalue => by
    rw [hempty, Std.ExtTreeMap.getElem?_empty] at hvalue
    exact nomatch hvalue
  have hentries : ∀ entry ∈ entries, entry.Plain := by decide +kernel
  have hfirst : ∀ entry ∈ entries.head?, ∀ word ∈ subCommands,
      ¬StartsWith word.toList entry.name.toList := by decide +kernel
  have htext : message.text = ".st" ++ " " ++ String.intercalate " " (entries.map written) := by
    decide
  obtain ⟨hreply, hseat, -⟩ :=
    answer_recording (s := s) rfl htemplates (by decide) hvars hentries hfirst (.inl rfl) htext
  have hrecorded : recordAll s.aliases (s.records.legacyMap message.sender) entries ∅ =
      (.error ("luck", .typeMismatch "+" .int .text), (∅ : VariableMap).insert "hp" (.int 15)) := by
    decide +kernel
  have hshown : recordedReply message.name (.error ("luck", .typeMismatch "+" .int .text)) =
      "<Ann> could not set luck: " ++ (Cause.typeMismatch "+" .int .text).message := by
    decide
  rw [hempty, hrecorded] at hreply hseat
  rw [if_neg (by decide : entries ≠ []), hshown] at hreply
  exact ⟨hreply, hseat⟩

end Bot

end DiceBot
