import DiceBot.Proofs.Bot.Preservation
import DiceBot.Proofs.Memory.Tiers

/-!
# Conversations

A bot is spoken to by any players in any groups, and between the messages its owner binds cards,
writes older records, changes templates and registers aliases. `Bot.afterAll` is the bot after a
list of such events.

Between two events a bot is tidy (`Bot.Tidy`): nothing is left of the transient variables, and each
map that is kept holds names of its own tier. One event keeps it so (`Tidy.after`), and so does any
conversation (`Tidy.afterAll`), provided that no alias stands for a name with a tag.
-/

namespace DiceBot

/-- What can happen to a bot. -/
inductive Event where
  /-- A message that may be a command. -/
  | message (message : Message)
  /-- A source is evaluated at the seat of a message. -/
  | evaluation (source : String) (message : Message)
  /-- A card is bound at a seat. -/
  | bind (seat : Seat) (card : String)
  /-- The card at a seat is taken away. -/
  | unbind (seat : Seat)
  /-- An integer is written into the older records of a player. -/
  | legacy (player name : String) (n : Int64)
  /-- The templates are changed in any way. -/
  | templates (change : TemplateTable → TemplateTable)
  /-- Spellings are registered for a canonical name. -/
  | aliases (canonical : String) (spellings : List String)

namespace Tier

/-- What a name of the seat tier does not start with. -/
def tags : List String := ["$t", "$m", "$g"]

theorem ofName_eq_seat_iff (name : String) :
    ofName name = .seat ↔ ∀ tag ∈ tags, ¬tag.toList <+: name.toList := by
  have htransient : ofName name = .transient ↔ "$t".toList <+: name.toList :=
    ofName_eq_iff_of_tag? rfl name
  have hplayer : ofName name = .player ↔ "$m".toList <+: name.toList :=
    ofName_eq_iff_of_tag? rfl name
  have hgroup : ofName name = .group ↔ "$g".toList <+: name.toList :=
    ofName_eq_iff_of_tag? rfl name
  simp only [tags, List.forall_mem_cons, List.not_mem_nil, false_implies, implies_true, and_true,
    ← htransient, ← hplayer, ← hgroup]
  cases ofName name <;> decide

end Tier

namespace Bot

variable {δ : Type} [DiceSource δ]

/-- The bot after an event. -/
def after (s : Bot δ) : Event → Bot δ
  | .message message => (answer message s).2
  | .evaluation source message => (evaluate source message s).2
  | .bind seat card => { s with records := s.records.bind seat card }
  | .unbind seat => { s with records := s.records.unbind seat }
  | .legacy player name n => { s with records := s.records.setLegacy player name n }
  | .templates change => { s with templates := change s.templates }
  | .aliases canonical spellings => { s with aliases := s.aliases.insert canonical spellings }

/-- The bot after events in order. -/
def afterAll (s : Bot δ) (events : List Event) : Bot δ := events.foldl after s

/-! ## Names in their tiers -/

/-- The records hold names in their tiers, and no alias leads out of the seat tier. -/
structure InTiers (s : Bot δ) : Prop where
  records : s.records.InTiers
  aliases : s.aliases.Untagged

/-- A program that runs at a seat writes every name to its tier. -/
theorem InTiers.runProgram (seat : Seat) {p : Program} (hp : p.LeavesOne) :
    Act.Preserves InTiers (runProgram (δ := δ) seat p) := by
  intro s hs
  have hworld : (s.world seat).vars.InTiers :=
    hs.records.scopedAt seat s.transient hs.aliases s.templates
  obtain ⟨w, hw, hkept⟩ := exists_keep_of_runProgram (fun _ name value h => h.set name value)
    (fun _ name h => h.template? name) hp hworld
  rw [hkept]
  exact ⟨hs.records.keep seat hw, hs.aliases⟩

/-- Commands write every name to its tier. -/
theorem keeps_inTiers : Keeps (InTiers (δ := δ)) where
  transient _ _ hs := ⟨hs.records, hs.aliases⟩
  pick _ _ hs := ⟨hs.records, hs.aliases⟩
  runProgram seat _ hp := InTiers.runProgram seat hp
  restrict _ seat _ hvars hs :=
    ⟨hs.records.setSeatMap seat fun name hname => hs.records.seatMap seat name (hvars name hname),
      hs.aliases⟩

/-! ## Between events -/

/-- A bot between two events. -/
structure Tidy (s : Bot δ) : Prop where
  transient : s.transient = ∅
  inTiers : s.InTiers

omit [DiceSource δ] in
theorem tidy_start (settings : Settings) (dice : δ) (templateSeed : UInt64) :
    (start settings dice templateSeed).Tidy :=
  ⟨rfl, Records.inTiers_empty, Aliases.untagged_empty⟩

omit [DiceSource δ] in
theorem establishes_transient {α : Type} (a : α) :
    Act.Establishes (fun s : Bot δ => s.transient = ∅) (do
      clearTransient
      return a) := fun _ => rfl

/-- A message that is no command changes nothing, and a command ends with the transient variables
forgotten. -/
theorem preserves_transient_answer (message : Message) :
    Act.Preserves (fun s : Bot δ => s.transient = ∅) (answer message) := by
  refine .bind .get fun s => ?_
  cases invocation? s.settings message with
  | none => exact .pure _
  | some x =>
    -- whatever the command has set, it ends by forgetting it
    have hcommand : Act.Establishes (fun s : Bot δ => s.transient = ∅) (do
        setTransient "$tPlayer" (.text message.name)
        let reply ← carryOut x message.seat
        clearTransient
        return reply) := .bind fun _ => .bind fun _ => establishes_transient _
    exact fun s _ => hcommand s

theorem establishes_transient_evaluate (source : String) (message : Message) :
    Act.Establishes (fun s : Bot δ => s.transient = ∅) (evaluate source message) :=
  .bind fun _ => establishes_transient _

/-- No event leaves transient variables behind. -/
theorem transient_after {s : Bot δ} (h : s.transient = ∅) (event : Event) :
    (s.after event).transient = ∅ := by
  cases event with
  | message message =>
    rw [Bot.after]
    exact preserves_transient_answer message s h
  | evaluation source message =>
    rw [Bot.after]
    exact establishes_transient_evaluate source message s
  | bind | unbind | legacy | templates | aliases => exact h

theorem transient_afterAll (settings : Settings) (dice : δ) (templateSeed : UInt64)
    (events : List Event) : ((start settings dice templateSeed).afterAll events).transient = ∅ := by
  have hfrom : ∀ s : Bot δ, s.transient = ∅ → (s.afterAll events).transient = ∅ := by
    induction events with
    | nil => exact fun s h => h
    | cons event events ih => exact fun s h => ih _ (transient_after h event)
  exact hfrom _ rfl

theorem Tidy.after {s : Bot δ} (h : s.Tidy) {event : Event}
    (hevent : ∀ canonical spellings, event = .aliases canonical spellings →
      Tier.ofName canonical = .seat) : (s.after event).Tidy := by
  have hrecords := h.inTiers.records
  have haliases := h.inTiers.aliases
  refine ⟨transient_after h.transient event, ?_⟩
  cases event with
  | message message =>
    rw [Bot.after]
    exact keeps_inTiers.answer message s h.inTiers
  | evaluation source message =>
    rw [Bot.after]
    exact keeps_inTiers.evaluate source message s h.inTiers
  | bind seat card => exact ⟨hrecords.bind seat card, haliases⟩
  | unbind seat => exact ⟨hrecords.unbind seat, haliases⟩
  | legacy player name n => exact ⟨hrecords.setLegacy player name n, haliases⟩
  | templates change => exact ⟨hrecords, haliases⟩
  | aliases canonical spellings =>
    exact ⟨hrecords, haliases.insert (hevent canonical spellings rfl) spellings⟩

theorem Tidy.afterAll {s : Bot δ} (h : s.Tidy) {events : List Event}
    (hevents : ∀ canonical spellings, .aliases canonical spellings ∈ events →
      Tier.ofName canonical = .seat) : (s.afterAll events).Tidy := by
  induction events generalizing s with
  | nil => exact h
  | cons event events ih =>
    refine ih (h.after fun canonical spellings heq => ?_) fun canonical spellings hmem => ?_
    · exact hevents canonical spellings (heq ▸ List.mem_cons_self)
    · exact hevents canonical spellings (List.mem_cons_of_mem event hmem)

omit [DiceSource δ] in
/-- A command does not see any transient variable of an earlier one. -/
theorem Tidy.get?_transient {s : Bot δ} (h : s.Tidy) (seat : Seat) {name : String}
    (hname : Tier.ofName name = .transient) : (s.world seat).vars.get? name = none := by
  have hget : (s.world seat).vars.get? name = s.transient[name]? :=
    Scoped.get?_of_transient hname _
  rw [hget, h.transient, Std.ExtTreeMap.getElem?_empty]

/-- From its start on, and whatever happens to it, a bot keeps names in their tiers: between two
events nothing is left of the transient variables, the maps of players and groups hold only names
with their tag, those of seats and cards only names without one. So what a command has written to a
transient variable, the base of a computed value included, no later command can read. -/
theorem tiers_of_conversation (settings : Settings) (dice : δ) (templateSeed : UInt64)
    (events : List Event)
    (hevents : ∀ canonical spellings, .aliases canonical spellings ∈ events →
      ∀ tag ∈ Tier.tags, ¬tag.toList <+: canonical.toList) :
    let s := (start settings dice templateSeed).afterAll events
    s.transient = ∅ ∧
    (∀ (player : String) (vars : VariableMap), s.records.players[player]? = some vars →
      ∀ name ∈ vars, "$m".toList <+: name.toList) ∧
    (∀ (group : String) (vars : VariableMap), s.records.groups[group]? = some vars →
      ∀ name ∈ vars, "$g".toList <+: name.toList) ∧
    (∀ (seat : Seat) (vars : VariableMap), s.records.seats[seat]? = some vars →
      ∀ name ∈ vars, ∀ tag ∈ Tier.tags, ¬tag.toList <+: name.toList) ∧
    (∀ (card : Card) (vars : VariableMap), s.records.cards[card]? = some vars →
      ∀ name ∈ vars, ∀ tag ∈ Tier.tags, ¬tag.toList <+: name.toList) ∧
    (∀ (seat : Seat) (name : String), "$t".toList <+: name.toList →
      Variables.get? (s.world seat).vars name = none) := by
  intro s
  -- every event keeps the tiers tidy as long as no canonical name carries a tag
  have htidy : s.Tidy := (tidy_start settings dice templateSeed).afterAll
    fun canonical spellings hmem =>
      (Tier.ofName_eq_seat_iff canonical).mpr (hevents canonical spellings hmem)
  have hrecords := htidy.inTiers.records
  refine ⟨htidy.transient, ?_, ?_, ?_, ?_, ?_⟩
  · intro player vars hvars name hname
    exact (Tier.ofName_eq_iff_of_tag? rfl name).mp (hrecords.players player vars hvars name hname)
  · intro group vars hvars name hname
    exact (Tier.ofName_eq_iff_of_tag? rfl name).mp (hrecords.groups group vars hvars name hname)
  · intro seat vars hvars name hname
    exact (Tier.ofName_eq_seat_iff name).mp (hrecords.seats seat vars hvars name hname)
  · intro card vars hvars name hname
    exact (Tier.ofName_eq_seat_iff name).mp (hrecords.cards card vars hvars name hname)
  · intro seat name hname
    exact htidy.get?_transient seat ((Tier.ofName_eq_iff_of_tag? rfl name).mpr hname)

/-- A variable of one evaluation, read after it and after attributes were recorded. -/
theorem tiers_of_conversation_evaluation :
    Variables.get? (((start {} ({} : ScriptedDice) 0).afterAll
      [.aliases "hp" ["life"], .evaluation "$tX = $mY = 5" { text := "", group := "g" },
        .message { text := ".st life=10", group := "g" }]).world ⟨"g", ""⟩).vars "$tX" = none := by
  have hevents : ∀ canonical spellings, Event.aliases canonical spellings ∈
      [.aliases "hp" ["life"], .evaluation "$tX = $mY = 5" { text := "", group := "g" },
        .message { text := ".st life=10", group := "g" }] →
      ∀ tag ∈ Tier.tags, ¬tag.toList <+: canonical.toList := by
    intro canonical spellings hmem
    obtain ⟨rfl, -⟩ : canonical = "hp" ∧ spellings = ["life"] := by simpa using hmem
    decide
  obtain ⟨-, -, -, -, -, hread⟩ := tiers_of_conversation {} ({} : ScriptedDice) 0 _ hevents
  exact hread ⟨"g", ""⟩ "$tX" (by decide)

end Bot

end DiceBot
