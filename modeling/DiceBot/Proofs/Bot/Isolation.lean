import DiceBot.Proofs.Bot.Conversation
import DiceBot.Proofs.Bot.FixedTemplates
import DiceBot.Proofs.Memory.Owners

/-!
# Isolation of seats

A message is carried out at the seat that it comes from. What it does depends, besides the parts of
the state that belong to no seat, only on what the records hold for that seat (`Bot.SameAt`), and
besides the dice and the stream of the templates it changes only the maps that the seat uses
(`Bot.SameBeyond`). So messages from seats with neither the player nor the group in common can be
answered in either order, if they are steady (`Bot.Steady`), as messages are that roll no dice and
draw no template that has several candidates (`Bot.steady_of_drawn`): the stream, which is all that
one of them then leaves behind for the other, does not matter to fixed templates.
-/

namespace DiceBot

namespace Bot

variable {δ : Type}

/-- States that a message from a seat cannot tell apart, if they hold the same transient variables:
they have the same settings, dice, aliases and templates, and the same records for the seat, its
player and its group. -/
structure SameAt (seat : Seat) (s t : Bot δ) : Prop where
  settings : s.settings = t.settings
  dice : s.dice = t.dice
  aliases : s.aliases = t.aliases
  templates : s.templates = t.templates
  records : s.records.SameAt seat t.records

/-- States that differ at most in the dice, the stream of the templates, the transient variables,
and the maps that a seat uses. -/
structure SameBeyond (seat : Seat) (s s' : Bot δ) : Prop where
  settings : s'.settings = s.settings
  aliases : s'.aliases = s.aliases
  candidates : s'.templates.candidates = s.templates.candidates
  records : s.records.SameBeyond seat s'.records

theorem SameBeyond.refl (seat : Seat) (s : Bot δ) : s.SameBeyond seat s :=
  ⟨rfl, rfl, rfl, .refl seat s.records⟩

/-- A state that differs from another only in what a seat uses, and of that only in the map of the
seat, has all other variables unchanged. -/
theorem SameBeyond.getD_mapOf? {seat : Seat} {s t : Bot δ} (h : s.SameBeyond seat t)
    (hplayer : (t.world seat).vars.player = (s.world seat).vars.player)
    (hgroup : (t.world seat).vars.group = (s.world seat).vars.group) {owner : Owner}
    (howner : owner ≠ s.records.localOwner seat) :
    (t.records.mapOf? owner).getD ∅ = (s.records.mapOf? owner).getD ∅ := by
  by_cases hmem : owner ∈ s.records.owners seat
  · simp only [Records.owners, List.mem_cons, List.not_mem_nil, or_false, howner] at hmem
    rcases hmem with rfl | rfl
    · exact hplayer
    · exact hgroup
  · rw [h.records.mapOf? owner hmem]

variable [DiceSource δ]

/-! ## One seat -/

/-- A program that runs at the seat sees the same in both states. -/
theorem mirrors_sameAt (seat : Seat) :
    Mirrors (δ := δ) seat fun s t => s.SameAt seat t ∧ s.transient = t.transient where
  settings _ _ h := h.1.settings
  aliases _ _ h := h.1.aliases
  seatMap _ _ h := h.1.records.seatMap
  transient s t f h := by
    refine ⟨⟨h.1.settings, h.1.dice, h.1.aliases, h.1.templates, h.1.records⟩, ?_⟩
    exact congrArg f h.2
  pickTemplate name _ s t h := by
    unfold Bot.pickTemplate
    rw [← h.1.templates]
    exact ⟨rfl, ⟨h.1.settings, h.1.dice, h.1.aliases, rfl, h.1.records⟩, h.2⟩
  runProgram p _ s t h _ := by
    have hworld : s.world seat = t.world seat := by
      rw [world, world, h.1.dice, h.2, h.1.aliases, h.1.templates, h.1.records.scopedAt]
    have hkeep : ∀ w, (s.keep seat w).SameAt seat (t.keep seat w) := fun w =>
      ⟨h.1.settings, rfl, h.1.aliases, rfl, h.1.records.keep w.vars⟩
    unfold Bot.runProgram EStateM.run
    rw [← h.1.settings, ← hworld]
    cases s.settings.machine.evaluate p (s.world seat) with
    | ok e w => exact ⟨rfl, hkeep w, rfl⟩
    | error fault w => exact ⟨rfl, hkeep w, rfl⟩
  restrict s t vars _ h :=
    ⟨⟨h.1.settings, h.1.dice, h.1.aliases, h.1.templates, h.1.records.setSeatMap vars⟩, h.2⟩

/-- Each step of a command at the seat changes what may be changed. -/
theorem mirrors_sameBeyond (seat : Seat) (s₀ : Bot δ) :
    Mirrors seat fun s t => s = t ∧ s₀.SameBeyond seat s := by
  refine .of_property (fun s vars h => ?_) (fun s name h => ?_) (fun s p hp h => ?_)
    fun s vars _ h => ?_
  · exact ⟨h.settings, h.aliases, h.candidates, h.records⟩
  · exact ⟨h.settings, h.aliases,
      (TemplateTable.candidates_pick _ _).trans h.candidates, h.records⟩
  · have hworld : (s.world seat).vars.templates.candidates = s₀.templates.candidates := h.candidates
    obtain ⟨w, hw, hkept⟩ := exists_keep_of_runProgram
      (P := fun vars => vars.templates.candidates = s₀.templates.candidates)
      (fun vars name value hvars => by
        show (vars.set name value).templates.candidates = _
        rwa [Scoped.templates_set])
      (fun vars name hvars => (TemplateTable.candidates_pick _ _).trans hvars) hp hworld
    rw [hkept]
    exact ⟨h.settings, h.aliases, hw, h.records.keep w.vars⟩
  · exact ⟨h.settings, h.aliases, h.candidates, h.records.setSeatMap vars⟩

/-- Between events there are no transient variables in which states could differ. -/
theorem SameAt.answer {message : Message} {s t : Bot δ} (h : s.SameAt message.seat t)
    (hs : s.transient = ∅) (ht : t.transient = ∅) :
    (answer message s).1 = (answer message t).1 ∧
      (answer message s).2.SameAt message.seat (answer message t).2 := by
  obtain ⟨hreply, hstate, -⟩ := (mirrors_sameAt message.seat).answer s t ⟨h, hs.trans ht.symm⟩
  exact ⟨hreply, hstate⟩

theorem SameAt.evaluate {message : Message} {s t : Bot δ} (h : s.SameAt message.seat t)
    (hs : s.transient = ∅) (ht : t.transient = ∅) (source : String) :
    (evaluate source message s).1 = (evaluate source message t).1 ∧
      (evaluate source message s).2.SameAt message.seat (evaluate source message t).2 := by
  obtain ⟨hresult, hstate, -⟩ :=
    (mirrors_sameAt message.seat).evaluate source s t ⟨h, hs.trans ht.symm⟩
  exact ⟨hresult, hstate⟩

theorem sameBeyond_answer (message : Message) (s : Bot δ) :
    s.SameBeyond message.seat (answer message s).2 :=
  ((mirrors_sameBeyond message.seat s).answer s s ⟨rfl, .refl _ s⟩).2.2

theorem sameBeyond_evaluate (source : String) (message : Message) (s : Bot δ) :
    s.SameBeyond message.seat (evaluate source message s).2 :=
  ((mirrors_sameBeyond message.seat s).evaluate source s s ⟨rfl, .refl _ s⟩).2.2

/-! ## Two seats apart -/

/-- Answering the message leaves the dice as they are, and templates that are not fixed have no part
in it: whatever the bot had for their names, it would answer the same and keep the same. -/
structure Steady (message : Message) (s : Bot δ) : Prop where
  dice : (answer message s).2.dice = s.dice
  templates : ∀ table : TemplateTable, table.stream = s.templates.stream →
    (∀ name, s.templates.Fixed name → table.get? name = s.templates.get? name) →
    (answer message { s with templates := table }).1 = (answer message s).1 ∧
      (answer message { s with templates := table }).2.records = (answer message s).2.records

/-- The bot answers a steady message as it would with its fixed templates alone. -/
theorem Steady.fixedOnly {message : Message} {s : Bot δ} (h : s.Steady message) :
    (answer message { s with templates := s.templates.fixedOnly }).1 = (answer message s).1 ∧
      (answer message { s with templates := s.templates.fixedOnly }).2.records =
        (answer message s).2.records :=
  h.templates s.templates.fixedOnly rfl fun _ => TemplateTable.get?_fixedOnly_of_fixed

/-- A message that rolls no dice and draws fixed templates only is steady. -/
theorem steady_of_drawn {message : Message} {s : Bot δ}
    (hdice : (answer message s).2.dice = s.dice)
    (hdrawn : ∀ name ∈ drawn message s, s.templates.Fixed name) : s.Steady message := by
  refine ⟨hdice, fun table _ hget => ?_⟩
  have hsame : s.SameButTemplates s.templates.Fixed { s with templates := table } :=
    ⟨rfl, fun name hname => (hget name hname).symm, fun _ => id⟩
  obtain ⟨hreply, hstate⟩ := hsame.answer message hdrawn
  refine ⟨hreply.symm, ?_⟩
  rw [hstate.eq]

/-- Where all templates are fixed, a message that rolls no dice is steady. -/
theorem steady_of_fixed {message : Message} {s : Bot δ}
    (hdice : (answer message s).2.dice = s.dice) (hfixed : ∀ name, s.templates.Fixed name) :
    s.Steady message := steady_of_drawn hdice fun name _ => hfixed name

/-- A bot that has only the reply templates has two texts to refuse too many rolls with. Any other
message that rolls no dice is steady. -/
theorem steady_of_onlyReplies {message : Message} {s : Bot δ} (hreplies : s.templates.OnlyReplies)
    (hdice : (answer message s).2.dice = s.dice) (hdrawn : "core:rollTooMany" ∉ drawn message s) :
    s.Steady message :=
  steady_of_drawn hdice fun _ hname => hreplies.fixed (ne_of_mem_of_not_mem hname hdrawn)

example : (ofSeed {} 7).Steady { text := ".st hp10", group := "g", sender := "a" } :=
  steady_of_onlyReplies (TemplateTable.onlyReplies_withReplies 8) (by decide +kernel)
    (by decide +kernel)

/-- A message from another player in another group makes no difference to a steady one. -/
theorem answer_after_answer {m₁ m₂ : Message} (hplayer : m₂.sender ≠ m₁.sender)
    (hgroup : m₂.group ≠ m₁.group) {s : Bot δ} (hs : s.transient = ∅)
    (hdice : (answer m₁ s).2.dice = s.dice) (h₂ : s.Steady m₂)
    (h₁₂ : (answer m₁ s).2.Steady m₂) :
    (answer m₂ (answer m₁ s).2).1 = (answer m₂ s).1 ∧
      (answer m₂ (answer m₁ s).2).2.records.SameAt m₂.seat (answer m₂ s).2.records := by
  have hbeyond := sameBeyond_answer m₁ s
  have hs₁ : (answer m₁ s).2.transient = ∅ := preserves_transient_answer m₁ s hs
  generalize (answer m₁ s).2 = s₁ at *
  -- between the two states lies the first one with the stream of the second one
  let between : Bot δ := { s with templates := s₁.templates.fixedOnly }
  have hsameAt : ({ s₁ with templates := s₁.templates.fixedOnly } : Bot δ).SameAt m₂.seat between :=
    ⟨hbeyond.settings, hdice, hbeyond.aliases, rfl, hbeyond.records.sameAt hplayer hgroup⟩
  have hstream : between.SameButTemplates (fun _ => True)
      { s with templates := s.templates.fixedOnly } := by
    refine ⟨rfl, fun name _ => ?_, fun name _ => s₁.templates.fixed_fixedOnly name⟩
    show s₁.templates.fixedOnly.get? name = s.templates.fixedOnly.get? name
    rw [TemplateTable.get?_fixedOnly, TemplateTable.get?_fixedOnly, TemplateTable.get?,
      TemplateTable.get?, hbeyond.candidates]
  obtain ⟨hreply, hstate⟩ := hsameAt.answer hs₁ hs
  obtain ⟨hreply', hstate'⟩ := hstream.answer m₂ fun _ _ => trivial
  have hrecords' : (answer m₂ { s with templates := s.templates.fixedOnly }).2.records =
      (answer m₂ between).2.records := by rw [hstate'.eq]
  -- the other templates are taken away on the way there and put back on the way out
  constructor
  · rw [← h₁₂.fixedOnly.1, hreply, hreply', h₂.fixedOnly.1]
  · rw [← h₁₂.fixedOnly.2, ← h₂.fixedOnly.2, hrecords']
    exact hstate.records

/-- Steady messages from different players in different groups can be answered in either order. -/
theorem answer_comm {m₁ m₂ : Message} (hplayer : m₁.sender ≠ m₂.sender)
    (hgroup : m₁.group ≠ m₂.group) {s : Bot δ} (hs : s.transient = ∅) (h₁ : s.Steady m₁)
    (h₂ : s.Steady m₂) (h₁₂ : (answer m₁ s).2.Steady m₂) (h₂₁ : (answer m₂ s).2.Steady m₁) :
    (answer m₂ (answer m₁ s).2).1 = (answer m₂ s).1 ∧
      (answer m₁ (answer m₂ s).2).1 = (answer m₁ s).1 ∧
      (answer m₂ (answer m₁ s).2).2.records = (answer m₁ (answer m₂ s).2).2.records := by
  obtain ⟨hreply₂, hat₂⟩ :=
    answer_after_answer hplayer.symm hgroup.symm hs h₁.dice h₂ h₁₂
  obtain ⟨hreply₁, hat₁⟩ := answer_after_answer hplayer hgroup hs h₂.dice h₁ h₂₁
  refine ⟨hreply₂, hreply₁, ?_⟩
  exact Records.eq_of_sameBeyond hplayer hgroup (sameBeyond_answer m₁ s).records
    (sameBeyond_answer m₂ _).records (sameBeyond_answer m₂ s).records
    (sameBeyond_answer m₁ _).records hat₁ hat₂

/-- Whatever has happened to a bot, no transient variables are left of it, and then what a message
or an evaluation at a seat does depends only on what belongs to all seats and on what the records
hold for that seat. It changes nothing but the dice, the stream of the templates and the maps of
the player, the group, and the bound card or else the seat. And two messages from different players
in different groups have the same replies in either order, and leave the same variables, if in
either order they roll no dice and draw fixed templates only. -/
theorem seat_isolation :
    (∀ (settings : Settings) (dice : δ) (templateSeed : UInt64) (events : List Event),
      ((start settings dice templateSeed).afterAll events).transient = ∅) ∧
    (∀ (message : Message) (s t : Bot δ), s.transient = ∅ → t.transient = ∅ →
      s.SameAt message.seat t →
      ((answer message s).1 = (answer message t).1 ∧
        (answer message s).2.SameAt message.seat (answer message t).2) ∧
      ∀ source, (evaluate source message s).1 = (evaluate source message t).1 ∧
        (evaluate source message s).2.SameAt message.seat (evaluate source message t).2) ∧
    (∀ (message : Message) (s : Bot δ), s.SameBeyond message.seat (answer message s).2 ∧
      ∀ source, s.SameBeyond message.seat (evaluate source message s).2) ∧
    (∀ (m₁ m₂ : Message) (s : Bot δ), s.transient = ∅ → m₁.sender ≠ m₂.sender →
      m₁.group ≠ m₂.group → s.Steady m₁ → (answer m₁ s).2.Steady m₂ → s.Steady m₂ →
      (answer m₂ s).2.Steady m₁ →
      (answer m₂ (answer m₁ s).2).1 = (answer m₂ s).1 ∧
        (answer m₁ (answer m₂ s).2).1 = (answer m₁ s).1 ∧
        (answer m₂ (answer m₁ s).2).2.records = (answer m₁ (answer m₂ s).2).2.records) := by
  refine ⟨transient_afterAll, fun message s t hs ht h => ?_, fun message s => ?_,
    fun m₁ m₂ s hs hplayer hgroup h₁ h₁₂ h₂ h₂₁ => ?_⟩
  · exact ⟨h.answer hs ht, h.evaluate hs ht⟩
  · exact ⟨sameBeyond_answer message s, fun source => sameBeyond_evaluate source message s⟩
  · exact answer_comm hplayer hgroup hs h₁ h₂ h₁₂ h₂₁

/-- Two players record attributes in their groups, one of them on a card. For the first one it makes
no difference that there are older records of a third one. -/
theorem seat_isolation_recording :
    let s : Bot SeededDice := (ofSeed {} 7).afterAll
      [.templates fun table => table.set "core:rollTooMany" [⟨"No.", 1⟩], .bind ⟨"h", "b"⟩ "card"]
    let m₁ : Message := { text := ".st hp10", group := "g", sender := "a" }
    let m₂ : Message := { text := ".st hp=20", group := "h", sender := "b" }
    (answer m₁ s).1 = (answer m₁ (s.after (.legacy "c" "hp" 3))).1 ∧
      (answer m₂ (answer m₁ s).2).2.records = (answer m₁ (answer m₂ s).2).2.records := by
  intro s m₁ m₂
  obtain ⟨htransient, hsame, -, hcomm⟩ := seat_isolation (δ := SeededDice)
  have hs : s.transient = ∅ := htransient {} _ 8 _
  have ht : (s.after (.legacy "c" "hp" 3)).transient = ∅ := transient_after hs _
  have hat : s.SameAt m₁.seat (s.after (.legacy "c" "hp" 3)) :=
    ⟨rfl, rfl, rfl, rfl, ⟨rfl, by decide +kernel, fun _ _ => rfl⟩⟩
  have hfixed : ∀ name, s.templates.Fixed name :=
    TemplateTable.fixed_of_toList (by decide +kernel)
  -- what templates there are does not change
  have hfixed' : ∀ (m : Message) (name : String), (answer m s).2.templates.Fixed name :=
    fun m name =>
      (TemplateTable.fixed_congr (sameBeyond_answer m s).candidates name).mpr (hfixed name)
  refine ⟨(hsame m₁ s _ hs ht hat).1.1, ?_⟩
  refine (hcomm m₁ m₂ s hs (by decide) (by decide) ?_ ?_ ?_ ?_).2.2
  · exact steady_of_fixed (by decide +kernel) hfixed
  · exact steady_of_fixed (by decide +kernel) (hfixed' m₁)
  · exact steady_of_fixed (by decide +kernel) hfixed
  · exact steady_of_fixed (by decide +kernel) (hfixed' m₂)

end Bot

end DiceBot
