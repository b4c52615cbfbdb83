import DiceBot.Proofs.Bot.Isolation

/-!
# Private conversations

A private conversation takes place at a seat without a group, so the group tier, of all that a
player reads there, is the only one that other players have as well. Their messages leave the rest
of it as it is, wherever they come from (`Bot.sameButHidden_answer`). What they change in the
variables of the empty group a player does notice (`Bot.not_same_replies`), unless his messages have
nothing to do with these variables: then he gets the same replies as if the others had been silent,
and finds the same in all other variables (`Bot.private_conversations`).

Two runs of a bot in which a player meets the same dice and draws the same templates are compared by
giving each message its dice and its stream of templates (`Turn`).
-/

namespace DiceBot

namespace Records

/-- Records in which a seat sees the same, up to some hidden variables of its group. -/
structure SameButHidden (hidden : String → Prop) (seat : Seat) (r r' : Records) : Prop where
  boundCard? : r.boundCard? seat = r'.boundCard? seat
  legacy : r.legacy[seat.player]? = r'.legacy[seat.player]?
  playerMap : (r.playerMap? seat.player).getD ∅ = (r'.playerMap? seat.player).getD ∅
  seatMap : r.seatMap seat = r'.seatMap seat
  groupMap : ∀ name, ¬hidden name →
    ((r.groupMap? seat.group).getD ∅)[name]? = ((r'.groupMap? seat.group).getD ∅)[name]?

namespace SameButHidden

variable {hidden : String → Prop} {seat : Seat} {r r' r'' : Records}

theorem symm (h : r.SameButHidden hidden seat r') : r'.SameButHidden hidden seat r :=
  ⟨h.boundCard?.symm, h.legacy.symm, h.playerMap.symm, h.seatMap.symm,
    fun name hname => (h.groupMap name hname).symm⟩

theorem trans (h : r.SameButHidden hidden seat r') (h' : r'.SameButHidden hidden seat r'') :
    r.SameButHidden hidden seat r'' :=
  ⟨h.boundCard?.trans h'.boundCard?, h.legacy.trans h'.legacy, h.playerMap.trans h'.playerMap,
    h.seatMap.trans h'.seatMap,
    fun name hname => (h.groupMap name hname).trans (h'.groupMap name hname)⟩

theorem groupMap_eq (h : r.SameButHidden (fun _ => False) seat r') :
    (r.groupMap? seat.group).getD ∅ = (r'.groupMap? seat.group).getD ∅ :=
  Std.ExtTreeMap.ext_getElem? fun {name} => h.groupMap name id

theorem scopedAt (h : r.SameButHidden (fun _ => False) seat r') (transient : VariableMap)
    (aliases : Aliases) (templates : TemplateTable) :
    r.scopedAt seat transient aliases templates = r'.scopedAt seat transient aliases templates := by
  rw [Records.scopedAt, Records.scopedAt, h.playerMap, h.groupMap_eq, h.seatMap, h.legacy]

theorem setSeatMap (h : r.SameButHidden hidden seat r') (vars : VariableMap) :
    (r.setSeatMap seat vars).SameButHidden hidden seat (r'.setSeatMap seat vars) where
  boundCard? := by simpa [Records.boundCard?] using h.boundCard?
  legacy := by simpa using h.legacy
  playerMap := by simpa [playerMap?] using h.playerMap
  seatMap := by rw [Records.seatMap, Records.seatMap, seatMap?_setSeatMap, seatMap?_setSeatMap]
  groupMap name hname := by simpa [groupMap?] using h.groupMap name hname

theorem keep (h : r.SameButHidden hidden seat r') (s : Scoped) :
    (r.keep seat s).SameButHidden hidden seat (r'.keep seat s) where
  boundCard? := by simpa [Records.boundCard?] using h.boundCard?
  legacy := by simpa using h.legacy
  playerMap := by rw [playerMap?_keep, playerMap?_keep]
  seatMap := by rw [Records.seatMap, Records.seatMap, seatMap?_keep, seatMap?_keep]
  groupMap name _ := by rw [groupMap?_keep, groupMap?_keep]

end SameButHidden

/-- What another player does changes nothing for a seat but variables of its group. -/
theorem SameBeyond.sameButHidden {hidden : String → Prop} {seat other : Seat} {r r' : Records}
    (h : r.SameBeyond other r') (hplayer : seat.player ≠ other.player)
    (hgroup : ∀ name, ¬hidden name →
      ((r.groupMap? seat.group).getD ∅)[name]? = ((r'.groupMap? seat.group).getD ∅)[name]?) :
    r.SameButHidden hidden seat r' := by
  have hbound : r.boundCard? seat = r'.boundCard? seat := by
    rw [Records.boundCard?, Records.boundCard?, h.bindings]
  have howner : r'.localOwner seat = r.localOwner seat := by
    rw [localOwner, localOwner, hbound]
  -- of the owners that the seat uses only the group may be the other player's too
  have hlocal : r.localOwner seat ≠ .group seat.group := by
    unfold localOwner
    cases r.boundCard? seat <;> exact Owner.noConfusion
  have hmaps : ∀ owner ∈ r.owners seat, owner ≠ .group seat.group →
      r.mapOf? owner = r'.mapOf? owner := fun owner howner hne =>
    (h.mapOf? owner (not_mem_owners_of_ne_group hplayer hne howner)).symm
  refine ⟨hbound, by rw [h.legacy], ?_, ?_, hgroup⟩
  · exact congrArg (Option.getD · ∅) (hmaps (.player seat.player) (by simp [Records.owners])
      Owner.noConfusion)
  · rw [seatMap, seatMap, seatMap?_eq_mapOf?, seatMap?_eq_mapOf?, howner,
      hmaps _ (by simp [Records.owners]) hlocal]

end Records

namespace Bot

variable {δ : Type}

/-- States in which a seat sees the same, up to some hidden variables of its group, the dice and the
stream of the templates. -/
structure SameButHidden (hidden : String → Prop) (seat : Seat) (s t : Bot δ) : Prop where
  settings : s.settings = t.settings
  aliases : s.aliases = t.aliases
  candidates : s.templates.candidates = t.templates.candidates
  transient : s.transient = t.transient
  records : s.records.SameButHidden hidden seat t.records

namespace SameButHidden

variable {hidden : String → Prop} {seat : Seat} {s t u : Bot δ}

theorem symm (h : s.SameButHidden hidden seat t) : t.SameButHidden hidden seat s :=
  ⟨h.settings.symm, h.aliases.symm, h.candidates.symm, h.transient.symm, h.records.symm⟩

theorem trans (h : s.SameButHidden hidden seat t) (h' : t.SameButHidden hidden seat u) :
    s.SameButHidden hidden seat u :=
  ⟨h.settings.trans h'.settings, h.aliases.trans h'.aliases, h.candidates.trans h'.candidates,
    h.transient.trans h'.transient, h.records.trans h'.records⟩

theorem of_none (h : s.SameButHidden (fun _ => False) seat t) : s.SameButHidden hidden seat t :=
  ⟨h.settings, h.aliases, h.candidates, h.transient,
    ⟨h.records.boundCard?, h.records.legacy, h.records.playerMap, h.records.seatMap,
      fun name _ => h.records.groupMap name id⟩⟩

theorem refl (hidden : String → Prop) (seat : Seat) (s : Bot δ) : s.SameButHidden hidden seat s :=
  ⟨rfl, rfl, rfl, rfl, ⟨rfl, rfl, rfl, rfl, fun _ _ => rfl⟩⟩

theorem get? (h : s.SameButHidden hidden seat t) {name : String}
    (hname : Tier.ofName name = .group → ¬hidden name) :
    Variables.get? (s.world seat).vars name = Variables.get? (t.world seat).vars name := by
  show ((s.world seat).vars.tier (s.aliases.resolve name).1)[(s.aliases.resolve name).2]? =
    ((t.world seat).vars.tier (t.aliases.resolve name).1)[(t.aliases.resolve name).2]?
  rw [← h.aliases]
  unfold Aliases.resolve
  -- only the group tier has anything to hide
  cases htier : Tier.ofName name with
  | transient => exact congrArg (fun vars : VariableMap => vars[name]?) h.transient
  | player => exact congrArg (fun vars : VariableMap => vars[name]?) h.records.playerMap
  | group => exact h.records.groupMap name (hname htier)
  | seat =>
    exact congrArg (fun vars : VariableMap => vars[s.aliases.canonicalize name]?) h.records.seatMap

theorem legacy? (h : s.SameButHidden hidden seat t) (name : String) :
    Variables.legacy? (s.world seat).vars name = Variables.legacy? (t.world seat).vars name := by
  show ((s.records.legacy[seat.player]?).getD ∅)[(s.aliases.resolve name).2]? =
    ((t.records.legacy[seat.player]?).getD ∅)[(t.aliases.resolve name).2]?
  rw [h.aliases, h.records.legacy]

end SameButHidden

variable [DiceSource δ]

theorem mirrors_sameButHidden (seat : Seat) :
    Mirrors (δ := δ) seat fun s t => s.SameButHidden (fun _ => False) seat t ∧
      s.dice = t.dice ∧ s.templates = t.templates where
  settings _ _ h := h.1.settings
  aliases _ _ h := h.1.aliases
  seatMap _ _ h := h.1.records.seatMap
  transient s t f h := by
    refine ⟨⟨h.1.settings, h.1.aliases, h.1.candidates, ?_, h.1.records⟩, h.2⟩
    exact congrArg f h.1.transient
  pickTemplate name _ s t h := by
    unfold Bot.pickTemplate
    rw [← h.2.2]
    exact ⟨rfl, ⟨h.1.settings, h.1.aliases, rfl, h.1.transient, h.1.records⟩, h.2.1, rfl⟩
  runProgram p _ s t h _ := by
    obtain ⟨hsame, hdice, htemplates⟩ := h
    have hworld : s.world seat = t.world seat := by
      rw [world, world, hdice, hsame.transient, hsame.aliases, htemplates, hsame.records.scopedAt]
    have hkeep : ∀ w, (s.keep seat w).SameButHidden (fun _ => False) seat (t.keep seat w) :=
      fun w => ⟨hsame.settings, hsame.aliases, rfl, rfl, hsame.records.keep w.vars⟩
    unfold Bot.runProgram EStateM.run
    rw [← hsame.settings, ← hworld]
    cases s.settings.machine.evaluate p (s.world seat) with
    | ok e w => exact ⟨rfl, hkeep w, rfl, rfl⟩
    | error fault w => exact ⟨rfl, hkeep w, rfl, rfl⟩
  restrict s t vars _ h :=
    ⟨⟨h.1.settings, h.1.aliases, h.1.candidates, h.1.transient, h.1.records.setSeatMap vars⟩, h.2⟩

/-- Another player's message changes nothing for a seat but variables of its group. -/
theorem sameButHidden_answer {hidden : String → Prop} {seat : Seat} {message : Message} {s : Bot δ}
    (hs : s.transient = ∅) (hplayer : message.sender ≠ seat.player)
    (hgroup : ∀ name, ¬hidden name →
      ((s.records.groupMap? seat.group).getD ∅)[name]? =
        (((answer message s).2.records.groupMap? seat.group).getD ∅)[name]?) :
    s.SameButHidden hidden seat (answer message s).2 := by
  have hbeyond := sameBeyond_answer message s
  have htransient := preserves_transient_answer message s hs
  exact ⟨hbeyond.settings.symm, hbeyond.aliases.symm, hbeyond.candidates.symm,
    hs.trans htransient.symm, hbeyond.records.sameButHidden hplayer.symm hgroup⟩

end Bot

/-! ## Turns -/

/-- A message, and the dice and the stream of templates that it meets. -/
structure Turn (δ : Type) where
  message : Message
  dice : δ
  stream : Keystream

namespace Bot

variable {δ : Type}

def dealt (s : Bot δ) (T : Turn δ) : Bot δ :=
  { s with dice := T.dice, templates := { s.templates with stream := T.stream } }

def withGroup (s : Bot δ) (group : String) (vars : VariableMap) : Bot δ :=
  { s with records := { s.records with groups := s.records.groups.insert group vars } }

variable [DiceSource δ]

def take (s : Bot δ) (T : Turn δ) : Option String × Bot δ := answer T.message (s.dealt T)

def afterTurns : List (Turn δ) → Bot δ → Bot δ
  | [], s => s
  | T :: turns, s => afterTurns turns (s.take T).2

/-- The replies that a player gets. -/
def repliesTo (player : String) : List (Turn δ) → Bot δ → List (Option String)
  | [], _ => []
  | T :: turns, s =>
      if T.message.sender = player then (s.take T).1 :: repliesTo player turns (s.take T).2
      else repliesTo player turns (s.take T).2

/-- The message of the turn has nothing to do with hidden variables of the group at a seat: whatever
they were, it would get the same reply and leave the same, up to these variables. -/
def Indifferent (hidden : String → Prop) (seat : Seat) (s : Bot δ) (T : Turn δ) : Prop :=
  ∀ vars : VariableMap,
    (∀ name, ¬hidden name → vars[name]? = ((s.records.groupMap? seat.group).getD ∅)[name]?) →
    ((s.withGroup seat.group vars).take T).1 = (s.take T).1 ∧
      ((s.withGroup seat.group vars).take T).2.SameButHidden hidden seat (s.take T).2

/-- Turns which leave the seat undisturbed: its player only writes there, and his messages have
nothing to do with the hidden variables of the group; what others change in the variables of the
group is hidden. -/
def Undisturbed (hidden : String → Prop) (seat : Seat) : List (Turn δ) → Bot δ → Prop
  | [], _ => True
  | T :: turns, s =>
      (T.message.sender = seat.player → T.message.group = seat.group ∧
        s.Indifferent hidden seat T) ∧
      (T.message.sender ≠ seat.player → ∀ name, ¬hidden name →
        ((s.records.groupMap? seat.group).getD ∅)[name]? =
          (((s.take T).2.records.groupMap? seat.group).getD ∅)[name]?) ∧
      Undisturbed hidden seat turns (s.take T).2

section Turns

variable {hidden : String → Prop} {seat : Seat} {s t : Bot δ} {T : Turn δ}

omit [DiceSource δ] in
theorem SameButHidden.dealt (h : s.SameButHidden hidden seat t) (T : Turn δ) :
    (s.dealt T).SameButHidden hidden seat (t.dealt T) :=
  ⟨h.settings, h.aliases, h.candidates, h.transient, h.records⟩

theorem transient_take (hs : s.transient = ∅) (T : Turn δ) : (s.take T).2.transient = ∅ := by
  unfold Bot.take
  exact preserves_transient_answer T.message (s.dealt T) hs

/-- In the same turn a player is answered the same where he sees the same. -/
theorem SameButHidden.take (h : s.SameButHidden (fun _ => False) seat t)
    (hseat : T.message.seat = seat) :
    (s.take T).1 = (t.take T).1 ∧
      (s.take T).2.SameButHidden (fun _ => False) seat (t.take T).2 := by
  subst hseat
  have htemplates : (s.dealt T).templates = (t.dealt T).templates :=
    congrArg (TemplateTable.mk · T.stream) h.candidates
  have hmirrors := mirrors_sameButHidden (δ := δ) T.message.seat
  obtain ⟨hreply, hstate, -⟩ := hmirrors.answer (s.dealt T) (t.dealt T) ⟨h.dealt T, rfl, htemplates⟩
  exact ⟨hreply, hstate⟩

theorem sameButHidden_take (hs : s.transient = ∅) (hplayer : T.message.sender ≠ seat.player)
    (hgroup : ∀ name, ¬hidden name → ((s.records.groupMap? seat.group).getD ∅)[name]? =
      (((s.take T).2.records.groupMap? seat.group).getD ∅)[name]?) :
    s.SameButHidden hidden seat (s.take T).2 := by
  unfold Bot.take at hgroup ⊢
  have hdealt : s.SameButHidden hidden seat (s.dealt T) :=
    ⟨rfl, rfl, rfl, rfl, ⟨rfl, rfl, rfl, rfl, fun _ _ => rfl⟩⟩
  have htransient : (s.dealt T).transient = ∅ := hs
  exact hdealt.trans (sameButHidden_answer htransient hplayer hgroup)

omit [DiceSource δ] in
theorem groupMap?_withGroup (s : Bot δ) (group : String) (vars : VariableMap) :
    (s.withGroup group vars).records.groupMap? group = some vars :=
  Std.ExtTreeMap.getElem?_insert_self

omit [DiceSource δ] in
theorem SameButHidden.withGroup (h : s.SameButHidden hidden seat t) :
    (s.withGroup seat.group ((t.records.groupMap? seat.group).getD ∅)).SameButHidden
      (fun _ => False) seat t := by
  refine ⟨h.settings, h.aliases, h.candidates, h.transient, ⟨h.records.boundCard?, h.records.legacy,
    h.records.playerMap, h.records.seatMap, fun name _ => ?_⟩⟩
  rw [groupMap?_withGroup, Option.getD_some]

/-- A turn that is indifferent to what is hidden is the same turn where something else is hidden. -/
theorem Indifferent.take (h : s.Indifferent hidden seat T) (hseat : T.message.seat = seat)
    (hsame : s.SameButHidden hidden seat t) :
    (s.take T).1 = (t.take T).1 ∧ (s.take T).2.SameButHidden hidden seat (t.take T).2 := by
  -- by way of the first state with the group's variables of the second one
  obtain ⟨hreply, hstate⟩ := h _ fun name hname => (hsame.records.groupMap name hname).symm
  obtain ⟨hreply', hstate'⟩ := hsame.withGroup.take hseat
  exact ⟨hreply.symm.trans hreply', hstate.symm.trans hstate'.of_none⟩

theorem indifferent_of_none (s : Bot δ) (hseat : T.message.seat = seat) :
    s.Indifferent (fun _ => False) seat T := by
  intro vars hvars
  have hsame : (s.withGroup seat.group vars).SameButHidden (fun _ => False) seat s := by
    refine ⟨rfl, rfl, rfl, rfl, ⟨rfl, rfl, rfl, rfl, fun name hname => ?_⟩⟩
    rw [groupMap?_withGroup, Option.getD_some, hvars name hname]
  exact hsame.take hseat

/-- A player whose seat is left undisturbed gets the replies that he would get alone. -/
theorem Undisturbed.replies {turns : List (Turn δ)} (h : s.Undisturbed hidden seat turns)
    (hs : s.transient = ∅) (hsame : s.SameButHidden hidden seat t) :
    repliesTo seat.player turns s =
        repliesTo seat.player (turns.filter (·.message.sender = seat.player)) t ∧
      (afterTurns turns s).SameButHidden hidden seat
        (afterTurns (turns.filter (·.message.sender = seat.player)) t) := by
  induction turns generalizing s t with
  | nil => exact ⟨rfl, hsame⟩
  | cons T turns ih =>
    obtain ⟨hplayer, hother, hrest⟩ := h
    have hs' : (s.take T).2.transient = ∅ := transient_take hs T
    by_cases hsender : T.message.sender = seat.player
    · -- both states answer the player's message, and do the same
      obtain ⟨hgroup, hindifferent⟩ := hplayer hsender
      have hseat : T.message.seat = seat := by
        rw [Message.seat, hgroup, hsender]
      obtain ⟨hreply, hsame'⟩ := hindifferent.take hseat hsame
      obtain ⟨hreplies, hstates⟩ := ih hrest hs' hsame'
      rw [List.filter_cons_of_pos (by simpa using hsender), afterTurns, afterTurns]
      refine ⟨?_, hstates⟩
      rw [repliesTo, repliesTo, if_pos hsender, if_pos hsender, hreply, hreplies]
    · -- only the first state gets the message, which the seat does not see
      have hsame' : (s.take T).2.SameButHidden hidden seat t :=
        (sameButHidden_take hs hsender (hother hsender)).symm.trans hsame
      rw [List.filter_cons_of_neg (by simpa using hsender), afterTurns, repliesTo, if_neg hsender]
      exact ih hrest hs' hsame'

end Turns

/-- In private conversations other players' messages change nothing for a player but variables of
the group without a name. As long as it is the hidden ones of these that they change, and his own
messages have nothing to do with hidden variables, he gets the replies that he would get if the
others had been silent, and so he reads the same everywhere else. With none hidden his messages
never have to do with them. -/
theorem private_conversations (player : String) :
    (∀ (message : Message) (s : Bot δ), s.transient = ∅ → message.sender ≠ player →
      s.SameButHidden (fun _ => True) ⟨"", player⟩ (answer message s).2) ∧
    (∀ (T : Turn δ) (s : Bot δ), T.message.sender = player → T.message.group = "" →
      s.Indifferent (fun _ => False) ⟨"", player⟩ T) ∧
    ∀ (hidden : String → Prop) (turns : List (Turn δ)) (s : Bot δ), s.transient = ∅ →
      s.Undisturbed hidden ⟨"", player⟩ turns →
      let alone := turns.filter (·.message.sender = player)
      repliesTo player turns s = repliesTo player alone s ∧
        ∀ name, ((Tier.ofName name = .group → ¬hidden name) →
            Variables.get? ((afterTurns turns s).world ⟨"", player⟩).vars name =
              Variables.get? ((afterTurns alone s).world ⟨"", player⟩).vars name) ∧
          Variables.legacy? ((afterTurns turns s).world ⟨"", player⟩).vars name =
            Variables.legacy? ((afterTurns alone s).world ⟨"", player⟩).vars name := by
  refine ⟨fun message s hs hplayer => ?_, fun T s hsender hgroup => ?_, ?_⟩
  · exact sameButHidden_answer hs hplayer fun name hname => absurd trivial hname
  · exact indifferent_of_none s (by rw [Message.seat, hgroup, hsender])
  · intro hidden turns s hs h alone
    obtain ⟨hreplies, hstates⟩ := h.replies hs (.refl hidden ⟨"", player⟩ s)
    exact ⟨hreplies, fun name => ⟨fun hname => hstates.get? hname, hstates.legacy? name⟩⟩

/-- What another player assigns to a variable of his own makes no difference. -/
theorem private_conversations_own_variable :
    let s : Bot ScriptedDice := start {} ⟨[]⟩ 8
    let words : Keystream := { key := Vector.replicate 8 0, pending := List.replicate 8 0 }
    let theirs : Turn ScriptedDice := ⟨{ text := ".r $mX=5", sender := "b" }, ⟨[]⟩, words⟩
    let own : Turn ScriptedDice := ⟨{ text := ".r $gX", sender := "a" }, ⟨[]⟩, words⟩
    repliesTo "a" [theirs, own] s = repliesTo "a" [own] s := by
  intro s words theirs own
  obtain ⟨-, hown, hruns⟩ := private_conversations (δ := ScriptedDice) "a"
  have hgroup : (s.records.groupMap? "").getD ∅ =
      ((s.take theirs).2.records.groupMap? "").getD ∅ := by decide +kernel
  have hundisturbed : s.Undisturbed (fun _ => False) ⟨"", "a"⟩ [theirs, own] := by
    refine ⟨fun hsender => absurd hsender (by decide), fun _ name _ => ?_,
      fun _ => ⟨rfl, hown own _ rfl rfl⟩, fun hsender => absurd rfl hsender, trivial⟩
    exact congrArg (fun vars : VariableMap => vars[name]?) hgroup
  exact (hruns (fun _ => False) [theirs, own] s rfl hundisturbed).1

/-! ## The variables of the empty group -/

/-- With fixed templates the stream does not matter. -/
theorem SameButTemplates.repliesTo {s t : Bot δ} (h : s.SameButTemplates (fun _ => True) t)
    (player : String) (stream : Keystream) (turns : List (Turn δ)) :
    repliesTo player turns s =
      repliesTo player (turns.map fun T => { T with stream }) t := by
  induction turns generalizing s t with
  | nil => rfl
  | cons T turns ih =>
    have hdealt : (s.dealt T).SameButTemplates (fun _ => True) (t.dealt { T with stream }) := by
      refine ⟨?_, ⟨h.templates.get?, h.templates.fixed⟩⟩
      exact congrArg (fun t' : Bot δ => t'.dealt { T with stream }) h.eq
    obtain ⟨hreply, hstate⟩ := hdealt.answer T.message fun _ _ => trivial
    rw [List.map_cons, Bot.repliesTo, Bot.repliesTo]
    unfold Bot.take
    rw [hreply, ih hstate]

/-- A player does notice when another one assigns a group variable in private. -/
theorem not_same_replies :
    ¬∀ (settings : Settings) (dice : ScriptedDice) (templateSeed : UInt64) (events : List Event)
      (player other : String) (turns : List (Turn ScriptedDice)), player ≠ other →
      (∀ T ∈ turns, T.message.group = "" ∧
        (T.message.sender = player ∨ T.message.sender = other)) →
      let s := (start settings dice templateSeed).afterAll events
      repliesTo player turns s =
        repliesTo player (turns.filter (·.message.sender = player)) s := by
  intro hclaim
  -- one template of one text, so that it does not matter what is drawn
  let candidate : Candidate := ⟨Replies.hole "$tResultText", 1⟩
  let events : List Event :=
    [.templates fun _ => (TemplateTable.ofSeed 8).set "core:roll" [candidate]]
  let s : Bot ScriptedDice := (start {} ⟨[]⟩ 8).afterAll events
  let turns : List (Turn ScriptedDice) :=
    [⟨{ text := ".r $gX=5", sender := "b" }, ⟨[]⟩, .ofSeed 9⟩,
      ⟨{ text := ".r $gX", sender := "a" }, ⟨[]⟩, .ofSeed 10⟩]
  have hsame : repliesTo "a" turns s =
      repliesTo "a" (turns.filter (·.message.sender = "a")) s :=
    hclaim {} ⟨[]⟩ 8 events "a" "b" turns (by decide) (by decide)
  -- all templates are fixed, so any words may be drawn
  let zeros : Keystream := { key := Vector.replicate 8 0, pending := List.replicate 8 0 }
  have htable : ∀ name, s.templates.Fixed name :=
    TemplateTable.fixed_of_toList (by decide +kernel)
  have hfixed : s.SameButTemplates (fun _ => True) s :=
    ⟨rfl, fun _ _ => rfl, fun name _ => htable name⟩
  rw [hfixed.repliesTo "a" zeros, hfixed.repliesTo "a" zeros] at hsame
  exact absurd hsame (by decide +kernel)

end Bot

end DiceBot
