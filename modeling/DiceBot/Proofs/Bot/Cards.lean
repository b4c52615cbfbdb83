import DiceBot.Proofs.Bot.Isolation
import DiceBot.Proofs.Memory.Bindings

/-!
# Cards at seats

What becomes of cards and of the maps of seats while a bot is spoken to and cards are bound and
unbound in between. The card that a binding names is there (`Bot.cardsExist_afterAll`). A seat's own
map is out of reach while a card is bound there, and so it is found again as it was left
(`Bot.seatMap?_after_unbind`). All that reads or writes the map of a seat means the map of one owner
(`Bot.UsesOneMap`), and if that is a card it is shared by all seats where its player has it bound,
and by no one else (`Bot.bound_cards`).
-/

namespace DiceBot

namespace Event

/-- The message that is answered, or at whose seat a source is evaluated. -/
def message? : Event → Option Message
  | .message m => some m
  | .evaluation _ m => some m
  | _ => none

/-- The seat that an event takes place at, if it takes place at one. -/
def seat? : Event → Option Seat
  | .message m => some m.seat
  | .evaluation _ m => some m.seat
  | .bind seat _ => some seat
  | .unbind seat => some seat
  | _ => none

end Event

namespace Bot

variable {δ : Type} [DiceSource δ] {s : Bot δ} {seat : Seat}

theorem runProgram_eq_keep (seat : Seat) (p : Program) (s : Bot δ) :
    (runProgram seat p s).2 =
      s.keep seat (Eval.after (s.settings.machine.evaluate p) (s.world seat)) := by
  unfold Bot.runProgram EStateM.run Eval.after
  cases s.settings.machine.evaluate p (s.world seat) with
  | ok e w => rfl
  | error fault w => rfl

/-! ## Cards that there are -/

theorem keeps_cardsExist : Keeps fun s : Bot δ => s.records.CardsExist where
  transient _ _ hs := hs
  pick _ _ hs := hs
  runProgram seat p _ s hs := by
    rw [runProgram_eq_keep]
    exact hs.keep seat _
  restrict _ seat vars _ hs := hs.setSeatMap seat vars

theorem cardsExist_after (h : s.records.CardsExist) (event : Event) :
    (s.after event).records.CardsExist := by
  cases event with
  | message message =>
    rw [Bot.after]
    exact keeps_cardsExist.answer message s h
  | evaluation source message =>
    rw [Bot.after]
    exact keeps_cardsExist.evaluate source message s h
  | bind seat card => exact h.bind seat card
  | unbind seat => exact h.unbind seat
  | legacy | templates | aliases => exact h

theorem cardsExist_afterAll (settings : Settings) (dice : δ) (templateSeed : UInt64)
    (events : List Event) :
    ((start settings dice templateSeed).afterAll events).records.CardsExist := by
  have hfrom : ∀ s : Bot δ, s.records.CardsExist → (s.afterAll events).records.CardsExist := by
    induction events with
    | nil => exact fun s h => h
    | cons event events ih => exact fun s h => ih _ (cardsExist_after h event)
  exact hfrom _ Records.cardsExist_empty

/-! ## What events leave alone -/

/-- A message binds and unbinds nothing, and writes only to the owners of its seat. -/
theorem sameBeyond_after {event : Event} {message : Message} (h : event.message? = some message) :
    s.SameBeyond message.seat (s.after event) := by
  cases event with
  | message m =>
    obtain rfl : m = message := Option.some.inj h
    rw [Bot.after]
    exact sameBeyond_answer m s
  | evaluation source m =>
    obtain rfl : m = message := Option.some.inj h
    rw [Bot.after]
    exact sameBeyond_evaluate source m s
  | bind | unbind | legacy | templates | aliases => cases h

/-- While a card is bound at a seat, the seat's own map is out of reach. -/
theorem ownMap_after (hbound : (s.records.boundCard? seat).isSome) {event : Event}
    (hevent : event ≠ .unbind seat) :
    ((s.after event).records.boundCard? seat).isSome ∧
      (s.after event).records.mapOf? (.seat seat) = s.records.mapOf? (.seat seat) := by
  have hmessage : ∀ message : Message, event.message? = some message →
      ((s.after event).records.boundCard? seat).isSome ∧
        (s.after event).records.mapOf? (.seat seat) = s.records.mapOf? (.seat seat) := by
    intro message h
    have hbeyond := (sameBeyond_after (s := s) h).records
    refine ⟨by rwa [Records.boundCard?, hbeyond.bindings], hbeyond.mapOf? _ fun howner => ?_⟩
    -- it could only be the message of this seat, and that one uses the card
    obtain ⟨rfl, hnone⟩ := Records.seat_mem_owners_iff.mp howner
    rw [hnone] at hbound
    cases hbound
  cases event with
  | message message => exact hmessage message rfl
  | evaluation source message => exact hmessage message rfl
  | bind other card =>
    -- another card may be bound at the seat itself
    refine ⟨?_, (s.records.mapOf?_bind other card (.seat seat)).trans (if_neg Owner.noConfusion)⟩
    show ((s.records.bind other card).boundCard? seat).isSome
    rw [Records.boundCard?_bind]
    split
    · rfl
    · exact hbound
  | unbind other =>
    have hother : seat ≠ other := fun heq => hevent (heq ▸ rfl)
    refine ⟨?_, s.records.mapOf?_unbind other (.seat seat)⟩
    show ((s.records.unbind other).boundCard? seat).isSome
    rwa [Records.boundCard?_unbind, if_neg hother]
  | legacy | templates | aliases => exact ⟨hbound, rfl⟩

theorem ownMap_afterAll (hbound : (s.records.boundCard? seat).isSome) {events : List Event}
    (hevents : .unbind seat ∉ events) :
    (s.afterAll events).records.mapOf? (.seat seat) = s.records.mapOf? (.seat seat) := by
  induction events generalizing s with
  | nil => rfl
  | cons event events ih =>
    rw [List.mem_cons, not_or] at hevents
    obtain ⟨hbound', hown⟩ := ownMap_after hbound fun heq => hevents.1 heq.symm
    exact (ih hbound' hevents.2).trans hown

/-- The map of a card is written at seats of its player only. -/
theorem card_after {card : Card} {event : Event}
    (hevent : ∀ seat, event.seat? = some seat → seat.player ≠ card.player) :
    (s.after event).records.mapOf? (.card card) = s.records.mapOf? (.card card) := by
  have hmessage : ∀ message : Message, event.message? = some message →
      message.seat.player ≠ card.player →
      (s.after event).records.mapOf? (.card card) = s.records.mapOf? (.card card) := by
    intro message h hplayer
    refine (sameBeyond_after h).records.mapOf? _ fun howner => ?_
    exact hplayer (Records.card_mem_owners_iff.mp howner).1.symm
  cases event with
  | message message => exact hmessage message rfl (hevent _ rfl)
  | evaluation source message => exact hmessage message rfl (hevent _ rfl)
  | bind other name =>
    have hne : Owner.card card ≠ .card ⟨other.player, name⟩ := fun heq =>
      hevent other rfl (congrArg Card.player (Owner.card.inj heq)).symm
    exact (s.records.mapOf?_bind other name (.card card)).trans (if_neg hne)
  | unbind other => exact s.records.mapOf?_unbind other (.card card)
  | legacy | templates | aliases => rfl

/-- What happens at seats leaves the aliases and the older records as they are. -/
theorem aliases_legacy_after {event : Event} (hevent : event.seat?.isSome) :
    (s.after event).aliases = s.aliases ∧ (s.after event).records.legacy = s.records.legacy := by
  have hmessage : ∀ message : Message, event.message? = some message →
      (s.after event).aliases = s.aliases ∧ (s.after event).records.legacy = s.records.legacy :=
    fun message h => ⟨(sameBeyond_after h).aliases, (sameBeyond_after h).records.legacy⟩
  cases event with
  | message message => exact hmessage message rfl
  | evaluation source message => exact hmessage message rfl
  | bind | unbind => exact ⟨rfl, rfl⟩
  | legacy | templates | aliases => cases hevent

theorem aliases_legacy_afterAll {events : List Event}
    (hevents : ∀ event ∈ events, event.seat?.isSome) :
    (s.afterAll events).aliases = s.aliases ∧
      (s.afterAll events).records.legacy = s.records.legacy := by
  induction events generalizing s with
  | nil => exact ⟨rfl, rfl⟩
  | cons event events ih =>
    obtain ⟨hfirst, hrest⟩ := List.forall_mem_cons.mp hevents
    obtain ⟨haliases, hlegacy⟩ := aliases_legacy_after (s := s) hfirst
    obtain ⟨haliases', hlegacy'⟩ := ih (s := s.after event) hrest
    exact ⟨haliases'.trans haliases, hlegacy'.trans hlegacy⟩

/-! ## The map used at a seat -/

omit [DiceSource δ] in
theorem get?_of_seat (s : Bot δ) (seat : Seat) {name : String} (h : Tier.ofName name = .seat) :
    Variables.get? (s.world seat).vars name =
      (s.records.seatMap? seat).bind fun vars => vars[s.aliases.canonicalize name]? := by
  rw [Scoped.get?_of_seat h]
  show ((s.records.seatMap? seat).getD ∅)[s.aliases.canonicalize name]? = _
  cases s.records.seatMap? seat with
  | none => exact Std.ExtTreeMap.getElem?_empty
  | some vars => rfl

omit [DiceSource δ] in
theorem legacy?_world (s : Bot δ) (seat : Seat) (name : String) :
    Variables.legacy? (s.world seat).vars name =
      ((s.records.legacy[seat.player]?).getD ∅)[(s.aliases.resolve name).2]? := rfl

/-- All that is done with the map of a seat is done with the map of one owner. -/
structure UsesOneMap (s : Bot δ) (seat : Seat) (owner : Owner) : Prop where
  listed : s.records.seatMap? seat = s.records.mapOf? owner
  read : ∀ name, Tier.ofName name = .seat → Variables.get? (s.world seat).vars name =
    (s.records.mapOf? owner).bind fun vars => vars[s.aliases.canonicalize name]?
  run : ∀ p, (runProgram seat p s).2.records.mapOf? owner =
    some (Eval.after (s.settings.machine.evaluate p) (s.world seat)).vars.seat
  replaced : ∀ vars, (setSeatMap seat vars s).2.records.mapOf? owner = some vars
  others : ∀ (event : Event) (message : Message), event.message? = some message →
    message.seat = seat → (s.after event).records.localOwner seat = owner ∧
      ∀ other, other ≠ .player seat.player → other ≠ .group seat.group → other ≠ owner →
        (s.after event).records.mapOf? other = s.records.mapOf? other

theorem usesOneMap (s : Bot δ) (seat : Seat) : s.UsesOneMap seat (s.records.localOwner seat) where
  listed := s.records.seatMap?_eq_mapOf? seat
  read name hname := by
    rw [← Records.seatMap?_eq_mapOf?]
    exact s.get?_of_seat seat hname
  run p := by
    rw [runProgram_eq_keep]
    show (s.records.keep seat _).mapOf? (s.records.localOwner seat) = _
    -- the local map is kept beside those of the player and the group
    have hlocal : s.records.localOwner seat ≠ .player seat.player ∧
        s.records.localOwner seat ≠ .group seat.group := by
      unfold Records.localOwner
      cases s.records.boundCard? seat <;> exact ⟨Owner.noConfusion, Owner.noConfusion⟩
    rw [Records.mapOf?_keep, if_neg hlocal.1, if_neg hlocal.2, if_pos rfl]
  replaced vars := by
    show (s.records.setSeatMap seat vars).mapOf? (s.records.localOwner seat) = _
    rw [Records.mapOf?_setSeatMap, if_pos rfl]
  others event message hmessage hseat := by
    have hbeyond : s.records.SameBeyond seat (s.after event).records :=
      hseat ▸ (sameBeyond_after hmessage).records
    refine ⟨?_, fun other hplayer hgroup hother => hbeyond.mapOf? other ?_⟩
    · rw [Records.localOwner, Records.boundCard?, hbeyond.bindings]
      rfl
    · simp [Records.owners, hplayer, hgroup, hother]

/-- After its card is taken away a seat has the map again that it had before. -/
theorem seatMap?_after_unbind (hnone : s.records.boundCard? seat = none) (card : String)
    {events : List Event} (hevents : .unbind seat ∉ events) :
    (((s.after (.bind seat card)).afterAll events).after (.unbind seat)).records.seatMap? seat =
      s.records.seatMap? seat := by
  let bound : Bot δ := s.after (.bind seat card)
  have hbound : (bound.records.boundCard? seat).isSome := by
    show ((s.records.bind seat card).boundCard? seat).isSome
    rw [Records.boundCard?_bind, if_pos rfl]
    rfl
  have hunbound : ((bound.afterAll events).records.unbind seat).boundCard? seat = none := by
    rw [Records.boundCard?_unbind, if_pos rfl]
  show ((bound.afterAll events).records.unbind seat).seatMap? seat = _
  calc ((bound.afterAll events).records.unbind seat).seatMap? seat
      = (bound.afterAll events).records.mapOf? (.seat seat) := by
        rw [Records.seatMap?_eq_mapOf?, Records.localOwner_of_unbound hunbound,
          Records.mapOf?_unbind]
    _ = bound.records.mapOf? (.seat seat) := ownMap_afterAll hbound hevents
    _ = s.records.mapOf? (.seat seat) :=
        (s.records.mapOf?_bind seat card (.seat seat)).trans (if_neg Owner.noConfusion)
    _ = s.records.seatMap? seat := by
        rw [Records.seatMap?_eq_mapOf?, Records.localOwner_of_unbound hnone]

theorem localOwner_eq_of_same_card {seat' : Seat} {r : Records}
    (hplayer : seat.player = seat'.player) {card : String}
    (h : r.boundCard? seat = some card) (h' : r.boundCard? seat' = some card) :
    r.localOwner seat' = r.localOwner seat := by
  rw [Records.localOwner_of_bound h, Records.localOwner_of_bound h', hplayer]

/-- From its start on, whatever happens to a bot, every card that is bound is there. While a card is
bound at a seat nothing changes the seat's own map, and once the card is taken away the seat reads
what it read before. All that reads, lists or writes the map of a seat means the map of one owner.
Two seats of a player with the same card read the same, right after either has written, and what
happens at other players' seats does not change a card. -/
theorem bound_cards (settings : Settings) (dice : δ) (templateSeed : UInt64)
    (events : List Event) :
    let s := (start settings dice templateSeed).afterAll events
    (∀ seat card, s.records.boundCard? seat = some card →
      (s.records.cards[Card.mk seat.player card]?).isSome) ∧
    (∀ seat more, (s.records.boundCard? seat).isSome → .unbind seat ∉ more →
      (s.afterAll more).records.seats[seat]? = s.records.seats[seat]?) ∧
    (∀ seat card more, s.records.boundCard? seat = none → .unbind seat ∉ more →
      (∀ event ∈ more, event.seat?.isSome) →
      let s' := ((s.after (.bind seat card)).afterAll more).after (.unbind seat)
      s'.records.seatMap? seat = s.records.seatMap? seat ∧
        ∀ name, Tier.ofName name = .seat →
          Variables.get? (s'.world seat).vars name = Variables.get? (s.world seat).vars name ∧
          Variables.legacy? (s'.world seat).vars name =
            Variables.legacy? (s.world seat).vars name) ∧
    (∀ seat, s.UsesOneMap seat (s.records.localOwner seat)) ∧
    (∀ (seat seat' : Seat) card, seat.player = seat'.player →
      s.records.boundCard? seat = some card → s.records.boundCard? seat' = some card →
      (∀ name, Tier.ofName name = .seat →
        Variables.get? (s.world seat').vars name = Variables.get? (s.world seat).vars name) ∧
      ∀ p, (runProgram seat p s).2.records.seatMap? seat' =
        some (Eval.after (s.settings.machine.evaluate p) (s.world seat)).vars.seat) ∧
    (∀ (card : Card) (event : Event),
      (∀ seat, event.seat? = some seat → seat.player ≠ card.player) →
      (s.after event).records.cards[card]? = s.records.cards[card]?) := by
  intro s
  refine ⟨cardsExist_afterAll settings dice templateSeed events,
    fun seat more hbound hmore => ownMap_afterAll hbound hmore, ?_, s.usesOneMap, ?_,
    fun card event hevent => card_after hevent⟩
  · intro seat card more hnone hmore hseats s'
    have hmap : s'.records.seatMap? seat = s.records.seatMap? seat :=
      seatMap?_after_unbind hnone card hmore
    obtain ⟨haliases, hlegacy⟩ : s'.aliases = s.aliases ∧ s'.records.legacy = s.records.legacy :=
      aliases_legacy_afterAll (s := s.after (.bind seat card)) hseats
    refine ⟨hmap, fun name hname => ⟨?_, ?_⟩⟩
    · rw [s'.get?_of_seat seat hname, s.get?_of_seat seat hname, hmap, haliases]
    · rw [s'.legacy?_world, s.legacy?_world, haliases, hlegacy]
  · intro seat seat' card hplayer h h'
    -- both seats mean the map of the card, so whatever one of them does is seen at the other
    have howner := localOwner_eq_of_same_card hplayer h h'
    refine ⟨fun name hname => ?_, fun p => ?_⟩
    · rw [(s.usesOneMap seat').read name hname, (s.usesOneMap seat).read name hname, howner]
    · have hrun := (s.usesOneMap seat).run p
      have hbindings : (runProgram seat p s).2.records.bindings = s.records.bindings := by
        rw [runProgram_eq_keep]
        exact Records.bindings_keep s.records seat _
      have howner' :
          (runProgram seat p s).2.records.localOwner seat' = s.records.localOwner seat := by
        rw [← howner, Records.localOwner, Records.localOwner, Records.boundCard?, hbindings]
        rfl
      rw [Records.seatMap?_eq_mapOf?, howner', hrun]

/-- A card at two seats of a player, and a third seat that has it for a while. -/
theorem bound_cards_two_seats :
    let s : Bot ScriptedDice :=
      (start {} {} 0).afterAll [.bind ⟨"g", "a"⟩ "hero", .bind ⟨"", "a"⟩ "hero"]
    let more : List Event :=
      [.evaluation "hp=5" { text := "", group := "h", sender := "a" }, .bind ⟨"h", "b"⟩ "hero"]
    let s' := ((s.after (.bind ⟨"h", "a"⟩ "hero")).afterAll more).after (.unbind ⟨"h", "a"⟩)
    (s.records.cards[Card.mk "a" "hero"]?).isSome ∧
      (s.afterAll more).records.seats[Seat.mk "g" "a"]? = s.records.seats[Seat.mk "g" "a"]? ∧
      Variables.get? (s'.world ⟨"h", "a"⟩).vars "hp" =
        Variables.get? (s.world ⟨"h", "a"⟩).vars "hp" ∧
      Variables.get? (s.world ⟨"", "a"⟩).vars "hp" =
        Variables.get? (s.world ⟨"g", "a"⟩).vars "hp" ∧
      (s.after (.bind ⟨"h", "b"⟩ "hero")).records.cards[Card.mk "a" "hero"]? =
        s.records.cards[Card.mk "a" "hero"]? := by
  intro s more s'
  have hgroup : s.records.boundCard? ⟨"g", "a"⟩ = some "hero" := by decide +kernel
  have hprivate : s.records.boundCard? ⟨"", "a"⟩ = some "hero" := by decide +kernel
  have hnone : s.records.boundCard? ⟨"h", "a"⟩ = none := by decide +kernel
  obtain ⟨hexist, hown, hagain, -, hshared, hothers⟩ := bound_cards {} ({} : ScriptedDice) 0
    [.bind ⟨"g", "a"⟩ "hero", .bind ⟨"", "a"⟩ "hero"]
  refine ⟨hexist _ _ hgroup, hown _ more (by rw [hgroup]; rfl) (by simp [more]), ?_, ?_, ?_⟩
  · exact (hagain _ "hero" more hnone (by simp [more]) (by simp [more, Event.seat?])).2 "hp"
      (by decide) |>.1
  · exact (hshared _ _ "hero" rfl hgroup hprivate).1 "hp" (by decide)
  · refine hothers ⟨"a", "hero"⟩ (.bind ⟨"h", "b"⟩ "hero") fun seat hseat => ?_
    obtain rfl := Option.some.inj hseat
    decide

end Bot

end DiceBot
