import DiceBot.Memory.Scoped
import DiceBot.Memory.Seat

/-!
# Records

What is kept between commands: a map for each player, each group, each seat and each card, which
card is bound at which seat, and the integers of older records. While a card is bound at a seat,
its map takes the place of the seat's own.
-/

namespace DiceBot

/-- What is kept between commands. -/
structure Records where
  players : Std.ExtTreeMap String VariableMap := ∅
  groups : Std.ExtTreeMap String VariableMap := ∅
  seats : Std.ExtTreeMap Seat VariableMap := ∅
  cards : Std.ExtTreeMap Card VariableMap := ∅
  bindings : Std.ExtTreeMap Seat String := ∅
  legacy : Std.ExtTreeMap String LegacyMap := ∅
  deriving DecidableEq

namespace Records

/-- The card bound at a seat. -/
def boundCard? (r : Records) (seat : Seat) : Option String := r.bindings[seat]?

/-- The map used at a seat, if it exists: that of the bound card, or the seat's own. -/
def seatMap? (r : Records) (seat : Seat) : Option VariableMap :=
  match r.boundCard? seat with
  | some card => r.cards[Card.mk seat.player card]?
  | none => r.seats[seat]?

/-- The map used at a seat, empty if it does not exist. -/
def seatMap (r : Records) (seat : Seat) : VariableMap := (r.seatMap? seat).getD ∅

/-- Replaces the map used at a seat. -/
def setSeatMap (r : Records) (seat : Seat) (vars : VariableMap) : Records :=
  match r.boundCard? seat with
  | some card => { r with cards := r.cards.insert ⟨seat.player, card⟩ vars }
  | none => { r with seats := r.seats.insert seat vars }

/-- The map of a player, if it exists. -/
def playerMap? (r : Records) (player : String) : Option VariableMap := r.players[player]?

/-- The map of a group, if it exists. -/
def groupMap? (r : Records) (group : String) : Option VariableMap := r.groups[group]?

/-- What a command at a seat sees. -/
def scopedAt (r : Records) (seat : Seat) (transient : VariableMap) (aliases : Aliases)
    (templates : TemplateTable) : Scoped where
  transient
  player := (r.playerMap? seat.player).getD ∅
  group := (r.groupMap? seat.group).getD ∅
  seat := r.seatMap seat
  aliases
  legacy := (r.legacy[seat.player]?).getD ∅
  templates

/-- Keeps what a command at a seat has left in the tiers of player, group and seat. The three maps
exist afterwards. -/
def keep (r : Records) (seat : Seat) (s : Scoped) : Records :=
  { r.setSeatMap seat s.seat with
    players := r.players.insert seat.player s.player
    groups := r.groups.insert seat.group s.group }

/-- Binds a card of the player at a seat. A new card is empty. -/
def bind (r : Records) (seat : Seat) (card : String) : Records :=
  { r with
    -- a card that was bound before keeps its map
    cards := r.cards.insertIfNew ⟨seat.player, card⟩ ∅
    bindings := r.bindings.insert seat card }

/-- Unbinds the card at a seat. -/
def unbind (r : Records) (seat : Seat) : Records :=
  { r with bindings := r.bindings.erase seat }

/-- An attribute of a card. -/
def cardValue? (r : Records) (card : Card) (name : String) : Option Value :=
  r.cards[card]?.bind fun vars => vars[name]?

/-- Writes an integer of the older records. -/
def setLegacy (r : Records) (player name : String) (n : Int64) : Records :=
  let ints := (r.legacy[player]?).getD ∅
  { r with legacy := r.legacy.insert player (ints.insert name n) }

end Records

end DiceBot
