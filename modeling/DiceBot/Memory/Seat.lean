import Std.Data.ExtTreeMap

/-!
# Seats and cards

A seat is a player in a group; a conversation outside all groups has the empty group. A player may
own character cards, which he can use at several seats.
-/

namespace DiceBot

/-- A player in a group. -/
structure Seat where
  group : String
  player : String
  deriving DecidableEq

/-- A character card of a player. -/
structure Card where
  player : String
  name : String
  deriving DecidableEq

/-- Seats are ordered by group, then by player. -/
instance : Ord Seat := ⟨compareLex (compareOn Seat.group) (compareOn Seat.player)⟩

/-- Cards are ordered by player, then by name. -/
instance : Ord Card := ⟨compareLex (compareOn Card.player) (compareOn Card.name)⟩

instance : Std.TransOrd Seat :=
  inferInstanceAs (Std.TransCmp (compareLex (compareOn Seat.group) (compareOn Seat.player)))

instance : Std.TransOrd Card :=
  inferInstanceAs (Std.TransCmp (compareLex (compareOn Card.player) (compareOn Card.name)))

instance : Std.LawfulEqOrd Seat where
  eq_of_compare {a b} h := by
    have h : (compare a.group b.group).then (compare a.player b.player) = .eq := h
    obtain ⟨hgroup, hplayer⟩ := Ordering.then_eq_eq.mp h
    cases a; cases b
    rw [Seat.mk.injEq]
    exact ⟨Std.LawfulEqOrd.eq_of_compare hgroup, Std.LawfulEqOrd.eq_of_compare hplayer⟩

instance : Std.LawfulEqOrd Card where
  eq_of_compare {a b} h := by
    have h : (compare a.player b.player).then (compare a.name b.name) = .eq := h
    obtain ⟨hplayer, hname⟩ := Ordering.then_eq_eq.mp h
    cases a; cases b
    rw [Card.mk.injEq]
    exact ⟨Std.LawfulEqOrd.eq_of_compare hplayer, Std.LawfulEqOrd.eq_of_compare hname⟩

end DiceBot
