import DiceBot.Proofs.Memory.Owners

/-!
# Bound cards

Which card is bound at a seat decides which of two maps is used there, that of the card or the
seat's own. Binding and unbinding change the choice and leave the maps as they are
(`Records.mapOf?_bind`, `Records.mapOf?_unbind`), except that a new card gets an empty one, so every
bound card is one that there is (`Records.CardsExist`). A seat's own map and the map of a card are
written only where they are used (`Records.seat_mem_owners_iff`, `Records.card_mem_owners_iff`).
-/

namespace DiceBot

namespace Records

variable {r : Records} {seat other : Seat}

/-! ## Binding and unbinding -/

theorem boundCard?_bind (r : Records) (seat other : Seat) (card : String) :
    (r.bind seat card).boundCard? other =
      if other = seat then some card else r.boundCard? other :=
  getElem?_insert_map r.bindings seat other card

theorem boundCard?_unbind (r : Records) (seat other : Seat) :
    (r.unbind seat).boundCard? other = if other = seat then none else r.boundCard? other :=
  getElem?_erase_map r.bindings seat other

/-- A card that is bound has a map afterwards, and it is an empty one if the card is new. -/
theorem mapOf?_bind (r : Records) (seat : Seat) (card : String) (owner : Owner) :
    (r.bind seat card).mapOf? owner =
      if owner = .card ⟨seat.player, card⟩ then some ((r.mapOf? owner).getD ∅)
      else r.mapOf? owner := by
  cases owner with
  | player | group | seat => rfl
  | card other =>
    show (r.cards.insertIfNew ⟨seat.player, card⟩ ∅)[other]? = _
    rw [Std.ExtTreeMap.getElem?_insertIfNew]
    by_cases heq : other = ⟨seat.player, card⟩
    · subst heq
      rw [if_pos rfl]
      show _ = some (r.cards[Card.mk seat.player card]?.getD ∅)
      -- a card that there is keeps its map
      cases hfound : r.cards[Card.mk seat.player card]? with
      | none =>
        have hnew : Card.mk seat.player card ∉ r.cards := fun hmem => by
          rw [Std.ExtTreeMap.getElem?_eq_some_getElem hmem] at hfound
          exact nomatch hfound
        rw [if_pos ⟨Std.compare_self, hnew⟩]
        rfl
      | some vars =>
        have hmem : Card.mk seat.player card ∈ r.cards :=
          Std.ExtTreeMap.mem_iff_isSome_getElem?.mpr (by rw [hfound]; rfl)
        rw [if_neg fun h => h.2 hmem]
        rfl
    · have hcompare : ¬compare (Card.mk seat.player card) other = .eq := fun h =>
        heq (Std.LawfulEqOrd.eq_of_compare h).symm
      rw [if_neg fun h => hcompare h.1, if_neg fun h => heq (Owner.card.inj h)]
      rfl

@[simp] theorem mapOf?_unbind (r : Records) (seat : Seat) (owner : Owner) :
    (r.unbind seat).mapOf? owner = r.mapOf? owner := by
  cases owner <;> rfl

/-! ## Where maps are used -/

theorem localOwner_of_bound {card : String} (h : r.boundCard? seat = some card) :
    r.localOwner seat = .card ⟨seat.player, card⟩ := by
  rw [localOwner, h]

theorem localOwner_of_unbound (h : r.boundCard? seat = none) : r.localOwner seat = .seat seat := by
  rw [localOwner, h]

/-- A seat's own map is used there as long as no card is bound. -/
theorem seat_mem_owners_iff :
    .seat other ∈ r.owners seat ↔ other = seat ∧ r.boundCard? seat = none := by
  unfold owners localOwner
  cases r.boundCard? seat with
  | none => simp
  | some card => simp

/-- The map of a card is used where its player has it bound. -/
theorem card_mem_owners_iff {card : Card} :
    .card card ∈ r.owners seat ↔
      card.player = seat.player ∧ r.boundCard? seat = some card.name := by
  obtain ⟨player, name⟩ := card
  unfold owners localOwner
  cases r.boundCard? seat with
  | none => simp
  | some card => simp [eq_comm]

/-! ## Cards that there are -/

/-- Every bound card is one that there is. -/
def CardsExist (r : Records) : Prop :=
  ∀ seat card, r.boundCard? seat = some card → (r.mapOf? (.card ⟨seat.player, card⟩)).isSome

theorem cardsExist_empty : ({} : Records).CardsExist := by
  intro seat card h
  have hnone : ({} : Records).boundCard? seat = none := Std.ExtTreeMap.getElem?_empty
  rw [hnone] at h
  exact nomatch h

/-- Cards do not vanish. -/
theorem CardsExist.of_maps {r' : Records} (h : r.CardsExist) (hbindings : r'.bindings = r.bindings)
    (hmaps : ∀ owner, (r.mapOf? owner).isSome → (r'.mapOf? owner).isSome) : r'.CardsExist := by
  intro seat card hcard
  rw [boundCard?, hbindings] at hcard
  exact hmaps _ (h seat card hcard)

theorem CardsExist.putAt {p : Records} {seat : Seat} {put : Owner → Option VariableMap}
    (h : r.CardsExist) (hp : PutAt seat put r p) : p.CardsExist := by
  refine h.of_maps hp.bindings fun owner howner => ?_
  rw [hp.mapOf?, Option.isSome_or, howner, Bool.or_true]

theorem CardsExist.setSeatMap (h : r.CardsExist) (seat : Seat) (vars : VariableMap) :
    (r.setSeatMap seat vars).CardsExist := h.putAt (r.putAt_setSeatMap seat vars)

theorem CardsExist.keep (h : r.CardsExist) (seat : Seat) (s : Scoped) :
    (r.keep seat s).CardsExist := h.putAt (r.putAt_keep seat s)

theorem CardsExist.bind (h : r.CardsExist) (seat : Seat) (card : String) :
    (r.bind seat card).CardsExist := by
  intro other name hbound
  rw [boundCard?_bind] at hbound
  rw [mapOf?_bind]
  by_cases heq : other = seat
  · rw [if_pos heq] at hbound
    rw [heq, Option.some.inj hbound, if_pos rfl]
    rfl
  · rw [if_neg heq] at hbound
    split
    · rfl
    · exact h other name hbound

theorem CardsExist.unbind (h : r.CardsExist) (seat : Seat) : (r.unbind seat).CardsExist := by
  intro other name hbound
  rw [boundCard?_unbind] at hbound
  rw [mapOf?_unbind]
  by_cases heq : other = seat
  · rw [if_pos heq] at hbound
    exact nomatch hbound
  · rw [if_neg heq] at hbound
    exact h other name hbound

end Records

end DiceBot
