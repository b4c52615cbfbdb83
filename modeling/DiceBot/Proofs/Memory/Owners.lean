import DiceBot.Memory.Records

/-!
# Owners of variables

The records keep a map of variables for each owner: a player, a group, a seat or a card. A command
at a seat uses the maps of three of them (`Records.owners`): the player, the group, and the card
bound at the seat or else the seat itself. What it leaves is put in for these and for no other
(`Records.PutAt`), and seats that differ in the player and in the group have no owner in common
(`Records.not_mem_owners`). So what is done at one of them cannot be told at the other
(`Records.SameBeyond.sameAt`), and changes at both make the same records in either order
(`Records.eq_of_sameBeyond`).
-/

namespace DiceBot

/-- An owner of variables. -/
inductive Owner where
  | player (name : String)
  | group (name : String)
  | seat (seat : Seat)
  | card (card : Card)
  deriving DecidableEq

namespace Records

/-- The map of an owner, if there is one. -/
def mapOf? (r : Records) : Owner → Option VariableMap
  | .player name => r.playerMap? name
  | .group name => r.groupMap? name
  | .seat seat => r.seats[seat]?
  | .card card => r.cards[card]?

/-- The owner of the map used at a seat: that of the bound card, or the seat's own. -/
def localOwner (r : Records) (seat : Seat) : Owner :=
  match r.boundCard? seat with
  | some card => .card ⟨seat.player, card⟩
  | none => .seat seat

/-- The owners whose maps a command at a seat uses. -/
def owners (r : Records) (seat : Seat) : List Owner :=
  [.player seat.player, .group seat.group, r.localOwner seat]

theorem seatMap?_eq_mapOf? (r : Records) (seat : Seat) :
    r.seatMap? seat = r.mapOf? (r.localOwner seat) := by
  unfold seatMap? localOwner
  cases r.boundCard? seat <;> rfl

/-- Records consist of the maps of all owners, the bound cards and the older records. -/
theorem ext_mapOf? {r r' : Records} (hmaps : ∀ owner, r.mapOf? owner = r'.mapOf? owner)
    (hbindings : r.bindings = r'.bindings) (hlegacy : r.legacy = r'.legacy) : r = r' := by
  have hplayers : r.players = r'.players :=
    Std.ExtTreeMap.ext_getElem? fun {name} => hmaps (.player name)
  have hgroups : r.groups = r'.groups :=
    Std.ExtTreeMap.ext_getElem? fun {name} => hmaps (.group name)
  have hseats : r.seats = r'.seats := Std.ExtTreeMap.ext_getElem? fun {seat} => hmaps (.seat seat)
  have hcards : r.cards = r'.cards := Std.ExtTreeMap.ext_getElem? fun {card} => hmaps (.card card)
  cases r
  cases r'
  simp_all

/-! ## Writing -/

theorem getElem?_insert_map {κ β : Type} [Ord κ] [Std.TransOrd κ] [Std.LawfulEqOrd κ]
    [DecidableEq κ] (map : Std.ExtTreeMap κ β) (key other : κ) (value : β) :
    (map.insert key value)[other]? = if other = key then some value else map[other]? := by
  rw [Std.ExtTreeMap.getElem?_insert]
  by_cases heq : other = key
  · rw [if_pos heq, if_pos (heq ▸ Std.compare_self)]
  · rw [if_neg heq, if_neg fun hcompare => heq (Std.LawfulEqOrd.eq_of_compare hcompare).symm]

theorem getElem?_erase_map {κ β : Type} [Ord κ] [Std.TransOrd κ] [Std.LawfulEqOrd κ]
    [DecidableEq κ] (map : Std.ExtTreeMap κ β) (key other : κ) :
    (map.erase key)[other]? = if other = key then none else map[other]? := by
  rw [Std.ExtTreeMap.getElem?_erase]
  by_cases heq : other = key
  · rw [if_pos heq, if_pos (heq ▸ Std.compare_self)]
  · rw [if_neg heq, if_neg fun hcompare => heq (Std.LawfulEqOrd.eq_of_compare hcompare).symm]

section SetSeatMap

variable (r : Records) (seat : Seat) (vars : VariableMap)

@[simp] theorem players_setSeatMap : (r.setSeatMap seat vars).players = r.players := by
  unfold setSeatMap
  cases r.boundCard? seat <;> rfl

@[simp] theorem groups_setSeatMap : (r.setSeatMap seat vars).groups = r.groups := by
  unfold setSeatMap
  cases r.boundCard? seat <;> rfl

@[simp] theorem bindings_setSeatMap : (r.setSeatMap seat vars).bindings = r.bindings := by
  unfold setSeatMap
  cases r.boundCard? seat <;> rfl

@[simp] theorem legacy_setSeatMap : (r.setSeatMap seat vars).legacy = r.legacy := by
  unfold setSeatMap
  cases r.boundCard? seat <;> rfl

/-- The map used at a seat is replaced for its owner and for no other. -/
theorem mapOf?_setSeatMap (owner : Owner) :
    (r.setSeatMap seat vars).mapOf? owner =
      if owner = r.localOwner seat then some vars else r.mapOf? owner := by
  unfold setSeatMap localOwner
  cases r.boundCard? seat with
  | none =>
    cases owner with
    | seat other => simpa [mapOf?] using getElem?_insert_map r.seats seat other vars
    | player | group | card => simp [mapOf?, playerMap?, groupMap?]
  | some name =>
    cases owner with
    | card card => simpa [mapOf?] using getElem?_insert_map r.cards ⟨seat.player, name⟩ card vars
    | player | group | seat => simp [mapOf?, playerMap?, groupMap?]

end SetSeatMap

@[simp] theorem bindings_keep (r : Records) (seat : Seat) (s : Scoped) :
    (r.keep seat s).bindings = r.bindings := bindings_setSeatMap r seat s.seat

@[simp] theorem legacy_keep (r : Records) (seat : Seat) (s : Scoped) :
    (r.keep seat s).legacy = r.legacy := legacy_setSeatMap r seat s.seat

/-- What is kept goes to the three owners of the seat. -/
theorem mapOf?_keep (r : Records) (seat : Seat) (s : Scoped) (owner : Owner) :
    (r.keep seat s).mapOf? owner =
      if owner = .player seat.player then some s.player
      else if owner = .group seat.group then some s.group
      else if owner = r.localOwner seat then some s.seat
      else r.mapOf? owner := by
  rw [← r.mapOf?_setSeatMap]
  cases owner with
  | player name =>
    simpa [keep, mapOf?, playerMap?] using getElem?_insert_map r.players seat.player name s.player
  | group name =>
    simpa [keep, mapOf?, groupMap?] using getElem?_insert_map r.groups seat.group name s.group
  | seat | card => simp [keep, mapOf?]

/-- The map of a seat is the one that was put in. -/
@[simp] theorem seatMap?_setSeatMap (r : Records) (seat : Seat) (vars : VariableMap) :
    (r.setSeatMap seat vars).seatMap? seat = some vars := by
  have howner : (r.setSeatMap seat vars).localOwner seat = r.localOwner seat := by
    rw [localOwner, localOwner, boundCard?, boundCard?, bindings_setSeatMap]
  rw [seatMap?_eq_mapOf?, howner, mapOf?_setSeatMap, if_pos rfl]

/-- Nothing else changes for a command at the seat. -/
theorem scopedAt_setSeatMap (r : Records) (seat : Seat) (vars transient : VariableMap)
    (aliases : Aliases) (templates : TemplateTable) :
    (r.setSeatMap seat vars).scopedAt seat transient aliases templates =
      { r.scopedAt seat transient aliases templates with seat := vars } := by
  simp [scopedAt, playerMap?, groupMap?, seatMap]

@[simp] theorem seatMap?_keep (r : Records) (seat : Seat) (s : Scoped) :
    (r.keep seat s).seatMap? seat = some s.seat := seatMap?_setSeatMap r seat s.seat

@[simp] theorem playerMap?_keep (r : Records) (seat : Seat) (s : Scoped) :
    (r.keep seat s).playerMap? seat.player = some s.player :=
  Std.ExtTreeMap.getElem?_insert_self

@[simp] theorem groupMap?_keep (r : Records) (seat : Seat) (s : Scoped) :
    (r.keep seat s).groupMap? seat.group = some s.group :=
  Std.ExtTreeMap.getElem?_insert_self

/-- The records `p` are the records `r` with the map `put owner` put in for each owner that has one,
and only owners at the seat have one. -/
structure PutAt (seat : Seat) (put : Owner → Option VariableMap) (r p : Records) : Prop where
  bindings : p.bindings = r.bindings
  legacy : p.legacy = r.legacy
  mapOf? : ∀ owner, p.mapOf? owner = (put owner).or (r.mapOf? owner)
  put_eq_none : ∀ owner, owner ∉ r.owners seat → put owner = none

theorem putAt_setSeatMap (r : Records) (seat : Seat) (vars : VariableMap) :
    PutAt seat (fun owner => if owner = r.localOwner seat then some vars else none) r
      (r.setSeatMap seat vars) where
  bindings := bindings_setSeatMap r seat vars
  legacy := legacy_setSeatMap r seat vars
  mapOf? owner := by
    rw [mapOf?_setSeatMap]
    split <;> rfl
  put_eq_none owner howner := by
    simp only [owners, List.mem_cons, List.not_mem_nil, or_false, not_or] at howner
    exact if_neg howner.2.2

theorem putAt_keep (r : Records) (seat : Seat) (s : Scoped) :
    PutAt seat (fun owner =>
      if owner = .player seat.player then some s.player
      else if owner = .group seat.group then some s.group
      else if owner = r.localOwner seat then some s.seat
      else none) r (r.keep seat s) where
  bindings := bindings_keep r seat s
  legacy := legacy_keep r seat s
  mapOf? owner := by
    rw [mapOf?_keep]
    split
    · rfl
    split
    · rfl
    split <;> rfl
  put_eq_none owner howner := by
    simp only [owners, List.mem_cons, List.not_mem_nil, or_false, not_or] at howner
    rw [if_neg howner.1, if_neg howner.2.1, if_neg howner.2.2]

/-! ## Seats apart -/

variable {r r' p p' : Records} {seat : Seat} {put : Owner → Option VariableMap}

/-- Whichever card is bound, an owner at a seat is the player, the group, the seat or a card of the
player. -/
theorem eq_of_mem_owners {owner : Owner} (h : owner ∈ r.owners seat) :
    owner = .player seat.player ∨ owner = .group seat.group ∨ owner = .seat seat ∨
      ∃ name, owner = .card ⟨seat.player, name⟩ := by
  simp only [owners, localOwner, List.mem_cons, List.not_mem_nil, or_false] at h
  cases hbound : r.boundCard? seat with
  | none =>
    rw [hbound] at h
    exact h.imp_right (Or.imp_right .inl)
  | some name =>
    rw [hbound] at h
    exact h.imp_right (Or.imp_right fun heq => .inr ⟨name, heq⟩)

/-- Seats of different players have at most the group in common. -/
theorem not_mem_owners_of_ne_group {seat' : Seat} (hplayer : seat.player ≠ seat'.player)
    {owner : Owner} (hgroup : owner ≠ .group seat.group) (h : owner ∈ r.owners seat) :
    owner ∉ r'.owners seat' := by
  intro h'
  have hseat : seat ≠ seat' := fun heq => hplayer (congrArg Seat.player heq)
  have howner' := eq_of_mem_owners h'
  rcases eq_of_mem_owners h with rfl | rfl | rfl | ⟨name, rfl⟩
  · exact hplayer (by simpa using howner')
  · exact hgroup rfl
  · exact hseat (by simpa using howner')
  · exact hplayer (by simpa using howner')

/-- Seats of different players in different groups have no owner in common. -/
theorem not_mem_owners {seat' : Seat} (hplayer : seat.player ≠ seat'.player)
    (hgroup : seat.group ≠ seat'.group) {owner : Owner} (h : owner ∈ r.owners seat) :
    owner ∉ r'.owners seat' := by
  by_cases howner : owner = .group seat.group
  · intro h'
    have howner' := eq_of_mem_owners h'
    rw [howner] at howner'
    exact hgroup (by simpa using howner')
  · exact not_mem_owners_of_ne_group hplayer howner h

/-- Records that a seat cannot tell apart. -/
structure SameAt (seat : Seat) (r r' : Records) : Prop where
  boundCard? : r.boundCard? seat = r'.boundCard? seat
  legacy : r.legacy[seat.player]? = r'.legacy[seat.player]?
  mapOf? : ∀ owner ∈ r.owners seat, r.mapOf? owner = r'.mapOf? owner

/-- Records that differ at most in the maps of the owners at a seat. -/
structure SameBeyond (seat : Seat) (r r' : Records) : Prop where
  bindings : r'.bindings = r.bindings
  legacy : r'.legacy = r.legacy
  mapOf? : ∀ owner, owner ∉ r.owners seat → r'.mapOf? owner = r.mapOf? owner

/-- The bound card decides which the owners at a seat are. -/
theorem owners_congr (h : r.boundCard? seat = r'.boundCard? seat) :
    r.owners seat = r'.owners seat := by
  rw [owners, owners, localOwner, localOwner, h]

namespace SameAt

theorem localOwner (h : r.SameAt seat r') : r.localOwner seat = r'.localOwner seat := by
  rw [Records.localOwner, Records.localOwner, h.boundCard?]

theorem seatMap (h : r.SameAt seat r') : r.seatMap seat = r'.seatMap seat := by
  rw [Records.seatMap, Records.seatMap, seatMap?_eq_mapOf?, seatMap?_eq_mapOf?, ← h.localOwner,
    h.mapOf? _ (by simp [owners])]

/-- They look the same to a command at the seat. -/
theorem scopedAt (h : r.SameAt seat r') (transient : VariableMap) (aliases : Aliases)
    (templates : TemplateTable) :
    r.scopedAt seat transient aliases templates = r'.scopedAt seat transient aliases templates := by
  have hplayer : r.playerMap? seat.player = r'.playerMap? seat.player :=
    h.mapOf? (.player seat.player) (by simp [owners])
  have hgroup : r.groupMap? seat.group = r'.groupMap? seat.group :=
    h.mapOf? (.group seat.group) (by simp [owners])
  rw [Records.scopedAt, Records.scopedAt, hplayer, hgroup, h.seatMap, h.legacy]

/-- The same maps put in make no difference. -/
theorem putAt (h : r.SameAt seat r') (hp : PutAt seat put r p) (hp' : PutAt seat put r' p') :
    p.SameAt seat p' where
  boundCard? := by
    rw [Records.boundCard?, Records.boundCard?, hp.bindings, hp'.bindings]
    exact h.boundCard?
  legacy := by rw [hp.legacy, hp'.legacy, h.legacy]
  mapOf? owner howner := by
    have howners : p.owners seat = r.owners seat :=
      owners_congr (by rw [Records.boundCard?, Records.boundCard?, hp.bindings])
    rw [hp.mapOf?, hp'.mapOf?, h.mapOf? owner (howners ▸ howner)]

theorem setSeatMap (h : r.SameAt seat r') (vars : VariableMap) :
    (r.setSeatMap seat vars).SameAt seat (r'.setSeatMap seat vars) := by
  refine h.putAt (r.putAt_setSeatMap seat vars) ?_
  rw [h.localOwner]
  exact r'.putAt_setSeatMap seat vars

theorem keep (h : r.SameAt seat r') (s : Scoped) :
    (r.keep seat s).SameAt seat (r'.keep seat s) := by
  refine h.putAt (r.putAt_keep seat s) ?_
  rw [h.localOwner]
  exact r'.putAt_keep seat s

end SameAt

namespace SameBeyond

protected theorem refl (seat : Seat) (r : Records) : r.SameBeyond seat r :=
  ⟨rfl, rfl, fun _ _ => rfl⟩

theorem owners (h : r.SameBeyond seat r') : r'.owners seat = r.owners seat :=
  owners_congr (by rw [Records.boundCard?, Records.boundCard?, h.bindings])

/-- Maps put in for owners at the seat change nothing beyond it. -/
theorem putAt (h : r.SameBeyond seat r') (hp : PutAt seat put r' p) : r.SameBeyond seat p where
  bindings := hp.bindings.trans h.bindings
  legacy := hp.legacy.trans h.legacy
  mapOf? owner howner := by
    have howner' : owner ∉ r'.owners seat := by rwa [h.owners]
    rw [hp.mapOf?, hp.put_eq_none owner howner', Option.none_or, h.mapOf? owner howner]

theorem setSeatMap (h : r.SameBeyond seat r') (vars : VariableMap) :
    r.SameBeyond seat (r'.setSeatMap seat vars) := h.putAt (r'.putAt_setSeatMap seat vars)

theorem keep (h : r.SameBeyond seat r') (s : Scoped) : r.SameBeyond seat (r'.keep seat s) :=
  h.putAt (r'.putAt_keep seat s)

/-- What is done at one of two seats apart cannot be told at the other. -/
theorem sameAt {seat' : Seat} (h : r.SameBeyond seat r') (hplayer : seat'.player ≠ seat.player)
    (hgroup : seat'.group ≠ seat.group) : r'.SameAt seat' r where
  boundCard? := by rw [Records.boundCard?, Records.boundCard?, h.bindings]
  legacy := by rw [h.legacy]
  mapOf? _ howner := h.mapOf? _ (not_mem_owners hplayer hgroup howner)

end SameBeyond

/-- Changes at two seats apart make the same records in either order, if each is at its seat the
same before and after the other. -/
theorem eq_of_sameBeyond {seat₁ seat₂ : Seat} {r₁ r₂ r₁₂ r₂₁ : Records}
    (hplayer : seat₁.player ≠ seat₂.player) (hgroup : seat₁.group ≠ seat₂.group)
    (h₁ : r.SameBeyond seat₁ r₁) (h₁₂ : r₁.SameBeyond seat₂ r₁₂) (h₂ : r.SameBeyond seat₂ r₂)
    (h₂₁ : r₂.SameBeyond seat₁ r₂₁) (hat₁ : r₂₁.SameAt seat₁ r₁) (hat₂ : r₁₂.SameAt seat₂ r₂) :
    r₁₂ = r₂₁ := by
  have howners₁ : r₂.owners seat₁ = r.owners seat₁ :=
    owners_congr (h₂.sameAt hplayer hgroup).boundCard?
  have howners₂ : r₁.owners seat₂ = r.owners seat₂ :=
    owners_congr (h₁.sameAt hplayer.symm hgroup.symm).boundCard?
  refine ext_mapOf? (fun owner => ?_) ?_ ?_
  · by_cases howner₂ : owner ∈ r.owners seat₂
    · -- what is done at the first seat does not touch this map
      have howner₁ : owner ∉ r₂.owners seat₁ := not_mem_owners hplayer.symm hgroup.symm howner₂
      rw [h₂₁.mapOf? owner howner₁]
      exact hat₂.mapOf? owner (by rwa [h₁₂.owners, howners₂])
    · rw [h₁₂.mapOf? owner (howners₂ ▸ howner₂)]
      by_cases howner₁ : owner ∈ r.owners seat₁
      · exact (hat₁.mapOf? owner (by rwa [h₂₁.owners, howners₁])).symm
      · rw [h₁.mapOf? owner howner₁, h₂₁.mapOf? owner (howners₁ ▸ howner₁),
          h₂.mapOf? owner howner₂]
  · rw [h₁₂.bindings, h₁.bindings, h₂₁.bindings, h₂.bindings]
  · rw [h₁₂.legacy, h₁.legacy, h₂₁.legacy, h₂.legacy]

end Records

end DiceBot
