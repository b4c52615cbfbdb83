import DiceBot.Memory.Records

/-!
# Names stay in their tiers

A name is written only to the tier that its first characters say. So a map that holds names of its
own tier alone keeps doing so under every operation on scoped variables (`Scoped.InTiers`) and on
records (`Records.InTiers`). In the seat tier a name is written under its canonical form, so there
it also takes that the canonical names of the aliases are of the seat tier (`Aliases.Untagged`).
-/

namespace DiceBot

/-! ## Maps of one tier -/

namespace Tier

/-- Every name in the map is of the tier. -/
def Owns (tier : Tier) (vars : VariableMap) : Prop := ∀ name ∈ vars, ofName name = tier

/-- Every map is owned by the tier. -/
def OwnsAll {κ : Type} [Ord κ] [Std.TransOrd κ] (tier : Tier)
    (maps : Std.ExtTreeMap κ VariableMap) : Prop :=
  ∀ (key : κ) (vars : VariableMap), maps[key]? = some vars → tier.Owns vars

variable {tier : Tier} {vars : VariableMap} {name : String}

@[simp] theorem owns_empty : tier.Owns ∅ := fun _ h => absurd h Std.ExtTreeMap.not_mem_empty

theorem Owns.insert (h : tier.Owns vars) (hname : ofName name = tier) (value : Value) :
    tier.Owns (vars.insert name value) := by
  intro other hother
  rcases Std.ExtTreeMap.mem_insert.mp hother with heq | hmem
  · exact Std.LawfulEqOrd.eq_of_compare heq ▸ hname
  · exact h other hmem

theorem Owns.erase (h : tier.Owns vars) (name : String) : tier.Owns (vars.erase name) :=
  fun other hother => h other (Std.ExtTreeMap.mem_of_mem_erase hother)

section Maps

variable {κ : Type} [Ord κ] [Std.TransOrd κ] {maps : Std.ExtTreeMap κ VariableMap}

theorem ownsAll_empty : tier.OwnsAll (∅ : Std.ExtTreeMap κ VariableMap) := by
  intro key vars h
  simp at h

theorem OwnsAll.insert (h : tier.OwnsAll maps) (key : κ) (hvars : tier.Owns vars) :
    tier.OwnsAll (maps.insert key vars) := by
  intro other found hfound
  rw [Std.ExtTreeMap.getElem?_insert] at hfound
  split at hfound
  · exact Option.some.inj hfound ▸ hvars
  · exact h other found hfound

theorem OwnsAll.insertIfNew (h : tier.OwnsAll maps) (key : κ) (hvars : tier.Owns vars) :
    tier.OwnsAll (maps.insertIfNew key vars) := by
  intro other found hfound
  rw [Std.ExtTreeMap.getElem?_insertIfNew] at hfound
  split at hfound
  · exact Option.some.inj hfound ▸ hvars
  · exact h other found hfound

/-- The map under a key is owned, also where there is none and the empty one is used. -/
theorem OwnsAll.getD (h : tier.OwnsAll maps) (key : κ) : tier.Owns (maps[key]?.getD ∅) := by
  cases hfound : maps[key]? with
  | none => exact owns_empty
  | some vars => exact h key vars hfound

end Maps

end Tier

/-! ## Aliases -/

namespace Aliases

/-- The canonical names are of the seat tier. -/
def Untagged (aliases : Aliases) : Prop :=
  ∀ spelling canonical : String, aliases.canonical[spelling]? = some canonical →
    Tier.ofName canonical = .seat

theorem untagged_empty : ({} : Aliases).Untagged := by
  intro spelling canonical h
  simp at h

theorem Untagged.register {aliases : Aliases} (h : aliases.Untagged) {canonical : String}
    (hcanonical : Tier.ofName canonical = .seat) (spelling : String) :
    (register canonical aliases spelling).Untagged := by
  intro other found hfound
  rw [Aliases.register, Std.ExtTreeMap.getElem?_insert] at hfound
  split at hfound
  · exact Option.some.inj hfound ▸ hcanonical
  · exact h other found hfound

theorem Untagged.insert {aliases : Aliases} (h : aliases.Untagged) {canonical : String}
    (hcanonical : Tier.ofName canonical = .seat) (spellings : List String) :
    (aliases.insert canonical spellings).Untagged := by
  unfold Aliases.insert
  induction canonical :: spellings generalizing aliases with
  | nil => exact h
  | cons spelling spellings ih => exact ih (h.register hcanonical spelling)

/-- A name of the seat tier has a canonical form of the seat tier. -/
theorem Untagged.canonicalize {aliases : Aliases} (h : aliases.Untagged) {name : String}
    (hname : Tier.ofName name = .seat) : Tier.ofName (aliases.canonicalize name) = .seat := by
  unfold Aliases.canonicalize
  cases hfound : aliases.canonical[key name]? with
  | none => exact hname
  | some canonical => exact h _ canonical hfound

/-- The key of a name is of the tier that the name resolves to. -/
theorem Untagged.resolve {aliases : Aliases} (h : aliases.Untagged) (name : String) :
    Tier.ofName (aliases.resolve name).2 = (aliases.resolve name).1 := by
  unfold Aliases.resolve
  cases hname : Tier.ofName name with
  | seat => exact h.canonicalize hname
  | transient | player | group => exact hname

end Aliases

/-! ## Scoped variables -/

namespace Scoped

/-- Aliases have no part in the transient tier. -/
theorem get?_of_transient {name : String} (h : Tier.ofName name = .transient) (s : Scoped) :
    Variables.get? s name = s.transient[name]? := by
  have hne : Tier.ofName name ≠ .seat := by rw [h]; exact nofun
  show s.get? name = _
  simp only [Scoped.get?, Aliases.resolve_of_ne_seat hne, h, tier]

/-- Names of the seat tier are used under their canonical forms. -/
theorem get?_of_seat {name : String} (h : Tier.ofName name = .seat) (s : Scoped) :
    Variables.get? s name = s.seat[s.aliases.canonicalize name]? := by
  show s.get? name = _
  simp only [Scoped.get?, Aliases.resolve_of_seat h, tier]

theorem set_of_seat {name : String} (h : Tier.ofName name = .seat) (s : Scoped) (value : Value) :
    Variables.set s name value =
      { s with seat := s.seat.insert (s.aliases.canonicalize name) value } := by
  show s.set name value = _
  simp only [Scoped.set, Aliases.resolve_of_seat h, updateTier]

theorem legacy?_of_seat {name : String} (h : Tier.ofName name = .seat) (s : Scoped) :
    Variables.legacy? s name = s.legacy[s.aliases.canonicalize name]? := by
  show s.legacy? name = _
  simp only [Scoped.legacy?, Aliases.resolve_of_seat h]

/-- Each tier that outlives a command holds names of its own. -/
structure InTiers (s : Scoped) : Prop where
  player : Tier.player.Owns s.player
  group : Tier.group.Owns s.group
  seat : Tier.seat.Owns s.seat
  aliases : s.aliases.Untagged

theorem InTiers.set {s : Scoped} (h : s.InTiers) (name : String) (value : Value) :
    (s.set name value).InTiers := by
  have hkey := h.aliases.resolve name
  unfold Scoped.set
  generalize s.aliases.resolve name = place at hkey ⊢
  obtain ⟨tier, key⟩ := place
  cases tier with
  | transient => exact ⟨h.player, h.group, h.seat, h.aliases⟩
  | player => exact ⟨h.player.insert hkey value, h.group, h.seat, h.aliases⟩
  | group => exact ⟨h.player, h.group.insert hkey value, h.seat, h.aliases⟩
  | seat => exact ⟨h.player, h.group, h.seat.insert hkey value, h.aliases⟩

/-- Picking a template touches no variable. -/
theorem InTiers.template? {s : Scoped} (h : s.InTiers) (name : String) :
    (s.template? name).2.InTiers := ⟨h.player, h.group, h.seat, h.aliases⟩

end Scoped

/-! ## Records -/

namespace Records

/-- Every map that is kept holds names of its own tier. -/
structure InTiers (r : Records) : Prop where
  players : Tier.player.OwnsAll r.players
  groups : Tier.group.OwnsAll r.groups
  seats : Tier.seat.OwnsAll r.seats
  cards : Tier.seat.OwnsAll r.cards

theorem inTiers_empty : ({} : Records).InTiers :=
  ⟨Tier.ownsAll_empty, Tier.ownsAll_empty, Tier.ownsAll_empty, Tier.ownsAll_empty⟩

namespace InTiers

variable {r : Records} (h : r.InTiers)

include h

theorem seatMap (seat : Seat) : Tier.seat.Owns (r.seatMap seat) := by
  unfold Records.seatMap seatMap?
  cases r.boundCard? seat with
  | none => exact h.seats.getD seat
  | some card => exact h.cards.getD _

theorem setSeatMap (seat : Seat) {vars : VariableMap} (hvars : Tier.seat.Owns vars) :
    (r.setSeatMap seat vars).InTiers := by
  unfold Records.setSeatMap
  cases r.boundCard? seat with
  | none => exact ⟨h.players, h.groups, h.seats.insert seat hvars, h.cards⟩
  | some card => exact ⟨h.players, h.groups, h.seats, h.cards.insert _ hvars⟩

/-- What a command at a seat sees is in its tiers. -/
theorem scopedAt (seat : Seat) (transient : VariableMap) {aliases : Aliases}
    (haliases : aliases.Untagged) (templates : TemplateTable) :
    (r.scopedAt seat transient aliases templates).InTiers :=
  ⟨h.players.getD seat.player, h.groups.getD seat.group, h.seatMap seat, haliases⟩

/-- And so are the records that it leaves. -/
theorem keep (seat : Seat) {s : Scoped} (hs : s.InTiers) : (r.keep seat s).InTiers :=
  have hseat := h.setSeatMap seat hs.seat
  ⟨h.players.insert seat.player hs.player, h.groups.insert seat.group hs.group, hseat.seats,
    hseat.cards⟩

theorem bind (seat : Seat) (card : String) : (r.bind seat card).InTiers :=
  ⟨h.players, h.groups, h.seats, h.cards.insertIfNew _ Tier.owns_empty⟩

theorem unbind (seat : Seat) : (r.unbind seat).InTiers := ⟨h.players, h.groups, h.seats, h.cards⟩

theorem setLegacy (player name : String) (n : Int64) : (r.setLegacy player name n).InTiers :=
  ⟨h.players, h.groups, h.seats, h.cards⟩

end InTiers

end Records

end DiceBot
