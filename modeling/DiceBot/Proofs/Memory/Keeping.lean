import DiceBot.Proofs.Memory.Owners

/-!
# What is seen at a seat and what is kept

A command at a seat sees the maps of three owners, and what it leaves in them is kept for the same
owners (`Records.mapOf?_keep_eq`). So what is kept depends on these and on nothing else that is seen
(`Records.keep_eq_keep_iff`), and keeping what is seen changes nothing once the maps exist
(`Records.keep_of_hasMaps`), which they do after anything has been kept (`Records.hasMaps_keep`).
Even if they do not, all variables stay as they are (`Records.sameVariables_keep`).
-/

namespace DiceBot

/-- The map that is seen for an owner. -/
def Scoped.mapFor (s : Scoped) : Owner → VariableMap
  | .player _ => s.player
  | .group _ => s.group
  | .seat _ | .card _ => s.seat

/-- The tiers that outlive a command hold the same variables. -/
structure Scoped.SameLasting (s t : Scoped) : Prop where
  player : s.player = t.player
  group : s.group = t.group
  seat : s.seat = t.seat

instance (s t : Scoped) : Decidable (s.SameLasting t) :=
  decidable_of_iff (s.player = t.player ∧ s.group = t.group ∧ s.seat = t.seat)
    ⟨fun ⟨h₁, h₂, h₃⟩ => ⟨h₁, h₂, h₃⟩, fun ⟨h₁, h₂, h₃⟩ => ⟨h₁, h₂, h₃⟩⟩

theorem Scoped.SameLasting.mapFor {s t : Scoped} (h : s.SameLasting t) (owner : Owner) :
    s.mapFor owner = t.mapFor owner := by
  cases owner with
  | player => exact h.player
  | group => exact h.group
  | seat | card => exact h.seat

/-- Nothing differs but the stream of the templates. -/
structure Scoped.SameButStream (s t : Scoped) : Prop where
  others : t = { s with templates := t.templates }
  candidates : t.templates.candidates = s.templates.candidates

theorem Scoped.SameButStream.sameLasting {s t : Scoped} (h : s.SameButStream t) :
    t.SameLasting s := by
  rw [h.others]
  exact ⟨rfl, rfl, rfl⟩

namespace Records

variable {r r' : Records} {seat : Seat} {s t : Scoped} {owner : Owner}

theorem mapFor_localOwner (r : Records) (seat : Seat) (s : Scoped) :
    s.mapFor (r.localOwner seat) = s.seat := by
  unfold localOwner
  cases r.boundCard? seat <;> rfl

/-- What is left in the maps that are seen is kept for their owners. -/
theorem mapOf?_keep_eq (r : Records) (seat : Seat) (s : Scoped) (owner : Owner) :
    (r.keep seat s).mapOf? owner =
      if owner ∈ r.owners seat then some (s.mapFor owner) else r.mapOf? owner := by
  rw [mapOf?_keep]
  simp only [owners, List.mem_cons, List.not_mem_nil, or_false]
  by_cases hplayer : owner = .player seat.player
  · simp [hplayer, Scoped.mapFor]
  by_cases hgroup : owner = .group seat.group
  · simp [hgroup, Scoped.mapFor]
  by_cases hlocal : owner = r.localOwner seat
  · rw [if_neg hplayer, if_neg hgroup, if_pos hlocal, if_pos (.inr (.inr hlocal)), hlocal,
      mapFor_localOwner]
  · simp [hplayer, hgroup, hlocal]

/-- What is seen for an owner is its map. -/
theorem mapFor_scopedAt (h : owner ∈ r.owners seat) (transient : VariableMap) (aliases : Aliases)
    (templates : TemplateTable) :
    (r.scopedAt seat transient aliases templates).mapFor owner = (r.mapOf? owner).getD ∅ := by
  simp only [owners, List.mem_cons, List.not_mem_nil, or_false] at h
  rcases h with rfl | rfl | rfl
  · rfl
  · rfl
  · rw [mapFor_localOwner, ← seatMap?_eq_mapOf?]
    rfl

theorem owners_keep (r : Records) (seat : Seat) (s : Scoped) :
    (r.keep seat s).owners seat = r.owners seat :=
  owners_congr (by rw [boundCard?, boundCard?, bindings_keep])

/-- The maps used at the seat exist. -/
def HasMaps (r : Records) (seat : Seat) : Prop :=
  ∀ owner ∈ r.owners seat, (r.mapOf? owner).isSome = true

theorem hasMaps_keep (r : Records) (seat : Seat) (s : Scoped) : (r.keep seat s).HasMaps seat := by
  intro owner howner
  rw [owners_keep] at howner
  rw [mapOf?_keep_eq, if_pos howner]
  rfl

/-- Records that differ only in what a seat uses are the same once the same is kept there. -/
theorem keep_congr (h : r.SameBeyond seat r') (hlasting : s.SameLasting t) :
    r.keep seat s = r'.keep seat t := by
  refine ext_mapOf? (fun owner => ?_) ?_ ?_
  · rw [mapOf?_keep_eq, mapOf?_keep_eq, h.owners, hlasting.mapFor owner]
    split
    · rfl
    · next howner => exact (h.mapOf? owner howner).symm
  · rw [bindings_keep, bindings_keep, h.bindings]
  · rw [legacy_keep, legacy_keep, h.legacy]

/-- Only then are they the same. -/
theorem keep_eq_keep_iff (h : r.SameBeyond seat r') :
    r.keep seat s = r'.keep seat t ↔ s.SameLasting t := by
  refine ⟨fun heq => ?_, keep_congr h⟩
  have hplayer := congrArg (Records.playerMap? · seat.player) heq
  have hgroup := congrArg (Records.groupMap? · seat.group) heq
  have hseat := congrArg (Records.seatMap? · seat) heq
  simp only [playerMap?_keep, groupMap?_keep, seatMap?_keep, Option.some_inj] at *
  exact ⟨hplayer, hgroup, hseat⟩

/-- Where the maps exist, nothing changes if what is seen is kept. -/
theorem keep_of_hasMaps (h : r.HasMaps seat) (transient : VariableMap) (aliases : Aliases)
    (templates : TemplateTable) :
    r.keep seat (r.scopedAt seat transient aliases templates) = r := by
  refine ext_mapOf? (fun owner => ?_) (bindings_keep _ _ _) (legacy_keep _ _ _)
  rw [mapOf?_keep_eq]
  split
  · next howner =>
    obtain ⟨vars, hvars⟩ := Option.isSome_iff_exists.mp (h owner howner)
    rw [mapFor_scopedAt howner, hvars]
    rfl
  · rfl

/-- Each owner has the same variables, a map that does not exist being an empty one. -/
structure SameVariables (r r' : Records) : Prop where
  bindings : r'.bindings = r.bindings
  legacy : r'.legacy = r.legacy
  mapOf? : ∀ owner, (r'.mapOf? owner).getD ∅ = (r.mapOf? owner).getD ∅

namespace SameVariables

protected theorem refl (r : Records) : r.SameVariables r := ⟨rfl, rfl, fun _ => rfl⟩

theorem symm (h : r.SameVariables r') : r'.SameVariables r :=
  ⟨h.bindings.symm, h.legacy.symm, fun owner => (h.mapOf? owner).symm⟩

theorem trans {r'' : Records} (h : r.SameVariables r') (h' : r'.SameVariables r'') :
    r.SameVariables r'' :=
  ⟨h'.bindings.trans h.bindings, h'.legacy.trans h.legacy,
    fun owner => (h'.mapOf? owner).trans (h.mapOf? owner)⟩

/-- The same is seen at every seat. -/
theorem scopedAt (h : r.SameVariables r') (seat : Seat) (transient : VariableMap)
    (aliases : Aliases) (templates : TemplateTable) :
    r'.scopedAt seat transient aliases templates = r.scopedAt seat transient aliases templates := by
  have hplayer : (r'.playerMap? seat.player).getD ∅ = (r.playerMap? seat.player).getD ∅ :=
    h.mapOf? (.player seat.player)
  have hgroup : (r'.groupMap? seat.group).getD ∅ = (r.groupMap? seat.group).getD ∅ :=
    h.mapOf? (.group seat.group)
  have hlocal : r'.localOwner seat = r.localOwner seat := by
    rw [localOwner, localOwner, boundCard?, boundCard?, h.bindings]
  have hseat : r'.seatMap seat = r.seatMap seat := by
    rw [seatMap, seatMap, seatMap?_eq_mapOf?, seatMap?_eq_mapOf?, hlocal, h.mapOf?]
  rw [Records.scopedAt, Records.scopedAt, hplayer, hgroup, hseat, h.legacy]

/-- Records in which the map used at a seat has been replaced differ there and nowhere else. -/
theorem of_setSeatMap {vars : VariableMap} (h : (r.setSeatMap seat vars).SameVariables r') :
    r'.seatMap seat = vars ∧
    (∀ owner, owner ≠ r.localOwner seat →
      (r'.mapOf? owner).getD ∅ = (r.mapOf? owner).getD ∅) ∧
    r'.bindings = r.bindings ∧ r'.legacy = r.legacy := by
  refine ⟨?_, fun owner howner => ?_, h.bindings.trans (bindings_setSeatMap r seat vars),
    h.legacy.trans (legacy_setSeatMap r seat vars)⟩
  · have hseen := congrArg Scoped.seat (h.scopedAt seat ∅ {} (.ofSeed 0))
    rw [scopedAt_setSeatMap] at hseen
    exact hseen
  · rw [h.mapOf?, mapOf?_setSeatMap, if_neg howner]

end SameVariables

/-- Putting the map used at a seat in its own place changes no variable. -/
theorem sameVariables_setSeatMap (r : Records) (seat : Seat) :
    r.SameVariables (r.setSeatMap seat (r.seatMap seat)) where
  bindings := bindings_setSeatMap _ _ _
  legacy := legacy_setSeatMap _ _ _
  mapOf? owner := by
    rw [mapOf?_setSeatMap]
    split
    · next howner => rw [howner, ← seatMap?_eq_mapOf?, Option.getD_some, seatMap]
    · rfl

/-- If what is kept is what was seen, no variable changes. -/
theorem sameVariables_keep {transient : VariableMap} {aliases : Aliases}
    {templates : TemplateTable}
    (h : s.SameLasting (r.scopedAt seat transient aliases templates)) :
    r.SameVariables (r.keep seat s) where
  bindings := bindings_keep _ _ _
  legacy := legacy_keep _ _ _
  mapOf? owner := by
    rw [mapOf?_keep_eq]
    split
    · next howner => rw [h.mapFor owner, mapFor_scopedAt howner, Option.getD_some]
    · rfl

end Records

end DiceBot
