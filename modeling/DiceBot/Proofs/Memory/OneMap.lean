import Mathlib.Logic.Function.Basic
import DiceBot.Proofs.Memory.Owners

/-!
# Variables in tiers as one map

The four tiers behave as one map whose keys are places, a tier and a key in it (`Scoped.entries`).
An access does there what it does in the tiers (`Access.performAt_entries`), at the place that its
name resolves to, and so does a sequence of accesses (`Access.performAll_entries`). What can be told
of the tiers is then read off the one map, where only writes at a place change what is found there
(`Access.performAll_of_not_written`).
-/

namespace DiceBot

/-- A use of a variable. -/
inductive Access where
  | get (name : String)
  | set (name : String) (value : Value)
  | erase (name : String)
  deriving DecidableEq

/-- What the tiers hold at a place. -/
def Scoped.entries (s : Scoped) : Tier × String → Option Value := fun place =>
  (s.tier place.1)[place.2]?

namespace Access

/-- The name that is written under, if the variable is written. -/
def written? : Access → Option String
  | .get _ => none
  | .set name _ => some name
  | .erase name => some name

/-- What an access to the tiers gives back, and the tiers afterwards. -/
def perform (s : Scoped) : Access → Option Value × Scoped
  | .get name => (s.get? name, s)
  | .set name value => (none, s.set name value)
  | .erase name => s.erase name

/-- What an access to one map gives back, and the map afterwards. Names are resolved to its keys. -/
def performAt {κ : Type} [DecidableEq κ] (resolve : String → κ) (entries : κ → Option Value) :
    Access → Option Value × (κ → Option Value)
  | .get name => (entries (resolve name), entries)
  | .set name value => (none, Function.update entries (resolve name) (some value))
  | .erase name => (entries (resolve name), Function.update entries (resolve name) none)

/-- What accesses give back one after the other, and what is there afterwards. -/
def performAll {σ : Type} (perform : σ → Access → Option Value × σ) (s : σ) :
    List Access → List (Option Value) × σ
  | [] => ([], s)
  | access :: accesses =>
      let (answer, s) := perform s access
      let (answers, s) := performAll perform s accesses
      (answer :: answers, s)

end Access

/-! ## One access -/

namespace Scoped

variable {s t : Scoped}

/-- Nothing but variables differs. -/
structure SameTables (s t : Scoped) : Prop where
  aliases : t.aliases = s.aliases
  legacy : t.legacy = s.legacy
  templates : t.templates = s.templates

theorem SameTables.refl (s : Scoped) : s.SameTables s := ⟨rfl, rfl, rfl⟩

theorem SameTables.trans {u : Scoped} (h : s.SameTables t) (h' : t.SameTables u) :
    s.SameTables u :=
  ⟨h'.aliases.trans h.aliases, h'.legacy.trans h.legacy, h'.templates.trans h.templates⟩

theorem sameTables_updateTier (s : Scoped) (f : VariableMap → VariableMap) (tier : Tier) :
    s.SameTables (s.updateTier f tier) := by
  cases tier <;> exact ⟨rfl, rfl, rfl⟩

theorem sameTables_set (s : Scoped) (name : String) (value : Value) :
    s.SameTables (s.set name value) := s.sameTables_updateTier (·.insert _ value) _

theorem sameTables_erase (s : Scoped) (name : String) : s.SameTables (s.erase name).2 :=
  s.sameTables_updateTier (·.erase _) _

/-- A change to one tier leaves the others as they are. -/
theorem tier_updateTier (s : Scoped) (f : VariableMap → VariableMap) (changed other : Tier) :
    (s.updateTier f changed).tier other =
      if other = changed then f (s.tier other) else s.tier other := by
  cases changed <;> cases other <;> rfl

/-- A change under one key of a tier is a change at one place. -/
theorem entries_updateTier {f : VariableMap → VariableMap} {key : String} {entry : Option Value}
    (hf : ∀ (vars : VariableMap) (other : String),
      (f vars)[other]? = if other = key then entry else vars[other]?) (s : Scoped) (tier : Tier) :
    (s.updateTier f tier).entries = Function.update s.entries (tier, key) entry := by
  funext ⟨otherTier, otherKey⟩
  simp only [entries, tier_updateTier, Function.update_apply, Prod.mk.injEq]
  by_cases htier : otherTier = tier
  · subst htier
    rw [if_pos rfl, hf]
    simp
  · rw [if_neg htier]
    simp [htier]

theorem get?_eq_entries (s : Scoped) (name : String) :
    s.get? name = s.entries (s.aliases.resolve name) := rfl

theorem entries_set (s : Scoped) (name : String) (value : Value) :
    (s.set name value).entries =
      Function.update s.entries (s.aliases.resolve name) (some value) :=
  entries_updateTier (fun vars other => Records.getElem?_insert_map vars _ other value) s _

/-- What is set under one name is got under every name of the same place, and under other names
what was there before. -/
theorem get?_set (s : Scoped) (name other : String) (value : Value) :
    (s.set name value).get? other =
      if s.aliases.resolve other = s.aliases.resolve name then some value else s.get? other := by
  rw [get?_eq_entries, (s.sameTables_set name value).aliases, entries_set, Function.update_apply,
    ← get?_eq_entries]

theorem entries_erase (s : Scoped) (name : String) :
    (s.erase name).2.entries = Function.update s.entries (s.aliases.resolve name) none :=
  entries_updateTier (fun vars other => Records.getElem?_erase_map vars _ other) s _

/-- What is erased is no longer there, whatever the spelling. -/
theorem get?_erase {name spelling : String}
    (h : s.aliases.resolve spelling = s.aliases.resolve name) :
    (s.erase spelling).2.get? name = none := by
  rw [get?_eq_entries, (s.sameTables_erase spelling).aliases, entries_erase, h,
    Function.update_self]

end Scoped

namespace Access

theorem sameTables_perform (s : Scoped) (access : Access) :
    s.SameTables (access.perform s).2 := by
  cases access with
  | get name => exact .refl s
  | set name value => exact s.sameTables_set name value
  | erase name => exact s.sameTables_erase name

/-- An access to the tiers is an access to one map. -/
theorem performAt_entries (s : Scoped) (access : Access) :
    access.performAt s.aliases.resolve s.entries =
      ((access.perform s).1, (access.perform s).2.entries) := by
  cases access with
  | get name => rfl
  | set name value => rw [performAt, perform, Scoped.entries_set]
  | erase name =>
    rw [performAt, perform, Scoped.entries_erase]
    rfl

/-- An access to one map changes it at most where it writes. -/
theorem performAt_of_not_written {κ : Type} [DecidableEq κ] {resolve : String → κ} {place : κ}
    {access : Access} (h : ∀ name ∈ access.written?, resolve name ≠ place)
    (entries : κ → Option Value) : (access.performAt resolve entries).2 place = entries place := by
  cases access with
  | get name => rfl
  | set name value => exact Function.update_of_ne (h name rfl).symm _ _
  | erase name => exact Function.update_of_ne (h name rfl).symm _ _

/-! ## Accesses one after the other -/

theorem sameTables_performAll (s : Scoped) (accesses : List Access) :
    s.SameTables (performAll perform s accesses).2 := by
  induction accesses generalizing s with
  | nil => exact .refl s
  | cons access accesses ih => exact (sameTables_perform s access).trans (ih _)

/-- Accesses to the tiers are accesses to one map. -/
theorem performAll_entries (s : Scoped) (accesses : List Access) :
    performAll (performAt s.aliases.resolve) s.entries accesses =
      ((performAll perform s accesses).1, (performAll perform s accesses).2.entries) := by
  induction accesses generalizing s with
  | nil => rfl
  | cons access accesses ih =>
    have hrest := ih (access.perform s).2
    rw [(sameTables_perform s access).aliases] at hrest
    simp only [performAll, performAt_entries, hrest]

theorem performAll_append {σ : Type} (perform : σ → Access → Option Value × σ) (s : σ)
    (first second : List Access) : (performAll perform s (first ++ second)).2 =
      (performAll perform (performAll perform s first).2 second).2 := by
  induction first generalizing s with
  | nil => rfl
  | cons access first ih => exact ih _

/-- What one map holds where nothing is written stays. -/
theorem performAll_of_not_written {κ : Type} [DecidableEq κ] {resolve : String → κ} {place : κ}
    {accesses : List Access}
    (h : ∀ access ∈ accesses, ∀ name ∈ access.written?, resolve name ≠ place)
    (entries : κ → Option Value) :
    (performAll (performAt resolve) entries accesses).2 place = entries place := by
  induction accesses generalizing entries with
  | nil => rfl
  | cons access accesses ih =>
    obtain ⟨haccess, hmore⟩ := List.forall_mem_cons.mp h
    exact (ih hmore _).trans (performAt_of_not_written haccess entries)

/-- The last write at a place is found there. -/
theorem performAll_set_append {κ : Type} [DecidableEq κ] {resolve : String → κ} {name : String}
    {after : List Access}
    (h : ∀ access ∈ after, ∀ other ∈ access.written?, resolve other ≠ resolve name)
    (entries : κ → Option Value) (before : List Access) (value : Value) :
    (performAll (performAt resolve) entries (before ++ .set name value :: after)).2 (resolve name) =
      some value := by
  rw [performAll_append]
  exact (performAll_of_not_written h _).trans (Function.update_self _ _ _)

/-- For all that a command does with its variables, the tiers are one map whose keys are the places
that names resolve to: the answers are the same, and so is what is held at each place in the end.
What was set under one spelling is got, and erased, under every other spelling of the same place, as
long as nothing else is written there. What is held at other places stays. -/
theorem tiers_as_one_map (s : Scoped) (accesses : List Access) :
    let (answers, s') := performAll perform s accesses
    performAll (performAt s.aliases.resolve) s.entries accesses = (answers, s'.entries) ∧
    s.SameTables s' ∧
    (∀ before name value after spelling, accesses = before ++ .set name value :: after →
      (∀ access ∈ after, ∀ other ∈ access.written?,
        s.aliases.resolve other ≠ s.aliases.resolve name) →
      s.aliases.resolve spelling = s.aliases.resolve name →
      s'.get? spelling = some value ∧ (s'.erase spelling).1 = some value ∧
        (s'.erase spelling).2.get? name = none) ∧
    ∀ place, (∀ access ∈ accesses, ∀ other ∈ access.written?, s.aliases.resolve other ≠ place) →
      s'.entries place = s.entries place := by
  have hentries := performAll_entries s accesses
  have htables := sameTables_performAll s accesses
  generalize performAll perform s accesses = performed at hentries htables ⊢
  obtain ⟨answers, s'⟩ := performed
  refine ⟨hentries, htables, ?_, ?_⟩
  · rintro before name value after spelling rfl hafter hspelling
    have hheld : s'.entries (s.aliases.resolve name) = some value := by
      have hset := performAll_set_append hafter s.entries before value
      rwa [hentries] at hset
    have hget : s'.get? spelling = some value := by
      rw [s'.get?_eq_entries, htables.aliases, hspelling, hheld]
    exact ⟨hget, hget, Scoped.get?_erase (by rw [htables.aliases, hspelling])⟩
  · intro place hplace
    have hkept := performAll_of_not_written hplace s.entries
    rwa [hentries] at hkept

/-- An attribute set under its canonical name is got under an alias in another case. A variable of
the player with the same letters is set and erased in between. -/
theorem tiers_as_one_map_alias :
    let aliases := Aliases.insert {} "hp" ["Health"]
    let s : Scoped := { aliases, templates := .ofSeed 0 }
    (performAll perform s
      [.set "hp" (.int 7), .set "$mhp" (.int 1), .erase "$mhp"]).2.get? "HEALTH" =
      some (.int 7) := by
  have hafter : ∀ access ∈ [Access.set "$mhp" (.int 1), .erase "$mhp"],
      ∀ other ∈ access.written?, (Aliases.insert {} "hp" ["Health"]).resolve other ≠
        (Aliases.insert {} "hp" ["Health"]).resolve "hp" := by
    decide
  have hspelling : (Aliases.insert {} "hp" ["Health"]).resolve "HEALTH" =
      (Aliases.insert {} "hp" ["Health"]).resolve "hp" := by
    decide
  intro aliases s
  have hseen := (tiers_as_one_map s [.set "hp" (.int 7), .set "$mhp" (.int 1), .erase "$mhp"]).2.2.1
  exact (hseen [] "hp" (.int 7) _ "HEALTH" rfl hafter hspelling).1

end Access

end DiceBot
