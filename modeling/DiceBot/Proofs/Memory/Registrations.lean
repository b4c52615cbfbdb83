import DiceBot.Proofs.Memory.OneMap
import Mathlib.Data.List.Induction

/-!
# Registrations of aliases

The aliases are built by registering canonical names one after the other. What a name is taken to
is told from the registrations alone: the last one that lists it, under whatever case, decides
(`Aliases.canonicalize_ofRegistrations`). A canonical name may itself be listed by a later
registration of another name. It is then taken over, and what was stored under it is no longer found
there (`Aliases.canonical_reached_unless_taken_over`). This does not happen if no registration
lists the canonical name of an earlier one (`Aliases.canonicalize_idempotent`).
-/

namespace DiceBot

/-- A canonical name and its other spellings. -/
structure Registration where
  canonical : String
  spellings : List String
  deriving DecidableEq

namespace Registration

/-- Is the name the canonical one or a spelling of it, up to case? -/
def lists (r : Registration) (name : String) : Bool :=
  (r.canonical :: r.spellings).any fun spelling => Aliases.key spelling == Aliases.key name

theorem lists_canonical (r : Registration) : r.lists r.canonical = true := by
  simp [lists]

end Registration

/-- What is set under a name is got under the key that it is stored by, unless this is a canonical
name that resolves to another place. -/
theorem Scoped.get?_resolve_set (s : Scoped) (name : String) (value : Value) :
    let canonical := s.aliases.canonicalize name
    (s.set name value).get? (s.aliases.resolve name).2 =
      if Tier.ofName name = .seat ∧
        (Tier.ofName canonical ≠ .seat ∨ s.aliases.canonicalize canonical ≠ canonical)
      then s.get? canonical else some value := by
  intro canonical
  rw [s.get?_set]
  by_cases hname : Tier.ofName name = .seat
  · rw [s.aliases.resolve_of_seat hname]
    show (if s.aliases.resolve canonical = (.seat, canonical) then _ else s.get? canonical) = _
    by_cases hcanonical : Tier.ofName canonical = .seat
    · -- both places are in the seat tier, so they are told apart by their keys
      rw [s.aliases.resolve_of_seat hcanonical]
      by_cases hfixed : s.aliases.canonicalize canonical = canonical
      · rw [if_pos (congrArg _ hfixed), if_neg (by simp [hcanonical, hfixed])]
      · rw [if_neg (fun heq => hfixed (congrArg Prod.snd heq)), if_pos ⟨hname, .inr hfixed⟩]
    · rw [s.aliases.resolve_of_ne_seat hcanonical,
        if_neg (fun heq => hcanonical (congrArg Prod.fst heq)), if_pos ⟨hname, .inl hcanonical⟩]
  · rw [s.aliases.resolve_of_ne_seat hname, s.aliases.resolve_of_ne_seat hname, if_pos rfl,
      if_neg (fun hseat => hname hseat.1)]

namespace Aliases

variable {rs : List Registration} {name : String}

/-- The aliases after registrations one after the other. -/
def ofRegistrations (rs : List Registration) : Aliases :=
  rs.foldl (fun table r => table.insert r.canonical r.spellings) {}

/-- The last registration that lists a name. -/
def lastListing? (rs : List Registration) (name : String) : Option Registration :=
  rs.reverse.find? (·.lists name)

/-- Is the name listed last for another canonical name? -/
def takenOver (rs : List Registration) (name : String) : Bool :=
  (lastListing? rs name).any (·.canonical ≠ name)

/-! ## The last registration decides -/

theorem canonicalize_register (table : Aliases) (canonical spelling name : String) :
    (register canonical table spelling).canonicalize name =
      if key spelling = key name then canonical else table.canonicalize name := by
  rw [canonicalize, register, Std.ExtTreeMap.getElem?_insert]
  by_cases h : key spelling = key name
  · rw [if_pos (Std.LawfulEqOrd.compare_eq_iff_eq.mpr h), if_pos h, Option.getD_some]
  · rw [if_neg (fun heq => h (Std.LawfulEqOrd.compare_eq_iff_eq.mp heq)), if_neg h, canonicalize]

theorem canonicalize_foldl_register (table : Aliases) (canonical name : String)
    (spellings : List String) :
    (spellings.foldl (register canonical) table).canonicalize name =
      if spellings.any (fun spelling => key spelling == key name) then canonical
      else table.canonicalize name := by
  induction spellings generalizing table with
  | nil => rfl
  | cons spelling spellings ih =>
    rw [List.foldl_cons, ih, canonicalize_register, List.any_cons]
    by_cases h : key spelling = key name
    · simp [h]
    · simp [h]

theorem canonicalize_insert (table : Aliases) (r : Registration) (name : String) :
    (table.insert r.canonical r.spellings).canonicalize name =
      if r.lists name then r.canonical else table.canonicalize name :=
  canonicalize_foldl_register table r.canonical name _

/-- A name is taken to the canonical name of the last registration that lists it. -/
theorem canonicalize_ofRegistrations (rs : List Registration) (name : String) :
    (ofRegistrations rs).canonicalize name =
      ((lastListing? rs name).map Registration.canonical).getD name := by
  induction rs using List.reverseRecOn with
  | nil => rfl
  | append_singleton rs r ih =>
    have htable : ofRegistrations (rs ++ [r]) =
        (ofRegistrations rs).insert r.canonical r.spellings := by
      simp [ofRegistrations]
    rw [htable, canonicalize_insert, ih, lastListing?, lastListing?, List.reverse_append,
      List.reverse_singleton, List.singleton_append, List.find?_cons]
    cases r.lists name <;> rfl

theorem canonicalize_eq_self_iff :
    (ofRegistrations rs).canonicalize name = name ↔ takenOver rs name = false := by
  rw [canonicalize_ofRegistrations, takenOver]
  cases lastListing? rs name with
  | none => simp
  | some r => simp

/-! ## Canonical names that are taken over -/

/-- The last registration that lists a name stands behind others, and none behind it lists the
name. -/
theorem lastListing?_eq_some_iff {r : Registration} :
    lastListing? rs name = some r ↔ r.lists name = true ∧
      ∃ before after, rs = before ++ r :: after ∧ ∀ later ∈ after, later.lists name = false := by
  rw [lastListing?, List.find?_eq_some_iff_append]
  refine and_congr_right fun _ => ⟨?_, ?_⟩
  · rintro ⟨front, back, heq, hfront⟩
    refine ⟨back.reverse, front.reverse, ?_, ?_⟩
    · rw [← List.reverse_reverse rs, heq]
      simp
    · simpa using hfront
  · rintro ⟨before, after, rfl, hafter⟩
    refine ⟨after.reverse, before.reverse, by simp, ?_⟩
    simpa using hafter

/-- If no registration lists the canonical name of an earlier one for another name, then canonical
names are taken to themselves. -/
theorem canonicalize_idempotent
    (h : rs.Pairwise fun r later => later.lists r.canonical = true → later.canonical = r.canonical)
    (name : String) :
    (ofRegistrations rs).canonicalize ((ofRegistrations rs).canonicalize name) =
      (ofRegistrations rs).canonicalize name := by
  rw [canonicalize_ofRegistrations rs name]
  cases hlast : lastListing? rs name with
  | none => rw [Option.map_none, Option.getD_none, canonicalize_ofRegistrations, hlast]; rfl
  | some r =>
    rw [Option.map_some, Option.getD_some, canonicalize_eq_self_iff]
    obtain ⟨-, before, after, rfl, -⟩ := lastListing?_eq_some_iff.mp hlast
    -- what lists the canonical name last is this registration or one behind it
    obtain ⟨last, hlast'⟩ : ∃ last, lastListing? (r :: after) r.canonical = some last := by
      rw [← Option.isSome_iff_exists, lastListing?, List.find?_isSome]
      exact ⟨r, by simp, r.lists_canonical⟩
    have hwhole : lastListing? (before ++ r :: after) r.canonical = some last := by
      rw [lastListing?, List.reverse_append, List.find?_append, ← lastListing?, hlast',
        Option.some_or]
    obtain ⟨hlists, -⟩ := lastListing?_eq_some_iff.mp hlast'
    have hmem : last ∈ r :: after := List.mem_reverse.mp (List.mem_of_find?_eq_some hlast')
    have hsame : last.canonical = r.canonical := by
      rcases List.mem_cons.mp hmem with rfl | hlater
      · rfl
      · exact (List.pairwise_cons.mp (List.pairwise_append.mp h).2.1).1 last hlater hlists
    rw [takenOver, hwhole]
    simp [hsame]

/-- The canonical name that a name is taken to is taken to itself unless a registration has taken it
over. A value written under a name of the seat is then found under the canonical name, provided this
is a name of the seat too; otherwise what is found there is what was there before. Under a name
of another tier, which has no aliases, the value is always found. -/
theorem canonical_reached_unless_taken_over (rs : List Registration) (name : String) (s : Scoped)
    (value : Value) :
    let table := ofRegistrations rs
    let canonical := table.canonicalize name
    let s := { s with aliases := table }
    canonical = ((lastListing? rs name).map Registration.canonical).getD name ∧
    (table.canonicalize canonical = canonical ↔ takenOver rs canonical = false) ∧
    (s.set name value).get? (table.resolve name).2 =
      if Tier.ofName name = .seat ∧ (Tier.ofName canonical ≠ .seat ∨ takenOver rs canonical = true)
      then s.get? canonical else some value := by
  intro table canonical s
  refine ⟨canonicalize_ofRegistrations rs name, canonicalize_eq_self_iff, ?_⟩
  rw [s.get?_resolve_set name value]
  refine if_congr (and_congr_right fun _ => or_congr_right ?_) rfl rfl
  rw [Ne, canonicalize_eq_self_iff, Bool.not_eq_false]

/-- An alias becomes canonical, and the attribute whose canonical name it was is not found. -/
theorem not_canonicalize_idempotent :
    let table := ofRegistrations [⟨"hp", ["HitPoints"]⟩, ⟨"vitality", ["hp"]⟩]
    let s : Scoped := { aliases := table, templates := .ofSeed 0 }
    table.canonicalize (table.canonicalize "HitPoints") ≠ table.canonicalize "HitPoints" ∧
      (s.set "HitPoints" (.int 7)).get? (table.resolve "HitPoints").2 ≠ some (.int 7) := by
  decide

end Aliases

end DiceBot
