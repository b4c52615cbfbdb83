import DiceBot.Machine.Variables
import DiceBot.Memory.Aliases
import DiceBot.Memory.Tier
import DiceBot.Template.Table

/-!
# Variables in tiers

What one command sees: a map for each tier, the aliases, the integers of older records, and the
templates. A name is taken to its tier and, in the seat tier, to its canonical form; reading,
writing and erasing all follow the same way.
-/

namespace DiceBot

/-- Integers of older records by name. -/
abbrev LegacyMap := Std.ExtTreeMap String Int64

/-- The variables that one command sees. -/
structure Scoped where
  transient : VariableMap := ∅
  player : VariableMap := ∅
  group : VariableMap := ∅
  seat : VariableMap := ∅
  aliases : Aliases := {}
  legacy : LegacyMap := ∅
  templates : TemplateTable
  deriving DecidableEq

/-- The tier of a name and the key that it has there. -/
def Aliases.resolve (aliases : Aliases) (name : String) : Tier × String :=
  match Tier.ofName name with
  | .seat => (.seat, aliases.canonicalize name)
  | tier => (tier, name)

namespace Aliases

variable {name : String}

theorem resolve_of_seat (h : Tier.ofName name = .seat) (aliases : Aliases) :
    aliases.resolve name = (.seat, aliases.canonicalize name) := by
  simp only [resolve, h]

theorem resolve_of_ne_seat (h : Tier.ofName name ≠ .seat) (aliases : Aliases) :
    aliases.resolve name = (Tier.ofName name, name) := by
  cases hname : Tier.ofName name with
  | seat => exact absurd hname h
  | transient | player | group => simp only [resolve, hname]

end Aliases

namespace Scoped

/-- The map of a tier. -/
def tier (s : Scoped) : Tier → VariableMap
  | .transient => s.transient
  | .player => s.player
  | .group => s.group
  | .seat => s.seat

/-- Changes the map of a tier. -/
def updateTier (s : Scoped) (f : VariableMap → VariableMap) : Tier → Scoped
  | .transient => { s with transient := f s.transient }
  | .player => { s with player := f s.player }
  | .group => { s with group := f s.group }
  | .seat => { s with seat := f s.seat }

/-- The value stored under a name. -/
def get? (s : Scoped) (name : String) : Option Value :=
  let (tier, key) := s.aliases.resolve name
  (s.tier tier)[key]?

/-- Stores a value under a name. -/
def set (s : Scoped) (name : String) (value : Value) : Scoped :=
  let (tier, key) := s.aliases.resolve name
  s.updateTier (·.insert key value) tier

/-- Removes the value stored under a name, and gives it. -/
def erase (s : Scoped) (name : String) : Option Value × Scoped :=
  let (tier, key) := s.aliases.resolve name
  ((s.tier tier)[key]?, s.updateTier (·.erase key) tier)

/-- The integer that an older record holds under a name. -/
def legacy? (s : Scoped) (name : String) : Option Int64 :=
  s.legacy[(s.aliases.resolve name).2]?

/-- Draws a template of a name, which is taken as it is. -/
def template? (s : Scoped) (name : String) : Option String × Scoped :=
  let (text, templates) := s.templates.pick name
  (text, { s with templates })

end Scoped

instance : Variables Scoped where
  get? := Scoped.get?
  set := Scoped.set
  erase := Scoped.erase
  legacy? := Scoped.legacy?
  template? := Scoped.template?

end DiceBot
