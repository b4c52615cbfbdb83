import DiceBot.Text.Lowercase
import Std.Data.ExtTreeMap

/-!
# Aliases of attributes

An attribute may go by several names. A name is looked up without regard to case and replaced by
the canonical name it is registered for.
-/

namespace DiceBot

/-- The canonical names of attributes by their spellings in lower case. -/
structure Aliases where
  canonical : Std.ExtTreeMap String String := ∅
  deriving DecidableEq

namespace Aliases

/-- The key under which a spelling is registered. -/
def key (name : String) : String := String.ofList (Text.lower name.toList)

/-- Registers one spelling of a canonical name. A spelling that was registered before changes its
canonical name. -/
def register (canonical : String) (table : Aliases) (spelling : String) : Aliases :=
  ⟨table.canonical.insert (key spelling) canonical⟩

/-- Registers a canonical name under its own spelling and then under others. -/
def insert (table : Aliases) (canonical : String) (spellings : List String) : Aliases :=
  (canonical :: spellings).foldl (register canonical) table

/-- The canonical name registered for a spelling, or the name itself. -/
def canonicalize (table : Aliases) (name : String) : String :=
  (table.canonical[key name]?).getD name

/-- The number of registered spellings. -/
def size (table : Aliases) : Nat := table.canonical.size

end Aliases

end DiceBot
