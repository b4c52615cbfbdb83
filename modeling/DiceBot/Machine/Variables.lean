import DiceBot.Value
import Std.Data.ExtTreeMap

/-!
# Variables

How the machine reads and writes variables. A name that holds no variable may still stand for an
integer of an older record or for a text template; the flat map has neither.
-/

namespace DiceBot

/-- Variables by name, in the order of their names. -/
abbrev VariableMap := Std.ExtTreeMap String Value

/-- A place where variables are read and written. -/
class Variables (γ : Type) where
  /-- The value stored under a name. -/
  get? : γ → String → Option Value
  /-- Stores a value under a name. -/
  set : γ → String → Value → γ
  /-- Removes the value stored under a name, and gives it. -/
  erase : γ → String → Option Value × γ
  /-- The integer that an older record holds under a name. -/
  legacy? : γ → String → Option Int64
  /-- Picks a text template for a name. Picking may use up randomness. -/
  template? : γ → String → Option String × γ

instance : Variables VariableMap where
  get? vars name := vars[name]?
  set vars name value := vars.insert name value
  erase vars name := (vars[name]?, vars.erase name)
  legacy? _ _ := none
  template? vars _ := (none, vars)

end DiceBot
