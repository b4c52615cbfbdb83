import DiceBot.Machine.Run

/-!
# Settings of a bot

What can be set before a bot starts, and the machine that the settings describe.
-/

namespace DiceBot

/-- The settings of a bot. -/
structure Settings where
  /-- What a command may start with, tried in order. -/
  leadIns : List String := [".", "。"]
  /-- The platform, which decides how mentions are written. -/
  platform : String := "QQ"
  /-- The most instructions of a program. -/
  capacity : Nat := 512
  /-- The most dice of an evaluation. -/
  diceBudget : Nat := 30000
  /-- The most repetitions that a message may ask for. -/
  maxRepeat : Nat := 12
  /-- The number of sides of a die that states none. -/
  usualSides : Int64 := 100
  /-- The seed of dice and templates, if they are to be reproducible. -/
  seed : Option UInt64 := none
  deriving DecidableEq

/-- The machine that the settings describe. -/
def Settings.machine (s : Settings) : Machine where
  limits := { diceBudget := s.diceBudget }
  code := ⟨s.capacity, s.usualSides⟩

end DiceBot
