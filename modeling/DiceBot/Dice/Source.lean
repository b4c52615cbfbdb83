/-!
# Sources of dice

Dice are rolled through a source, one face at a time, and each roll leaves the source that the
next one is taken from. Scripted dice show a given list of faces.
-/

namespace DiceBot

/-- A source of faces. Rolling a die gives its face and the source after the roll. -/
class DiceSource (δ : Type) where
  /-- Rolls one die with the given number of sides. -/
  roll : δ → Int64 → Int64 × δ

/-- The faces still to be shown, in order. The last one is shown again for ever. -/
structure ScriptedDice where
  faces : List Int64 := []
  deriving DecidableEq

namespace ScriptedDice

/-- The next face of the script, 1 if there is none. -/
def next (dice : ScriptedDice) : Int64 := dice.faces.headD 1

/-- The script after one face has been shown. -/
def advance (dice : ScriptedDice) : ScriptedDice :=
  match dice.faces with
  | _ :: face :: rest => ⟨face :: rest⟩
  | _ => dice

/-- Shows the next face, moved into the range of the die. A die without sides shows 0 and leaves
the script alone. -/
def roll (dice : ScriptedDice) (sides : Int64) : Int64 × ScriptedDice :=
  if sides ≤ 0 then (0, dice) else (max 1 (min dice.next sides), dice.advance)

end ScriptedDice

instance : DiceSource ScriptedDice := ⟨ScriptedDice.roll⟩

/-- Dice of either of two kinds. -/
instance {α β : Type} [DiceSource α] [DiceSource β] : DiceSource (α ⊕ β) where
  roll dice sides :=
    match dice with
    | .inl a => (DiceSource.roll a sides).map id .inl
    | .inr b => (DiceSource.roll b sides).map id .inr

end DiceBot
