import DiceBot.Dice.Source
import DiceBot.Dice.Keystream

/-!
# Uniform draws

A number below a bound is the high half of the product of the bound with a random word. To make
all numbers equally likely, products whose low half lies beyond the last full cycle are drawn
again. A draw is repeated at most `maxRedraws` times, which no seed is ever seen to need.
-/

namespace DiceBot

/-- The number of words that a draw may reject. -/
def maxRedraws : Nat := 128

/-- Takes numbers below `size` with `draw` until the low half of the product with `bound` is at
most `zone`, and gives its high half. -/
def drawBelow {σ : Type} (draw : σ → Nat × σ) (size bound zone : Nat) : Nat → σ → Nat × σ
  | 0, s =>
      -- the last word is taken wherever its product lies
      let (v, s) := draw s
      (v * bound / size, s)
  | redraws + 1, s =>
      let (v, s) := draw s
      let product := v * bound
      if product % size ≤ zone then (product / size, s)
      else drawBelow draw size bound zone redraws s

/-- A number below a bound is below it, whichever word it is taken from. -/
theorem drawBelow_lt {σ : Type} {draw : σ → Nat × σ} {size bound zone : Nat}
    (hdraw : ∀ s, (draw s).1 < size) (hbound : 0 < bound) (redraws : Nat) (s : σ) :
    (drawBelow draw size bound zone redraws s).1 < bound := by
  have hlt : ∀ v, v < size → v * bound / size < bound := fun v hv =>
    Nat.div_lt_of_lt_mul (Nat.mul_lt_mul_of_pos_right hv hbound)
  induction redraws generalizing s with
  | zero => exact hlt _ (hdraw s)
  | succ n ih =>
    rw [drawBelow]
    dsimp only
    split
    · exact hlt _ (hdraw s)
    · exact ih _

/-- The last low half that a draw below `bound` accepts with 64-bit words: `bound` shifted left
as far as the word allows, less one. -/
def dieZone (bound : Nat) : Nat := Nat.shiftLeft bound (63 - bound.log2) - 1

/-- Dice whose faces come from the stream of a seed. -/
structure SeededDice where
  stream : Keystream
  deriving DecidableEq

namespace SeededDice

/-- The dice of a seed. -/
def ofSeed (seed : UInt64) : SeededDice := ⟨Keystream.ofSeed seed⟩

/-- Rolls one die. A die without sides shows 0 and takes nothing from the stream. -/
def roll (dice : SeededDice) (sides : Int64) : Int64 × SeededDice :=
  if sides ≤ 0 then (0, dice)
  else
    let bound := sides.toInt.toNat
    let draw := fun (stream : Keystream) => stream.nextPair.map UInt64.toNat id
    let (below, stream) := drawBelow draw Keystream.pairCount bound (dieZone bound) maxRedraws
      dice.stream
    (Int64.ofNat (below + 1), ⟨stream⟩)

end SeededDice

instance : DiceSource SeededDice := ⟨SeededDice.roll⟩

end DiceBot
