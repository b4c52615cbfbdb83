/-!
# Powers

Powers are those of double-precision numbers, truncated back to the 64-bit range: a result
beyond the range becomes its nearest end. As long as the exact power has at most 53 bits a double
holds it exactly, so that case is decided over the integers.
-/

namespace DiceBot.Power

/-- Doubles represent all integers up to this magnitude, which is `2 ^ 53`. -/
def doubleLimit : Int := 9007199254740992

/-- The exact power, where a double is sure to represent it. -/
def withinDouble? (a b : Int64) : Option Int64 :=
  if 0 ≤ b.toInt ∧ b.toInt ≤ 53 then
    let p := Int.pow a.toInt b.toInt.toNat
    if -doubleLimit ≤ p ∧ p ≤ doubleLimit then some (Int64.ofInt p) else none
  else none

/-- The power of double-precision numbers, truncated toward zero; out of range gives the nearest
end of the range, and a result that is no number gives zero. -/
def approximate (a b : Int64) : Int64 := (Float.pow a.toFloat b.toFloat).toInt64

/-- `a` to the power of `b`. -/
def power (a b : Int64) : Int64 := (withinDouble? a b).getD (approximate a b)

example : power (-3) 5 = -243 ∧ power 7 0 = 1 ∧ power 10 15 = 1000000000000000 := by decide

end DiceBot.Power
