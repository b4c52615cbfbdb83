/-!
# Checked 64-bit arithmetic

The operations of the integers, with a result only where the exact one lies in the 64-bit range.
Quotients are truncated toward zero and a remainder has the sign of the dividend.
-/

namespace DiceBot.Checked

/-- The 64-bit integer equal to `n`, if there is one. -/
def ofInt? (n : Int) : Option Int64 :=
  if Int64.minValue.toInt ≤ n ∧ n ≤ Int64.maxValue.toInt then some (Int64.ofInt n) else none

/-- A checked result is the exact one. -/
theorem toInt_of_ofInt? {n : Int} {v : Int64} (h : ofInt? n = some v) : v.toInt = n := by
  unfold ofInt? at h
  split at h
  · rename_i hn
    have hmin : Int64.minValue.toInt = -9223372036854775808 := by decide
    have hmax : Int64.maxValue.toInt = 9223372036854775807 := by decide
    rw [← Option.some.inj h]
    exact Int64.toInt_ofInt_of_le (by omega) (by omega)
  · simp at h

/-- There is a checked result exactly when the exact one is in range. -/
theorem ofInt?_isSome_iff {n : Int} :
    (ofInt? n).isSome = true ↔ Int64.minValue.toInt ≤ n ∧ n ≤ Int64.maxValue.toInt := by
  unfold ofInt?; split <;> simp_all

/-- The sum. -/
def add? (a b : Int64) : Option Int64 := ofInt? (a.toInt + b.toInt)

/-- The difference. -/
def sub? (a b : Int64) : Option Int64 := ofInt? (a.toInt - b.toInt)

/-- The product. -/
def mul? (a b : Int64) : Option Int64 := ofInt? (a.toInt * b.toInt)

/-- The quotient by a divisor other than zero. -/
def div? (a b : Int64) : Option Int64 := ofInt? (a.toInt.tdiv b.toInt)

/-- The remainder by a divisor other than zero, which exists when the quotient does. -/
def mod? (a b : Int64) : Option Int64 :=
  (div? a b).bind fun _ => ofInt? (a.toInt.tmod b.toInt)

/-- The opposite number. -/
def neg? (a : Int64) : Option Int64 := ofInt? (-a.toInt)

example : div? (-7) 2 = some (-3) ∧ mod? (-7) 2 = some (-1) := by decide
example : div? Int64.minValue (-1) = none ∧ mod? Int64.minValue (-1) = none := by decide
example : add? Int64.maxValue 1 = none ∧ neg? Int64.minValue = none := by decide

end DiceBot.Checked
