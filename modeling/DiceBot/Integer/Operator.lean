import DiceBot.Fault
import DiceBot.Integer.Checked
import DiceBot.Integer.Power

/-!
# Binary operators

The six arithmetic operators, their symbols, and their results on 64-bit integers.
-/

namespace DiceBot

/-- A binary operator of arithmetic. -/
inductive Operator where
  | add
  | sub
  | mul
  | div
  | mod
  | pow
  deriving DecidableEq

namespace Operator

/-- The symbol of an operator in traces and messages. -/
def symbol : Operator → String
  | .add => "+"
  | .sub => "-"
  | .mul => "*"
  | .div => "/"
  | .mod => "%"
  | .pow => "**"

/-- The result of an operator that fails only by leaving the 64-bit range. -/
def orOverflow (op : Operator) : Option Int64 → Except Cause Int64
  | some n => .ok n
  | none => .error (.arithmeticOverflow op.symbol)

/-- The result of an operator, or why there is none. -/
def apply (op : Operator) (a b : Int64) : Except Cause Int64 :=
  match op with
  | .add => op.orOverflow (Checked.add? a b)
  | .sub => op.orOverflow (Checked.sub? a b)
  | .mul => op.orOverflow (Checked.mul? a b)
  | .div => if b = 0 then .error (.divisionByZero op.symbol) else op.orOverflow (Checked.div? a b)
  | .mod => if b = 0 then .error (.divisionByZero op.symbol) else op.orOverflow (Checked.mod? a b)
  | .pow => .ok (Power.power a b)

end Operator

end DiceBot
