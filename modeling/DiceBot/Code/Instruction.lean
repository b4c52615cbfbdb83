import DiceBot.Integer.Operator

/-!
# Instructions

The instructions of the stack machine and their mnemonics.
-/

namespace DiceBot

/-- An instruction. The comments give the top of the stack before and after, the top last. -/
inductive Instruction where
  /-- `[] → [n]` -/
  | int (n : Int64)
  /-- `[] → [s]` -/
  | text (s : String)
  /-- `[a, b] → [b, a]` -/
  | swap
  /-- `[a] → [-a]` -/
  | negate
  /-- `[a, b] → [a op b]` -/
  | binary (op : Operator)
  /-- `[sides] → [face]` -/
  | die
  /-- `[count, sides] → [sum]` -/
  | dice
  /-- `[] → [value of the variable]` -/
  | load (name : String)
  /-- `[v₁, …, vₙ] → [template with the n placeholders replaced]` -/
  | fill (template : String) (placeholders : List String)
  /-- `[name, value] → [value]`, after assigning the value to the name -/
  | store
  /-- `[] → []`; the details noted so far belong to a left operand -/
  | markLeft
  /-- `[] → []` -/
  | halt
  deriving DecidableEq

/-- The mnemonic of an operator. -/
def Operator.mnemonic : Operator → String
  | .add => "add"
  | .sub => "sub"
  | .mul => "mul"
  | .div => "div"
  | .mod => "mod"
  | .pow => "pow"

namespace Instruction

/-- The mnemonic of an instruction, with its operand if it has one. -/
def mnemonic : Instruction → String
  | .int n => "push " ++ toString n.toInt
  | .text s => "push.str " ++ s
  | .swap => "swap"
  | .negate => "neg"
  | .binary op => op.mnemonic
  | .die => "dice1"
  | .dice => "dice"
  | .load name => "ld.v " ++ name
  | .fill _ placeholders => "ld.fs " ++ toString placeholders.length
  | .store => "store"
  | .markLeft => "mark.left"
  | .halt => "halt"

end Instruction

end DiceBot
