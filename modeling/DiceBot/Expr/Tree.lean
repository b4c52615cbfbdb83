import DiceBot.Integer.Operator

/-!
# Expressions

The tree of an expression, with everything that decides what it evaluates to.
-/

namespace DiceBot

/-- An expression. -/
inductive Expr where
  /-- An integer. -/
  | int (n : Int64)
  /-- The number of sides of a die that states none. -/
  | usualSides
  /-- A quoted text. -/
  | text (s : String)
  /-- The value of a variable. -/
  | variable (name : String)
  /-- A template and the expressions of its placeholders, from left to right. -/
  | template (text : String) (parts : List Expr)
  /-- The opposite number. -/
  | negate (e : Expr)
  /-- An operator between two operands. -/
  | binary (op : Operator) (left right : Expr)
  /-- One die of the given sides. -/
  | die (sides : Expr)
  /-- The sum of several dice. -/
  | dice (count sides : Expr)
  /-- Assignment to a variable. -/
  | assign (name : String) (e : Expr)
  /-- Assignment of an operator's result, whose left operand is the variable's old value. -/
  | update (op : Operator) (name : String) (e : Expr)

end DiceBot
