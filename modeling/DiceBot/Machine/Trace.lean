import DiceBot.Integer.Operator

/-!
# Traces

A trace shows how a result came about: the outermost chain of operators with their operands, and
in brackets after an operand the dice and variables that went into it. Only operators whose result
lies at the bottom of the stack are shown, so the operators of a chain are those of the whole
expression.

The first operator of an evaluation shows its operands without details.
-/

namespace DiceBot

/-- What went into an operand. -/
inductive Detail where
  /-- Dice, their number of sides and their sum. -/
  | rolled (count sides sum : Int64)
  /-- A variable with an integer value. -/
  | variable (name : String) (n : Int64)
  deriving DecidableEq

/-- A detail in words. -/
def Detail.render : Detail → String
  | .rolled count sides sum =>
      toString count.toInt ++ "d" ++ toString sides.toInt ++ "=" ++ toString sum.toInt
  | .variable name n => name ++ "=" ++ toString n.toInt

/-- A piece of a trace. -/
inductive TracePiece where
  /-- The leftmost operand of the chain. -/
  | operand (n : Int64)
  /-- The details of the operand before. -/
  | details (ds : List Detail)
  /-- An operator and its right operand. -/
  | operator (op : Operator) (right : Int64)
  deriving DecidableEq

/-- A piece in words. -/
def TracePiece.render : TracePiece → String
  | .operand n => toString n.toInt
  | .details ds => "[" ++ String.intercalate "," (ds.map Detail.render) ++ "]"
  | .operator op right => " " ++ op.symbol ++ " " ++ toString right.toInt

/-- A trace under way. -/
structure Trace where
  /-- What is shown. -/
  shown : List TracePiece := []
  /-- The details noted since the last mark or shown operator. -/
  pending : List Detail := []
  /-- The details of the left operand of the operator to come. -/
  left : List Detail := []
  /-- The number of operators so far, counted dice among them. -/
  operators : Nat := 0
  deriving DecidableEq

namespace Trace

/-- Notes a detail. -/
def note (t : Trace) (d : Detail) : Trace := { t with pending := t.pending ++ [d] }

/-- Marks the end of a left operand with the stack at the given height. At the bottom of the
stack the details noted so far become those of the left operand. -/
def markLeft (t : Trace) (height : Nat) : Trace :=
  if height = 1 then { t with left := t.pending, pending := [] } else t

/-- Counts an operator that is never shown. -/
def count (t : Trace) : Trace := { t with operators := t.operators + 1 }

/-- A piece for the details, if there are any. -/
def bracket : List Detail → List TracePiece
  | [] => []
  | ds => [.details ds]

/-- Counts an operator and shows it if its result will lie at the bottom of the stack, that is if
the stack will have height 1. -/
def operator (t : Trace) (op : Operator) (left right : Int64) (height : Nat) : Trace :=
  let t := t.count
  if height ≠ 1 then t
  -- what has been noted for the first operator is left for the next one
  else if t.operators = 1 then { t with shown := t.shown ++ [.operand left, .operator op right] }
  else
    let head := if t.shown.isEmpty then [.operand left] else []
    { t with
      shown := t.shown ++ head ++ bracket t.left ++ [.operator op right] ++ bracket t.pending
      left := []
      pending := [] }

/-- The text of a trace. -/
def render (t : Trace) : String := String.join (t.shown.map TracePiece.render)

end Trace

end DiceBot
