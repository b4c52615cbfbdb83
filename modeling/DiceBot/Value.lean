/-!
# Values

What an expression evaluates to and what a variable holds. A computed value is a base together
with an expression that is evaluated again whenever the variable is read.
-/

namespace DiceBot

/-- A value. -/
inductive Value where
  /-- The absence of a value. -/
  | nothing
  /-- A 64-bit signed integer. -/
  | int (n : Int64)
  /-- A text. -/
  | text (s : String)
  /-- A truth value. -/
  | bool (b : Bool)
  /-- The source of an expression that is not evaluated. -/
  | expression (source : String)
  /-- A base and the source of the expression evaluated over it on every read. -/
  | computed (base : Value) (source : String)
  deriving DecidableEq, Inhabited

/-- The kinds of values. -/
inductive ValueKind where
  | nothing
  | int
  | text
  | bool
  | expression
  | computed
  deriving DecidableEq

/-- The name of a kind in messages. -/
def ValueKind.name : ValueKind → String
  | .nothing => "none"
  | .int => "int"
  | .text => "string"
  | .bool => "bool"
  | .expression => "expression"
  | .computed => "computed"

namespace Value

/-- The kind of a value. -/
def kind : Value → ValueKind
  | .nothing => .nothing
  | .int _ => .int
  | .text _ => .text
  | .bool _ => .bool
  | .expression _ => .expression
  | .computed _ _ => .computed

/-- Is the value absent? -/
def isNothing (v : Value) : Bool := v == .nothing

/-- The integer, if the value is one. -/
def int? : Value → Option Int64
  | .int n => some n
  | _ => none

/-- The text, if the value is one. -/
def text? : Value → Option String
  | .text s => some s
  | _ => none

/-- The truth value, if the value is one. -/
def bool? : Value → Option Bool
  | .bool b => some b
  | _ => none

/-- The text that a value shows as. -/
def display : Value → String
  | .nothing => ""
  | .int n => toString n.toInt
  | .text s => s
  | .bool true => "true"
  | .bool false => "false"
  | .expression source => source
  | .computed _ source => "&(" ++ source ++ ")"

/-- Is the value evaluated on every read? -/
def isComputed : Value → Bool
  | .computed _ _ => true
  | _ => false

end Value

end DiceBot
