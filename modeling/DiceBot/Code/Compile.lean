import DiceBot.Code.Program
import DiceBot.Expr.Parser

/-!
# Compilation

The code of an expression is its postfix form: operands from left to right, then the operator. A
mark after each left operand of an arithmetic operator tells the trace which details belong to
it.
-/

namespace DiceBot

/-- What the code of an expression depends on besides the expression. -/
structure CodeSettings where
  /-- The most instructions of a program. -/
  capacity : Nat := 512
  /-- The number of sides of a die that states none. -/
  usualSides : Int64 := 100
  deriving DecidableEq

/-- The texts of a template's placeholders, braces included. -/
def placeholderTexts (template : String) : List String :=
  (Hole.ofTemplate template).map Hole.text

namespace Expr

mutual

/-- The postfix code of an expression. -/
def code (usual : Int64) : Expr → List Instruction
  | .int n => [.int n]
  | .usualSides => [.int usual]
  | .text s => [.text s]
  | .variable name => [.load name]
  | .template s parts => codeOfParts usual parts ++ [.fill s (placeholderTexts s)]
  | .negate e => code usual e ++ [.negate]
  | .binary op left right => code usual left ++ .markLeft :: code usual right ++ [.binary op]
  | .die sides => code usual sides ++ [.die]
  | .dice count sides => code usual count ++ code usual sides ++ [.dice]
  | .assign name e => .text name :: code usual e ++ [.store]
  | .update op name e =>
      .load name :: .markLeft :: code usual e ++ [.binary op, .text name, .swap, .store]

/-- The code of several expressions, one after the other. -/
def codeOfParts (usual : Int64) : List Expr → List Instruction
  | [] => []
  | e :: es => code usual e ++ codeOfParts usual es

end

/-- The program of an expression, which ends with `halt`. -/
def program (settings : CodeSettings) (e : Expr) : Program :=
  (Program.empty settings.capacity).emitAll (e.code settings.usualSides ++ [.halt])

end Expr

/-- The fault that a source is refused with. -/
def SyntaxFault.toFault (source : String) (fault : SyntaxFault) : Fault where
  cause := .malformed fault.cause.message fault.offset
  place := some { source := some source }

namespace CodeSettings

/-- The program of what was read from a text. A tree whose code does not fit has a program too, a
spoiled one. -/
def programOf (settings : CodeSettings) (text : String) :
    Except SyntaxFault Expr → Except Fault Program
  | .ok e => .ok (e.program settings)
  | .error fault => .error (fault.toFault text)

/-- The program of the expression that a source spells. -/
def compile (settings : CodeSettings) (source : String) : Except Fault Program :=
  settings.programOf source (Expr.parse source)

/-- The program that fills a whole text taken as a template. -/
def compileTemplate (settings : CodeSettings) (text : String) : Except Fault Program :=
  settings.programOf text (Expr.parseTemplate text)

end CodeSettings

end DiceBot
