import DiceBot.Markup.Pattern
import DiceBot.Text.Blank
import DiceBot.Text.Numeral

/-!
# Attribute entries

Attributes are written as a name, an optional operator and a number or formula, with or without
white space between: `hp10`, `san: 50`, `hp+1d6`. Several entries follow one another, and what is
no entry is passed over.
-/

namespace DiceBot

open Text

/-- An entry: the name of an attribute, the operator if there is one, and the formula. -/
structure AttributeEntry where
  name : String
  operator : Option Char
  formula : String
  deriving DecidableEq

namespace AttributeEntry

/-- Can `c` stand in the name of an attribute? -/
def isNameChar (c : Char) : Bool :=
  !isBlank c && !isDecimal c && !([':', '=', '+', '-', '*', '/', '(', ')'].contains c)

/-- Is `c` the operator of an entry? -/
def isOperator (c : Char) : Bool := [':', '=', '+', '-'].contains c

/-- Can a formula start with `c`? -/
def startsFormula (c : Char) : Bool := c.isDigit || c == '('

/-- Can `c` stand in a formula? -/
def isFormulaChar (c : Char) : Bool :=
  c.isDigit || ['d', 'D', '+', '-', '*', '/', '(', ')'].contains c

/-- The operator that a text starts with, and what follows it. -/
def takeOperator : List Char → Option Char × List Char
  | [] => (none, [])
  | c :: cs => if isOperator c then (some c, cs) else (none, c :: cs)

/-- An entry at the front of a text. -/
def pattern : Pattern AttributeEntry := fun cs =>
  let name := cs.takeWhile isNameChar
  let (operator, rest) := takeOperator (trimLeft (cs.drop name.length))
  let rest := trimLeft rest
  -- a name with nothing but an operator behind it is passed over
  if name.isEmpty || !(rest.head?.any startsFormula) then none
  else
    let formula := rest.takeWhile isFormulaChar
    some (cs.length - rest.length + formula.length,
      ⟨String.ofList name, operator, String.ofList formula⟩)

/-- The entries of a text, from left to right. -/
def all (text : List Char) : List AttributeEntry := (pattern.occurrences text).map (·.meaning)

/-- The expression that an entry stands for: `+` and `-` change the attribute, and anything else
assigns it. -/
def source (entry : AttributeEntry) : String :=
  let operator := match entry.operator with
    | some '+' => " += ("
    | some '-' => " -= ("
    | _ => " = ("
  entry.name ++ operator ++ entry.formula ++ ")"

end AttributeEntry

end DiceBot
