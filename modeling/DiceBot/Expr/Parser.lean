import DiceBot.Expr.Hole
import DiceBot.Expr.Lexer
import DiceBot.Expr.Tree

/-!
# Reading expressions

The grammar, loosest operators first:

| level      | operators                | associativity |
|------------|--------------------------|---------------|
| assignment | `=` `+=` `-=` `*=` `/=`  | right         |
| sum        | `+` `-`                  | left          |
| product    | `*` `/` `%`              | left          |
| sign       | `-` in front             |               |
| power      | `^` `**`                 | right         |
| dice       | `A d B`, `d B`, `A d`    | left          |

An expression as a whole, one in parentheses, one assigned, one in a placeholder, and the operand
of a sign or on the right of a power each lie one nesting level deeper than what surrounds them.
The rules of a level are built from those one level further in, so that a source can nest only as
deep as there are levels.
-/

namespace DiceBot

/-- Why a source is no expression. -/
inductive SyntaxCause where
  /-- Nested deeper than the levels allow. -/
  | tooDeep
  /-- A piece that is no token. -/
  | invalid (fault : LexFault)
  /-- Something after the end of the expression. -/
  | unexpected (found : TokenKind)
  /-- No operand where there should be one. -/
  | missingOperand (found : TokenKind)
  /-- A parenthesis that is not closed. -/
  | missingClose (found : TokenKind)
  deriving DecidableEq

/-- The cause in words. -/
def SyntaxCause.message : SyntaxCause → String
  | .tooDeep => "expression nested too deeply"
  | .invalid fault => fault.message
  | .unexpected found => "unexpected " ++ found.describe
  | .missingOperand found => "expected a value, found " ++ found.describe
  | .missingClose found => "expected `)`, found " ++ found.describe

/-- A cause, and the offset of the token that it is about. -/
structure SyntaxFault where
  cause : SyntaxCause
  offset : Nat
  deriving DecidableEq

namespace Expr

/-- A rule reads an expression from the front of the tokens and leaves the others. -/
abbrev Rule := List Token → Except SyntaxFault (Expr × List Token)

/-- The first token; past the last one, the end of input at offset 0. -/
def peek (ts : List Token) : Token := ts.headD ⟨.endOfInput, 0, 0⟩

/-- Refuses the first token. -/
def refuse {α : Type} (cause : TokenKind → SyntaxCause) (ts : List Token) :
    Except SyntaxFault α :=
  .error ⟨cause (peek ts).kind, (peek ts).start⟩

/-- Accepts tokens of which only the end of input is left. -/
def expectEnd (ts : List Token) : Except SyntaxFault Unit :=
  match (peek ts).kind with
  | .endOfInput => .ok ()
  | .invalid fault => refuse (fun _ => .invalid fault) ts
  | _ => refuse .unexpected ts

/-- The rules one nesting level further in. -/
structure Inner where
  /-- A whole expression. -/
  expression : Rule
  /-- The operand of a sign or on the right of a power. -/
  operand : Rule

/-- Past the innermost level every rule refuses. -/
def tooDeep : Inner := ⟨refuse fun _ => .tooDeep, refuse fun _ => .tooDeep⟩

/-- The expression of a placeholder in a template whose text starts at byte `start`. -/
def part (inner : Inner) (start : Nat) (hole : Hole) : Except SyntaxFault Expr := do
  let (e, rest) ← inner.expression (tokenize (start + hole.offset + 1) hole.inner)
  expectEnd rest
  return e

/-- The expressions of placeholders, from left to right. -/
def parts (inner : Inner) (start : Nat) : List Hole → Except SyntaxFault (List Expr)
  | [] => .ok []
  | hole :: holes => do
      let e ← part inner start hole
      let es ← parts inner start holes
      return e :: es

/-- Accepts a closing parenthesis. -/
def expectClose (ts : List Token) : Except SyntaxFault (List Token) :=
  if (peek ts).kind = .closeParen then .ok ts.tail else refuse .missingClose ts

/-- A literal, a variable, a template or an expression in parentheses. -/
def primary (inner : Inner) : Rule
  | [] => refuse .missingOperand []
  | t :: rest =>
      match t.kind with
      | .int n => .ok (.int n, rest)
      | .name s => .ok (.variable s, rest)
      | .text s => .ok (.text s, rest)
      | .template s => do
          let es ← parts inner (t.start + 1) (Hole.ofTemplate s)
          return (.template s es, rest)
      | .openParen => do
          let (e, rest) ← inner.expression rest
          let rest ← expectClose rest
          return (e, rest)
      | .invalid fault => refuse (fun _ => .invalid fault) (t :: rest)
      | _ => refuse .missingOperand (t :: rest)

/-- Continues a left-associative chain: as long as `joins` knows the next token, the expression
read so far is joined with the next operand. -/
def chain (joins : TokenKind → Option (Expr → Expr → Expr)) (operand : Rule) :
    (fuel : Nat) → Expr → Rule
  | 0, left, ts => .ok (left, ts)
  | fuel + 1, left, ts =>
      match joins (peek ts).kind with
      | none => .ok (left, ts)
      | some join => do
          let (right, rest) ← operand ts.tail
          chain joins operand fuel (join left right) rest

/-- Operands joined from the left. -/
def leftAssociative (joins : TokenKind → Option (Expr → Expr → Expr)) (operand : Rule) : Rule :=
  fun ts => do
    let (first, rest) ← operand ts
    chain joins operand rest.length first rest

/-- The number of sides after a `d`: an operand, or the usual number if none follows. -/
def sides (inner : Inner) : Rule := fun ts =>
  if (peek ts).kind.startsOperand then primary inner ts else .ok (.usualSides, ts)

/-- How `d` joins the expressions around it. -/
def joinsDice : TokenKind → Option (Expr → Expr → Expr)
  | .dice => some .dice
  | _ => none

/-- Dice, with or without a count in front. -/
def diceRule (inner : Inner) : Rule := fun ts => do
  let (first, rest) ←
    if (peek ts).kind = .dice then do
      let (s, rest) ← sides inner ts.tail
      Except.ok (Expr.die s, rest)
    else primary inner ts
  chain joinsDice (sides inner) rest.length first rest

/-- A power, or just its base. -/
def powerRule (inner : Inner) : Rule := fun ts => do
  let (base, rest) ← diceRule inner ts
  if (peek rest).kind = .caret then
    let (exponent, rest) ← inner.operand rest.tail
    return (.binary .pow base exponent, rest)
  else
    return (base, rest)

/-- An operand with or without a sign. -/
def operandRule (inner : Inner) : Rule := fun ts =>
  if (peek ts).kind = .minus then do
    let (e, rest) ← inner.operand ts.tail
    return (.negate e, rest)
  else powerRule inner ts

/-- How the operators of products join. -/
def joinsProduct : TokenKind → Option (Expr → Expr → Expr)
  | .star => some (.binary .mul)
  | .slash => some (.binary .div)
  | .percent => some (.binary .mod)
  | _ => none

/-- How the operators of sums join. -/
def joinsSum : TokenKind → Option (Expr → Expr → Expr)
  | .plus => some (.binary .add)
  | .minus => some (.binary .sub)
  | _ => none

/-- A product. -/
def productRule (inner : Inner) : Rule := leftAssociative joinsProduct (operandRule inner)

/-- A sum. -/
def sumRule (inner : Inner) : Rule := leftAssociative joinsSum (productRule inner)

/-- What an assigning operator makes of a name and an expression. -/
def assignment? : TokenKind → Option (String → Expr → Expr)
  | .assign => some .assign
  | .plusAssign => some (.update .add)
  | .minusAssign => some (.update .sub)
  | .starAssign => some (.update .mul)
  | .slashAssign => some (.update .div)
  | _ => none

/-- The name and the operator of an assignment that the tokens start with. -/
def target? : List Token → Option (String × (String → Expr → Expr))
  | t :: u :: _ =>
      match t.kind with
      | .name x => (assignment? u.kind).map fun build => (x, build)
      | _ => none
  | _ => none

/-- An assignment or a sum. -/
def assignmentRule (inner : Inner) : Rule := fun ts =>
  match target? ts with
  | some (x, build) => do
      let (e, rest) ← inner.expression (ts.drop 2)
      return (build x e, rest)
  | none => sumRule inner ts

/-- The rules with the given number of nesting levels left. -/
def rules : Nat → Inner
  | 0 => tooDeep
  | levels + 1 => ⟨assignmentRule (rules levels), operandRule (rules levels)⟩

/-- The number of nesting levels of a source. -/
def maxNesting : Nat := 64

/-- The expression that a source spells. -/
def parse (source : String) : Except SyntaxFault Expr := do
  let (e, rest) ← (rules maxNesting).expression (tokenize 0 source.toList)
  expectEnd rest
  return e

/-- The expression of a whole text taken as a template. -/
def parseTemplate (text : String) : Except SyntaxFault Expr := do
  let es ← parts (rules maxNesting) 0 (Hole.ofTemplate text)
  return .template text es

end Expr

end DiceBot
