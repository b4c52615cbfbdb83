import DiceBot.Text.Basic

/-!
# Tokens

The tokens of an expression and the bytes of the source that they cover.
-/

namespace DiceBot

/-- Why a piece of a source is no token. -/
inductive LexFault where
  /-- No token starts with this character. -/
  | unexpectedCharacter (c : Char)
  /-- A text holds a backslash before a character that has no escape. -/
  | invalidEscape (c : Char)
  /-- A text without its closing quote. -/
  | openText
  /-- A template without its closing backtick. -/
  | openTemplate
  /-- An integer beyond 64 bits. -/
  | integerTooLarge
  deriving DecidableEq

/-- The fault in words. -/
def LexFault.message : LexFault → String
  | .unexpectedCharacter c => "unexpected character: " ++ c.toString
  | .invalidEscape c => "invalid escape sequence: \\" ++ c.toString
  | .openText => "unterminated string literal"
  | .openTemplate => "unterminated format string"
  | .integerTooLarge => "invalid integer: number too large to fit in target type"

/-- What a token is. -/
inductive TokenKind where
  /-- A decimal integer without a sign. -/
  | int (n : Int64)
  /-- The name of a variable. -/
  | name (s : String)
  /-- A quoted text, its escapes resolved. -/
  | text (s : String)
  /-- A text between backticks, its placeholders still in place. -/
  | template (s : String)
  /-- A `d` or `D` that stands for dice. -/
  | dice
  | plus
  | minus
  | star
  | slash
  | percent
  /-- A `^` or `**`. -/
  | caret
  | assign
  | plusAssign
  | minusAssign
  | starAssign
  | slashAssign
  | openParen
  | closeParen
  | endOfInput
  | invalid (fault : LexFault)
  deriving DecidableEq

namespace TokenKind

/-- What a token is called in a message. -/
def describe : TokenKind → String
  | .int n => toString n.toInt
  | .name s => "`" ++ s ++ "`"
  | .text _ => "string"
  | .template _ => "format string"
  | .dice => "`d`"
  | .plus => "`+`"
  | .minus => "`-`"
  | .star => "`*`"
  | .slash => "`/`"
  | .percent => "`%`"
  | .caret => "`^`"
  | .assign => "`=`"
  | .plusAssign => "`+=`"
  | .minusAssign => "`-=`"
  | .starAssign => "`*=`"
  | .slashAssign => "`/=`"
  | .openParen => "`(`"
  | .closeParen => "`)`"
  | .endOfInput => "end of input"
  | .invalid fault => fault.message

/-- Can an operand start with this token? -/
def startsOperand : TokenKind → Bool
  | .int _ => true
  | .name _ => true
  | .text _ => true
  | .template _ => true
  | .openParen => true
  | _ => false

end TokenKind

/-- A token and the bytes that it covers, from `start` up to but not including `stop`. -/
structure Token where
  kind : TokenKind
  start : Nat
  stop : Nat
  deriving DecidableEq

namespace Token

/-- The number of bytes covered. -/
def byteLength (t : Token) : Nat := t.stop - t.start

/-- Does the token cover nothing? -/
def isEmpty (t : Token) : Bool := t.start == t.stop

/-- The text that a token covers when its source is placed `shift` bytes further left. -/
def textAt (t : Token) (shift : Nat) (source : String) : String :=
  String.ofList (Text.slice (t.start + shift) (t.stop + shift) source.toList)

end Token

end DiceBot
