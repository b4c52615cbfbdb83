import DiceBot.Integer.Checked
import DiceBot.Text.Blank
import DiceBot.Text.Letter
import DiceBot.Text.Numeral
import DiceBot.Expr.Token

/-!
# Reading tokens

A source is read from left to right. White space is skipped; every other character belongs to a
token, if only to one that reports a fault. A lone `d` stands for dice unless it starts a longer
name: the `d` of `1d20`, `d` and `2d(3)` does, that of `dex` does not.
-/

namespace DiceBot

open Text

/-- Can a name start with `c`? -/
def startsName (c : Char) : Bool := isLetter c || c == '_' || c == '$'

/-- Can `c` stand in a name after its start? -/
def continuesName (c : Char) : Bool := isLetter c || isNumeral c || c == '_' || c == ':'

/-- A token read at the front of a text: its kind, the characters it covers, and what follows. -/
structure Lexeme where
  kind : TokenKind
  covered : List Char
  rest : List Char
  deriving DecidableEq

/-- A literal whose opening quote has been read: its content or what is wrong with it, the
characters it covers, and what follows. -/
structure Literal where
  content : Except LexFault (List Char)
  covered : List Char
  rest : List Char

namespace Literal

/-- Puts a character in front of the content, spelled `spelling`. -/
def push (spelling : List Char) (c : Char) (l : Literal) : Literal :=
  { l with content := l.content.map (c :: ·), covered := spelling ++ l.covered }

/-- The character that a backslash and `c` stand for. -/
def unescape : Char → Option Char
  | 'n' => some '\n'
  | 't' => some '\t'
  | '\\' => some '\\'
  | '\x22' => some '\x22'
  | _ => none

/-- Reads a quoted text up to its closing quote. A backslash that escapes nothing ends the
literal, and the character after it is not read. -/
def ofQuoted : List Char → Literal
  | [] => ⟨.error .openText, [], []⟩
  | c :: cs =>
      if c = '\x22' then ⟨.ok [], [c], cs⟩
      else if c = '\\' then
        match cs with
        | [] => ⟨.error .openText, [c], []⟩
        | e :: rest =>
            match unescape e with
            | some meant => (ofQuoted rest).push [c, e] meant
            | none => ⟨.error (.invalidEscape e), [c], e :: rest⟩
      else (ofQuoted cs).push [c] c

/-- Reads a template up to its closing backtick. -/
def ofTemplate : List Char → Literal
  | [] => ⟨.error .openTemplate, [], []⟩
  | c :: cs => if c = '\x60' then ⟨.ok [], [c], cs⟩ else (ofTemplate cs).push [c] c

/-- The token of a literal that opens with `quote`. -/
def toLexeme (quote : Char) (kind : String → TokenKind) (l : Literal) : Lexeme where
  kind := match l.content with
    | .ok content => kind (String.ofList content)
    | .error fault => .invalid fault
  covered := quote :: l.covered
  rest := l.rest

end Literal

namespace Lexeme

/-- The number that ASCII digits spell. -/
def digitsValue (digits : List Char) : Nat :=
  digits.foldl (fun n c => 10 * n + (c.toNat - '0'.toNat)) 0

/-- The token of a run of ASCII digits. -/
def intKind (digits : List Char) : TokenKind :=
  match Checked.ofInt? (digitsValue digits) with
  | some n => .int n
  | none => .invalid .integerTooLarge

/-- A token of one character. -/
def single (kind : TokenKind) (c : Char) (cs : List Char) : Lexeme := ⟨kind, [c], cs⟩

/-- An operator, or its assigning form if `=` follows. -/
def orAssign (plain assigning : TokenKind) (c : Char) : List Char → Lexeme
  | '=' :: cs => ⟨assigning, [c, '='], cs⟩
  | cs => ⟨plain, [c], cs⟩

/-- A token that takes `c` and the longest run of characters in a class. -/
def run (kind : List Char → TokenKind) (continues : Char → Bool) (c : Char) (cs : List Char) :
    Lexeme :=
  let covered := c :: cs.takeWhile continues
  ⟨kind covered, covered, cs.dropWhile continues⟩

/-- Does a `d` before these characters stand for dice? -/
def isDiceBefore : List Char → Bool
  | [] => true
  | c :: _ => !continuesName c || c.isDigit

/-- The token that starts with `c`, which is not white space. -/
def ofFirst (c : Char) (cs : List Char) : Lexeme :=
  match c with
  | '(' => single .openParen c cs
  | ')' => single .closeParen c cs
  | '%' => single .percent c cs
  | '^' => single .caret c cs
  | '=' => single .assign c cs
  | '+' => orAssign .plus .plusAssign c cs
  | '-' => orAssign .minus .minusAssign c cs
  | '/' => orAssign .slash .slashAssign c cs
  | '*' =>
      match cs with
      | '*' :: rest => ⟨.caret, [c, '*'], rest⟩
      | _ => orAssign .star .starAssign c cs
  | '\x22' => (Literal.ofQuoted cs).toLexeme c .text
  | '\x60' => (Literal.ofTemplate cs).toLexeme c .template
  | _ =>
      if c.isDigit then run intKind Char.isDigit c cs
      else if (c == 'd' || c == 'D') && isDiceBefore cs then single .dice c cs
      else if startsName c then run (fun name => .name (String.ofList name)) continuesName c cs
      else single (.invalid (.unexpectedCharacter c)) c cs

end Lexeme

/-- The tokens of a text that starts at byte `start`, as many as `fuel`, and the end of input. -/
def tokensFrom : (fuel : Nat) → (start : Nat) → List Char → List Token
  | 0, start, _ => [⟨.endOfInput, start, start⟩]
  | fuel + 1, start, cs =>
      let start := start + byteLength (cs.takeWhile isBlank)
      match cs.dropWhile isBlank with
      | [] => [⟨.endOfInput, start, start⟩]
      | c :: rest =>
          let lexeme := Lexeme.ofFirst c rest
          let stop := start + byteLength lexeme.covered
          ⟨lexeme.kind, start, stop⟩ :: tokensFrom fuel stop lexeme.rest

/-- The tokens of a text whose first byte has the given offset. The last token is the end of
input. -/
def tokenize (start : Nat) (cs : List Char) : List Token := tokensFrom cs.length start cs

example : (tokenize 0 "2d6+dex".toList).map Token.kind =
    [.int 2, .dice, .int 6, .plus, .name "dex", .endOfInput] := by decide

end DiceBot
