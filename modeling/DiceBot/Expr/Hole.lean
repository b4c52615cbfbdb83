import DiceBot.Text.Basic
import DiceBot.Text.Blank

/-!
# Placeholders of a template

A template holds expressions in braces. From the left, each opening brace reaches to the next
closing brace. Braces around nothing but white space are ordinary text, and so is an opening
brace that is never closed.
-/

namespace DiceBot

open Text

/-- A placeholder: the byte offset of its opening brace in the template, and the text between the
braces. -/
structure Hole where
  offset : Nat
  inner : List Char
  deriving DecidableEq

namespace Hole

/-- The text of a placeholder with its braces. -/
def text (hole : Hole) : String := String.ofList ('\x7b' :: hole.inner ++ ['\x7d'])

/-- What has been read of a placeholder: the offset of its brace, and the text after it in
reverse. -/
structure Open where
  offset : Nat
  reading : List Char

/-- The placeholders of a text that starts at byte `start`; `current` is the brace that is open. -/
def scan (current : Option Open) (start : Nat) : List Char → List Hole
  | [] => []
  | c :: cs =>
      let next := start + c.utf8Size
      match current with
      | none => scan (if c = '\x7b' then some ⟨start, []⟩ else none) next cs
      | some brace =>
          if c = '\x7d' then
            if brace.reading.all isBlank then scan none next cs
            else ⟨brace.offset, brace.reading.reverse⟩ :: scan none next cs
          -- a further opening brace is part of the text between the braces
          else scan (some { brace with reading := c :: brace.reading }) next cs

/-- The placeholders of a template from left to right. -/
def ofTemplate (template : String) : List Hole := scan none 0 template.toList

end Hole

end DiceBot
