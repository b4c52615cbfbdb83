import DiceBot.Text.Basic

/-!
# Repeat markers

A number followed by `#` or `＃` asks for a command to be carried out several times. Only the
first such marker of a message counts.
-/

namespace DiceBot

namespace RepeatMarker

/-- Does `c` end a repeat marker? -/
def isSign (c : Char) : Bool := c == '#' || c == '＃'

/-- The largest count. -/
def maxCount : Nat := 4294967295

/-- The number that ASCII digits spell, or the largest count if it is larger. -/
def countOf (digits : List Char) : Nat :=
  min maxCount (digits.foldl (fun n c => 10 * n + (c.toNat - '0'.toNat)) 0)

/-- Removes the first marker of a text that follows the run `digits`, which is given in reverse.
Without a marker the text is unchanged and the count is 0. -/
def takeAfter (digits : List Char) : List Char → List Char × Nat
  | [] => (digits.reverse, 0)
  | c :: cs =>
      if c.isDigit then takeAfter (c :: digits) cs
      else if isSign c && !digits.isEmpty then (cs, countOf digits.reverse)
      else
        -- what interrupts a run of digits lets a new one start behind it
        let (rest, count) := takeAfter [] cs
        (digits.reverse ++ c :: rest, count)

/-- Removes the first repeat marker of a text and gives its count, 0 if there is none. -/
def take (text : List Char) : List Char × Nat := takeAfter [] text

end RepeatMarker

end DiceBot
