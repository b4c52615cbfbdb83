import DiceBot.Text.Basic
import DiceBot.Text.Lowercase

/-!
# Keywords

A command word is recognised without regard to case, also when the argument is written directly
after it. Of several command words that a text starts with, the longest one is meant.
-/

namespace DiceBot

open Text

/-- What follows `word` in a text that starts with it, disregarding case. Only a front of the same
number of bytes is compared. -/
def stripIgnoringCase? (word text : List Char) : Option (List Char) :=
  match splitAtByte? (byteLength word) text with
  | some (front, back) => if eqIgnoringCase front word then some back else none
  | none => none

/-- The best match so far improved by a list of keywords. A keyword has to have more bytes than
the best one to replace it. -/
def longestAfter (text : List Char) :
    Option (List Char × List Char) → List (List Char) → Option (List Char × List Char)
  | best, [] => best
  | best, keyword :: keywords =>
      let longer : Bool := match best with
        | some (found, _) => byteLength found < byteLength keyword
        | none => !keyword.isEmpty
      if longer then
        match stripIgnoringCase? keyword text with
        | some rest => longestAfter text (some (keyword, rest)) keywords
        | none => longestAfter text best keywords
      else longestAfter text best keywords

/-- The longest keyword that a text starts with, and what follows it. Of equally long ones the
first is taken. -/
def longestKeyword? (text : List Char) (keywords : List (List Char)) :
    Option (List Char × List Char) :=
  longestAfter text none keywords

end DiceBot
