import DiceBot.Text.Ranges

/-!
# White space

White space is the Unicode property `White_Space`: it separates words, and it is what trimming
removes from the ends of a text.
-/

namespace DiceBot.Text

/-- The code points with the property `White_Space`. -/
def blankRanges : List (Nat × Nat) :=
  [
    (0x9, 0xD), (0x20, 0x20), (0x85, 0x85), (0xA0, 0xA0), (0x1680, 0x1680), (0x2000, 0x200A),
    (0x2028, 0x2029), (0x202F, 0x202F), (0x205F, 0x205F), (0x3000, 0x3000)
  ]

/-- Is `c` white space (property `White_Space`)? -/
def isBlank (c : Char) : Bool := inRanges blankRanges c

/-- The text without the white space in front. -/
def trimLeft (cs : List Char) : List Char := cs.dropWhile isBlank

/-- The text without the white space at its end. -/
def trimRight (cs : List Char) : List Char := (cs.reverse.dropWhile isBlank).reverse

/-- The text without the white space at both ends. -/
def trim (cs : List Char) : List Char := trimRight (trimLeft cs)

/-- Words of a text of which `word` is the last word read so far, in reverse. -/
def wordsAfter (word : List Char) : List Char → List (List Char)
  | [] => if word.isEmpty then [] else [word.reverse]
  | c :: cs =>
      if isBlank c then
        if word.isEmpty then wordsAfter [] cs else word.reverse :: wordsAfter [] cs
      else wordsAfter (c :: word) cs

/-- The maximal runs of characters that are not white space, from left to right. -/
def words (cs : List Char) : List (List Char) := wordsAfter [] cs

example : words "  a b\u3000cd ".toList = ["a".toList, "b".toList, "cd".toList] := by decide
example : trim "\u00a0 x y\t".toList = "x y".toList := by decide

end DiceBot.Text
