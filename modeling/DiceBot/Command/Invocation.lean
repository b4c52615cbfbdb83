import DiceBot.Command.Argument
import DiceBot.Command.Keyword
import DiceBot.Command.RepeatMarker
import DiceBot.Markup.InlineCode
import DiceBot.Markup.Mention

/-!
# Command invocations

A chat message is a command if, quotes and mentions aside, it starts with one of the lead-ins of
the bot. What follows is taken apart into the command word and its arguments.
-/

namespace DiceBot

open Text

/-- A chat message that is a command. -/
structure Invocation where
  /-- The command word, as the keyword list spells it if it is on the list. -/
  command : String
  /-- The positional arguments. -/
  arguments : List String
  /-- The named arguments. -/
  named : List NamedArgument
  /-- The mentions taken out of the message. -/
  mentions : List Mention
  /-- What follows the command word on its line. -/
  argumentText : String
  /-- The message as received. -/
  message : String
  /-- The lead-in of the command. -/
  leadIn : String
  /-- The platform that the message came from. -/
  platform : String
  /-- The keywords that the command word was looked for in. -/
  keywords : List String
  /-- Was there white space between the command word and its arguments? -/
  spaced : Bool
  /-- How often to carry the command out; 0 if the message does not say. -/
  repeatCount : Nat
  /-- The positional arguments with single spaces between them. -/
  cleanText : String
  /-- What is left of `cleanText` after a sub-command has been split off. -/
  choppedText : String := ""
  deriving DecidableEq

/-- The text with every carriage return before a line end removed. -/
def unifyLineEnds : List Char → List Char
  | [] => []
  | c :: cs =>
      match c, cs with
      | '\r', '\n' :: _ => unifyLineEnds cs
      | _, _ => c :: unifyLineEnds cs

/-- A message without quotes, mentions and the white space around, and the mentions. -/
def normalizeMessage (message : List Char) (platform : String) : List Char × List Mention :=
  let unquoted := InlineCode.strip ['r', 'e', 'p', 'l', 'y'] (unifyLineEnds message)
  let (rest, mentions) := Mention.extract unquoted platform
  (trim rest, mentions)

/-- The first lead-in that a text starts with, and what follows it. An empty lead-in is none. -/
def findLeadIn? (text : List Char) : List String → Option (String × List Char)
  | [] => none
  | leadIn :: rest =>
      match leadIn.toList.isPrefixOf? text with
      | some tail => if leadIn.isEmpty then findLeadIn? text rest else some (leadIn, tail)
      | none => findLeadIn? text rest

/-- Spellings of several words that count as one command word. -/
def foldedSpellings : List (List Char × List Char) := [("bot list".toList, "botlist".toList)]

/-- A text that starts with a spelling of several words, with that spelling folded. -/
def foldSpelling (text : List Char) : List (List Char × List Char) → List Char
  | [] => text
  | (spelling, word) :: rest =>
      match stripIgnoringCase? spelling text with
      | some tail => word ++ tail
      | none => foldSpelling text rest

/-- Does a text start with white space? -/
def startsBlank (text : List Char) : Bool :=
  match text with
  | [] => false
  | c :: _ => isBlank c

/-- The first word of a text and the rest of the line on which its arguments start. -/
def splitCommand? (body : List Char) : Option (List Char × List Char) :=
  let text := trimLeft body
  let command := text.takeWhile fun c => !isBlank c
  if command.isEmpty then none
  else some (command, (trimLeft (text.drop command.length)).takeWhile (· ≠ '\n'))

namespace Invocation

/-- Reads a message as a command; `consume` says whether a repeat marker is taken out of it. -/
def parse? (message platform : String) (leadIns keywords : List String) (consume : Bool) :
    Option Invocation := do
  let (text, mentions) := normalizeMessage message.toList platform
  let (text, repeatCount) := if consume then RepeatMarker.take text else (text, 0)
  let (leadIn, tail) ← findLeadIn? text leadIns
  let text := foldSpelling (trim tail) foldedSpellings
  let keyword? := longestKeyword? text (keywords.map String.toList)
  -- a keyword is set off from its arguments, which may stand directly behind it
  let body := match keyword? with
    | some (keyword, rest) => keyword ++ ' ' :: rest
    | none => text
  let (command, argumentText) ← splitCommand? body
  -- this is asked of the text as it was written
  let spaced := match keyword? with
    | some (_, rest) => startsBlank rest
    | none => startsBlank ((trimLeft body).drop command.length)
  let (arguments, named) := splitArguments argumentText
  return {
    command := String.ofList command
    arguments
    named
    mentions
    argumentText := String.ofList argumentText
    message
    leadIn
    platform
    keywords
    spaced
    repeatCount
    cleanText := String.ofList (trim (String.intercalate " " arguments).toList) }

/-- Reads the message again, by the same lead-in and keywords, with or without taking out a repeat
marker. The mentions stay the same. -/
def rederive? (x : Invocation) (consume : Bool) : Option Invocation :=
  (parse? x.message x.platform [x.leadIn] x.keywords consume).map fun y =>
    { y with mentions := x.mentions }

/-- The argument of the given number, counted from 1. -/
def argument? (x : Invocation) (n : Nat) : Option String :=
  if n = 0 then none else x.arguments[n - 1]?

/-- Is the argument of the given number one of the candidates, disregarding case? -/
def isArgumentAmong (x : Invocation) (n : Nat) (candidates : List String) : Bool :=
  match x.argument? n with
  | some a => candidates.any fun c => eqIgnoringCase a.toList c.toList
  | none => false

/-- The first named argument of a name. -/
def named? (x : Invocation) (name : String) : Option NamedArgument :=
  x.named.find? fun a => a.name == name

/-- What follows the first candidate that the arguments start with, without the white space
around. -/
def eat? (x : Invocation) (candidates : List String) : Option String :=
  candidates.findSome? fun c =>
    (stripIgnoringCase? c.toList x.cleanText.toList).map fun rest => String.ofList (trim rest)

/-- Splits the first candidate that the first argument starts with off as a sub-command, which then
is spelled as the candidate is. There is no result if no candidate fits. -/
def chop? (x : Invocation) (candidates : List String) : Option Invocation :=
  match x.arguments with
  | [] => none
  | first :: others =>
      candidates.findSome? fun c =>
        (stripIgnoringCase? c.toList first.toList).map fun rest =>
          let rest := trim rest
          let after := ((stripIgnoringCase? c.toList x.cleanText.toList).map trim).getD []
          { x with
            arguments := c :: (if rest.isEmpty then [] else [String.ofList rest]) ++ others
            choppedText := String.ofList after }

/-- The arguments from the given number on, counted from 1, up to the first empty one, with single
spaces between them. -/
def suffixFrom (x : Invocation) (n : Nat) : String :=
  String.intercalate " " ((x.arguments.drop (n - 1)).takeWhile fun a => !a.isEmpty)

end Invocation

/-- Does a message start with one of the lead-ins, quotes, mentions and a repeat marker aside? -/
def startsWithLeadIn (message platform : String) (leadIns : List String) : Bool :=
  let (text, _) := normalizeMessage message.toList platform
  let (text, _) := RepeatMarker.take text
  leadIns.any fun leadIn => !leadIn.isEmpty && leadIn.toList.isPrefixOf text

end DiceBot
