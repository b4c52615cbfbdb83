import DiceBot.Text.Lowercase
import DiceBot.Text.Sort

/-!
# Help

The built-in commands with their command words and what help says about them.
-/

namespace DiceBot

/-- What help says about a command. -/
structure HelpTopic where
  /-- The command words, the usual one first. -/
  words : List String
  /-- What the command does, in a line. -/
  brief : String
  /-- How the command is used. -/
  usage : String
  deriving DecidableEq

namespace HelpTopic

/-- The built-in commands. -/
def all : List HelpTopic :=
  [
    { words := ["r", "rd", "roll"]
      brief := "roll a dice expression"
      usage := ".r <expr> [reason]   roll, e.g. .r 2d6+3 attack\n" ++
        ".r 3#1d20            roll three times\n" ++
        ".rd20                roll one d20\n" ++
        ".r 1d6 --asm         also show the compiled program" },
    { words := ["st"]
      brief := "record character attributes"
      usage := ".st hp10 san:50 str=60   set attributes\n" ++
        ".st hp+1d6 mp-2          adjust attributes\n" ++
        ".st show [names]         list attributes\n" ++
        ".st del <names>          remove attributes\n" ++
        ".st clr                  remove every attribute" },
    { words := ["help"]
      brief := "show this help"
      usage := ".help [command]" }
  ]

/-- The line of a command in the overview. -/
def line (topic : HelpTopic) : String :=
  "\n." ++ String.intercalate "/" topic.words ++ "  " ++ topic.brief

/-- The overview of all commands. -/
def overview : String := all.foldl (fun text topic => text ++ topic.line) "Commands:"

/-- The name of a topic as a user writes it: without full stops in front and in lower case. -/
def normalize (topic : String) : String :=
  String.ofList (Text.lower (topic.toList.dropWhile fun c => c == '.' || c == '。'))

/-- The help for a topic, or that there is none. -/
def usageOf (topic : String) : String :=
  let topic := normalize topic
  match all.find? fun t => t.words.contains topic with
  | some t => t.usage
  | none => "No help for `" ++ topic ++ "`"

/-- The command words of all commands, the longest first. -/
def keywords : List String :=
  Text.sortBy (fun a b => b.utf8ByteSize ≤ a.utf8ByteSize) (all.flatMap words)

end HelpTopic

end DiceBot
