import DiceBot.Template.Table

/-!
# Reply templates

The texts that the built-in commands answer with. Each may be replaced by other candidates; a
command leaves what its reply speaks of in transient variables.
-/

namespace DiceBot

namespace Replies

/-- A placeholder for a variable or a template. -/
def hole (name : String) : String := "\x7b" ++ name ++ "\x7d"

/-- Candidates of weight one. -/
def evenly (texts : List String) : List Candidate := texts.map fun text => ⟨text, 1⟩

/-- How the speaker is named in front of a reply. -/
def speaker : String := "<" ++ hole "$tPlayer" ++ ">"

/-- The reply templates and their candidates. -/
def builtin : List (String × List Candidate) :=
  [
    ("core:botName", evenly ["Diceling"]),
    ("core:rollReason", evenly ["For " ++ hole "$tReason" ++ ", "]),
    ("core:roll", evenly
      [hole "$tReasonText" ++ speaker ++ " rolled " ++ hole "$tResultText"]),
    ("core:rollMulti", evenly
      [hole "$tReasonText" ++ speaker ++ " rolled " ++ hole "$tTimes" ++ " times:\n" ++
        hole "$tResultText"]),
    ("core:rollTooMany", evenly
      ["So many rounds? " ++ hole "core:botName" ++ " is keeping an eye on you.",
        hole "$tTimes" ++ " rounds? " ++ hole "core:botName" ++
          " does not have that many dice."]),
    ("core:rollFailed", evenly [speaker ++ " could not roll: " ++ hole "$tError"]),
    ("core:stSet", evenly [speaker ++ " recorded " ++ hole "$tResultText"]),
    ("core:stShow", evenly [speaker ++ ": " ++ hole "$tResultText"]),
    ("core:stShowEmpty", evenly [speaker ++ " has no attributes yet"]),
    ("core:stDeleted", evenly [speaker ++ " removed " ++ hole "$tResultText"]),
    ("core:stCleared", evenly [speaker ++ " cleared " ++ hole "$tCount" ++ " attributes"]),
    ("core:stFailed", evenly
      [speaker ++ " could not set " ++ hole "$tResultText" ++ ": " ++ hole "$tError"])
  ]

end Replies

/-- A table with the reply templates set. -/
def TemplateTable.withReplies (table : TemplateTable) : TemplateTable :=
  Replies.builtin.foldl (fun table (name, candidates) => table.set name candidates) table

end DiceBot
