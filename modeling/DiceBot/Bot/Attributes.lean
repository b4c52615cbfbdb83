import DiceBot.Bot.State
import DiceBot.Command.AttributeEntry
import DiceBot.Command.Help
import DiceBot.Command.Invocation

/-!
# Attributes

The attribute command records attributes of the sender at his seat, lists them, removes some or
removes all.
-/

namespace DiceBot

namespace Bot

variable {δ : Type} [DiceSource δ]

/-- The sub-commands, which may be written without white space before their arguments. -/
def subCommands : List String := ["show", "list", "del", "rm", "clr", "clear"]

/-- How an attribute is listed. -/
def attributeText (name : String) (value : Value) : String := name ++ "=" ++ value.display

/-- The attributes of a map that are among the names, or all if there are no names, in the order
of their texts. -/
def listed (vars : VariableMap) (names : List String) : List String :=
  let chosen := vars.toList.filter fun (name, _) => names.isEmpty || names.contains name
  Text.sortBy (fun a b => decide (a ≤ b)) (chosen.map fun (name, value) => attributeText name value)

/-- Lists attributes. -/
def showAttributes (names : List String) (seat : Seat) : Act δ String := do
  let vars := (← get).records.seatMap seat
  if vars.isEmpty then render "core:stShowEmpty" seat
  else do
    setTransient "$tResultText" (.text (String.intercalate " " (listed vars names)))
    render "core:stShow" seat

/-- Removes names from a map, and gives those that were there in the order of their removal. -/
def eraseNames : List String → VariableMap → List String × VariableMap
  | [], vars => ([], vars)
  | name :: names, vars =>
      let (removed, rest) := eraseNames names (vars.erase name)
      (if vars.contains name then name :: removed else removed, rest)

/-- Replaces the map used at a seat. -/
def setSeatMap (seat : Seat) (vars : VariableMap) : Act δ Unit :=
  modify fun s => { s with records := s.records.setSeatMap seat vars }

/-- Removes attributes. -/
def deleteAttributes (names : List String) (seat : Seat) : Act δ String := do
  let (removed, rest) := eraseNames names ((← get).records.seatMap seat)
  setSeatMap seat rest
  setTransient "$tResultText" (.text (String.intercalate " " removed))
  render "core:stDeleted" seat

/-- How many attributes a map has, as a 64-bit integer, which is the largest one if there are too
many. -/
def attributeCount (vars : VariableMap) : Int64 :=
  (Checked.ofInt? vars.size).getD Int64.maxValue

/-- Removes all attributes. -/
def clearAttributes (seat : Seat) : Act δ String := do
  let vars := (← get).records.seatMap seat
  setSeatMap seat ∅
  setTransient "$tCount" (.int (attributeCount vars))
  render "core:stCleared" seat

/-- Evaluates entries until one fails. Gives the texts of those recorded, or the name of the one
that failed with its fault. -/
def recordEntries (seat : Seat) :
    List AttributeEntry → Act δ (Except (String × Fault) (List String))
  | [] => return .ok []
  | entry :: entries => do
      match ← run entry.source seat with
      | .error fault => return .error (entry.name, fault)
      | .ok outcome =>
          let shown := (← get).aliases.canonicalize entry.name
          match ← recordEntries seat entries with
          | .error failure => return .error failure
          | .ok texts => return .ok (attributeText shown outcome.evaluation.value :: texts)

/-- Records attributes. -/
def recordAttributes (entries : List AttributeEntry) (seat : Seat) : Act δ String := do
  match ← recordEntries seat entries with
  | .ok texts =>
      setTransient "$tResultText" (.text (String.intercalate " " texts))
      render "core:stSet" seat
  | .error (name, fault) =>
      setTransient "$tResultText" (.text name)
      setTransient "$tError" (.text fault.message)
      render "core:stFailed" seat

/-- Carries out an attribute command. -/
def attributes (x : Invocation) (seat : Seat) : Act δ String := do
  -- a sub-command written together with its first argument is set apart from it
  let x := (x.chop? subCommands).getD x
  let aliases := (← get).aliases
  let names := (x.arguments.drop 1).map aliases.canonicalize
  if x.isArgumentAmong 1 ["show", "list"] then showAttributes names seat
  else if x.isArgumentAmong 1 ["del", "rm"] then deleteAttributes names seat
  else if x.isArgumentAmong 1 ["clr", "clear"] then clearAttributes seat
  else
    match AttributeEntry.all x.cleanText.toList with
    | [] => return HelpTopic.usageOf "st"
    | entries => recordAttributes entries seat

end Bot

end DiceBot
