import DiceBot.Bot.State
import DiceBot.Command.Invocation

/-!
# Rolling

A roll command evaluates an expression, once or as often as its repeat marker says. As many of its
arguments as possible are taken for the expression, and the others for the reason of the roll. If
what was taken is no expression or does not give a number, all of the text is the reason, and a
die of the usual sides is rolled.
-/

namespace DiceBot

namespace Bot

variable {δ : Type} [DiceSource δ]

/-- What a roll command comes down to. -/
structure RollPlan where
  /-- The expression. -/
  source : String
  /-- How the expression is shown. -/
  label : String
  /-- Why the sender rolls. -/
  reason : String
  deriving DecidableEq

/-- The expression of a single die of the usual sides. -/
def usualSource : String := "d"

/-- How a die of the usual sides is shown. -/
def usualLabel (settings : Settings) : String := "D" ++ toString settings.usualSides.toInt

/-- The expression as it is meant: the command word `rd` supplies the `d` of a number of sides. -/
def glue (command expression : String) : String :=
  match expression.toList with
  | c :: _ => if command = "rd" && c.isDigit then "d" ++ expression else expression
  | [] => expression

/-- Does a text compile? -/
def compiles (settings : Settings) (text : String) : Bool :=
  match settings.machine.code.compile text with
  | .ok _ => true
  | .error _ => false

/-- The longest front of the arguments, of at most `n`, that is an expression, and the others. -/
def longestExpression? (settings : Settings) (x : Invocation) : Nat → Option (String × String)
  | 0 => none
  | n + 1 =>
      let expression := glue x.command (String.intercalate " " (x.arguments.take (n + 1)))
      if compiles settings expression then
        some (expression, String.intercalate " " (x.arguments.drop (n + 1)))
      else longestExpression? settings x n

/-- The expression and the reason of a roll command. If no front of the arguments is an
expression, the first argument is taken for one. -/
def splitExpression (settings : Settings) (x : Invocation) : String × String :=
  (longestExpression? settings x x.arguments.length).getD
    (glue x.command ((x.argument? 1).getD ""), x.suffixFrom 2)

/-- The plan that the arguments of a roll command suggest. -/
def planOf (settings : Settings) (x : Invocation) : RollPlan :=
  let (expression, reason) := splitExpression settings x
  if expression.isEmpty then ⟨usualSource, usualLabel settings, reason⟩
  else ⟨expression, expression, reason⟩

/-- Does an outcome show that the text was not meant as an expression? -/
def isNoRoll : Except Fault Outcome → Bool
  | .ok outcome => outcome.evaluation.value.int?.isNone
  | .error fault =>
      match fault.cause with
      | .malformed _ _ => true
      | _ => false

/-- Evaluates the plan of a roll command for the first time. If it turns out to be no roll, the
plan changes to a die of the usual sides, with all of the text as its reason. -/
def firstRoll (x : Invocation) (seat : Seat) : Act δ (RollPlan × Except Fault Outcome) := do
  let settings := (← get).settings
  let plan := planOf settings x
  let first ← run plan.source seat
  if isNoRoll first && plan.source ≠ usualSource then
    -- what the evaluation has done by now stays done
    let plan : RollPlan := ⟨usualSource, usualLabel settings, x.cleanText⟩
    return (plan, ← run plan.source seat)
  else return (plan, first)

/-- Evaluates a source a number of times, until an evaluation fails. -/
def runTimes (source : String) (seat : Seat) : Nat → Act δ (Except Fault (List Outcome))
  | 0 => return .ok []
  | n + 1 => do
      match ← run source seat with
      | .error fault => return .error fault
      | .ok outcome =>
          match ← runTimes source seat n with
          | .error fault => return .error fault
          | .ok outcomes => return .ok (outcome :: outcomes)

/-- How an outcome is shown: the label, the trace if there is one, and the value. -/
def resultLine (label : String) (e : Evaluation) : String :=
  let trace := e.trace.render
  if trace.isEmpty then label ++ "=" ++ e.value.display
  else label ++ "=" ++ trace ++ "=" ++ e.value.display

/-- The reply when an evaluation fails. -/
def rollFailed (fault : Fault) (seat : Seat) : Act δ String := do
  setTransient "$tError" (.text fault.message)
  render "core:rollFailed" seat

/-- The reply when all evaluations succeed. -/
def rollSucceeded (plan : RollPlan) (times : Nat) (outcomes : List Outcome) (seat : Seat) :
    Act δ String := do
  let reasonText ←
    if plan.reason.isEmpty then pure ""
    else do
      setTransient "$tReason" (.text plan.reason)
      render "core:rollReason" seat
  setTransient "$tReasonText" (.text reasonText)
  let lines := outcomes.map fun o => resultLine plan.label o.evaluation
  setTransient "$tResultText" (.text (String.intercalate "\n" lines))
  if times = 1 then render "core:roll" seat
  else do
    setTransient "$tTimes" (.int (Int64.ofNat times))
    render "core:rollMulti" seat

/-- What is added to the reply if the sender asks for the program. -/
def listing (x : Invocation) (outcomes : List Outcome) : String :=
  match x.named? "asm", outcomes with
  | some _, o :: _ => "\n" ++ String.ofList (Text.trimRight o.program.disassembly.toList)
  | _, _ => ""

/-- Carries out a roll command. -/
def roll (x : Invocation) (seat : Seat) : Act δ String := do
  let times := max x.repeatCount 1
  if times > (← get).settings.maxRepeat then
    setTransient "$tTimes" (.int (Int64.ofNat times))
    render "core:rollTooMany" seat
  else
    let (plan, first) ← firstRoll x seat
    match first with
    | .error fault => rollFailed fault seat
    | .ok outcome =>
        -- the first evaluation is one of those asked for
        match ← runTimes plan.source seat (times - 1) with
        | .error fault => rollFailed fault seat
        | .ok outcomes =>
            let reply ← rollSucceeded plan times (outcome :: outcomes) seat
            return reply ++ listing x (outcome :: outcomes)

end Bot

end DiceBot
