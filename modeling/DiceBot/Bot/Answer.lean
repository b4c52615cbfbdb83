import DiceBot.Bot.Attributes
import DiceBot.Bot.Roll

/-!
# Answering messages

A message that is a command is carried out at the seat that it comes from and may be answered.
The transient variables of a command are forgotten when it ends.
-/

namespace DiceBot

namespace Bot

variable {δ : Type} [DiceSource δ]

/-- Carries out a help command. -/
def help (x : Invocation) : String :=
  match x.argument? 1 with
  | some topic => HelpTopic.usageOf topic
  | none => HelpTopic.overview

/-- Carries out a command, if it is one that the bot knows. -/
def carryOut (x : Invocation) (seat : Seat) : Act δ (Option String) :=
  match x.command with
  | "r" => some <$> roll x seat
  | "rd" => some <$> roll x seat
  | "roll" => some <$> roll x seat
  | "st" => some <$> attributes x seat
  | "help" => return some (help x)
  | _ => return none

/-- Reads a message as a command of the bot. -/
def invocation? (settings : Settings) (message : Message) : Option Invocation :=
  Invocation.parse? message.text settings.platform settings.leadIns HelpTopic.keywords true

/-- Answers a message, if it is a command. -/
def answer (message : Message) : Act δ (Option String) := do
  match invocation? (← get).settings message with
  | none => return none
  | some x => do
      setTransient "$tPlayer" (.text message.name)
      let reply ← carryOut x message.seat
      clearTransient
      return reply

/-- Evaluates a source at the seat of a message, without a reply. -/
def evaluate (source : String) (message : Message) : Act δ (Except Fault Evaluation) := do
  let result ← run source message.seat
  clearTransient
  return result.map Outcome.evaluation

end Bot

end DiceBot
