import DiceBot.Bot.Answer

/-!
# The console

A dialogue between a bot and a local user, who writes one message a line outside all groups.
Blank lines are passed over, and the dialogue ends with the input.
-/

namespace DiceBot

/-- What comes from the user. -/
inductive ConsoleInput where
  | line (text : String)
  /-- The user interrupts and is asked again. -/
  | interrupt
  | endOfInput
  /-- Reading fails. -/
  | failure (message : String)
  deriving DecidableEq

/-- A bot on a console. -/
structure Console (δ : Type) where
  bot : Bot δ
  /-- The name that the user goes by. -/
  userName : String := "You"
  /-- Is the user welcomed? -/
  banner : Bool := true
  prompt : String := "🎲> "

/-- What has passed in a dialogue, and the console after it. -/
structure Dialogue (δ : Type) where
  /-- All that was printed. -/
  output : String
  /-- The prompts of all reads, in order. -/
  prompts : List String
  /-- The lines to be remembered, in order. -/
  history : List String
  /-- Why reading failed, if it did. -/
  fault : Option Fault
  console : Console δ

namespace Console

variable {δ : Type} [DiceSource δ]

/-- The user of the console. -/
def userId : String := "console:0"

/-- The version that the console presents itself with. -/
def version : String := "0.1.0"

/-- The message of a line. -/
def message (c : Console δ) (line : String) : Message :=
  { text := line, sender := userId, name := c.userName }

/-- Hands a line to the bot and gives its reply. -/
def reply? (c : Console δ) (line : String) : Option String × Console δ :=
  let (reply, bot) := Bot.answer (c.message line) c.bot
  (reply, { c with bot })

/-- Is there nothing but white space on a line? -/
def isBlankLine (line : String) : Bool := line.toList.all Text.isBlank

/-- What is printed for a reply. -/
def printed : Option String → String
  | some reply => reply ++ "\n"
  | none => "\x1b[2m(not a command; try .help)\x1b[0m\n"

/-- What is printed when the dialogue starts. -/
def welcome (c : Console δ) : String :=
  if c.banner then
    "\x1b[1;36mDiceling console v" ++ version ++ "\x1b[0m\n" ++
      "Type " ++ c.bot.settings.leadIns.headD "." ++
      "help for commands. Use Ctrl+D to exit.\n\n"
  else ""

/-- What is printed when the dialogue ends. -/
def farewell : String := "\nGoodbye!\n"

/-- The dialogue over some input. When the input runs out it ends. -/
def converse : List ConsoleInput → Console δ → Dialogue δ
  | [], c => ⟨farewell, [c.prompt], [], none, c⟩
  | .endOfInput :: _, c => ⟨farewell, [c.prompt], [], none, c⟩
  | .failure message :: _, c => ⟨"", [c.prompt], [], some ⟨.internal message, none⟩, c⟩
  | .interrupt :: rest, c =>
      let d := converse rest c
      { d with prompts := c.prompt :: d.prompts }
  | .line text :: rest, c =>
      if isBlankLine text then
        let d := converse rest c
        { d with prompts := c.prompt :: d.prompts }
      else
        let (reply, c') := c.reply? text
        let d := converse rest c'
        { d with
          output := printed reply ++ d.output
          prompts := c.prompt :: d.prompts
          history := text :: d.history }

/-- The whole dialogue, from the welcome on. -/
def run (c : Console δ) (input : List ConsoleInput) : Dialogue δ :=
  let d := converse input c
  { d with output := c.welcome ++ d.output }

end Console

end DiceBot
