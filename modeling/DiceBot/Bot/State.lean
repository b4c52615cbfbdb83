import DiceBot.Bot.Settings
import DiceBot.Memory.Records
import DiceBot.Template.Replies

/-!
# The state of a bot

A bot keeps its dice, its records, the aliases of attributes, the templates, and the transient
variables of the command that it is carrying out. Every evaluation takes place at a seat: it sees
the four tiers as they are there, and what it leaves in them is kept even if it fails.
-/

namespace DiceBot

/-- A message from a chat. -/
structure Message where
  text : String
  /-- The group, empty outside all groups. -/
  group : String := ""
  sender : String := ""
  /-- The name that the sender goes by. -/
  name : String := ""
  deriving DecidableEq

/-- The seat that a message comes from. -/
def Message.seat (m : Message) : Seat := ⟨m.group, m.sender⟩

/-- The state of a bot that rolls dice of type `δ`. -/
structure Bot (δ : Type) where
  settings : Settings
  dice : δ
  records : Records := {}
  aliases : Aliases := {}
  templates : TemplateTable
  transient : VariableMap := ∅
  deriving DecidableEq

/-- A successful evaluation and the program that was run. -/
structure Outcome where
  evaluation : Evaluation
  program : Program

/-- Something that a bot does. -/
abbrev Act (δ : Type) := StateM (Bot δ)

namespace Bot

variable {δ : Type} [DiceSource δ]

/-- A bot that has not done anything yet. Its reply templates are drawn with the stream of a
seed. -/
def start (settings : Settings) (dice : δ) (templateSeed : UInt64) : Bot δ where
  settings
  dice
  templates := (TemplateTable.ofSeed templateSeed).withReplies

/-- A bot whose dice and templates depend on one seed, the templates on the next number. -/
def ofSeed (settings : Settings) (seed : UInt64) : Bot SeededDice :=
  start settings (SeededDice.ofSeed seed) (seed + 1)

/-- Assigns a transient variable. -/
def setTransient (name : String) (value : Value) : Act δ Unit :=
  modify fun s => { s with transient := s.transient.insert name value }

/-- Forgets all transient variables. -/
def clearTransient : Act δ Unit := modify fun s => { s with transient := ∅ }

/-- What an evaluation at a seat sees. -/
def world (s : Bot δ) (seat : Seat) : World δ Scoped where
  dice := s.dice
  vars := s.records.scopedAt seat s.transient s.aliases s.templates

/-- The bot after an evaluation at a seat. -/
def keep (s : Bot δ) (seat : Seat) (w : World δ Scoped) : Bot δ :=
  { s with
    dice := w.dice
    records := s.records.keep seat w.vars
    templates := w.vars.templates
    transient := w.vars.transient }

/-- Runs a program at a seat. -/
def runProgram (seat : Seat) (p : Program) : Act δ (Except Fault Evaluation) := fun s =>
  match (s.settings.machine.evaluate p).run (s.world seat) with
  | .ok e w => (.ok e, s.keep seat w)
  | .error fault w => (.error fault, s.keep seat w)

/-- Compiles a source and runs it at a seat. A source that is no expression changes nothing. -/
def run (source : String) (seat : Seat) : Act δ (Except Fault Outcome) := do
  match (← get).settings.machine.code.compile source with
  | .error fault => return .error fault
  | .ok program =>
      match ← runProgram seat program with
      | .error fault => return .error fault
      | .ok evaluation => return .ok ⟨evaluation, program⟩

/-- Draws a template of a name. -/
def pickTemplate (name : String) : Act δ (Option String) := fun s =>
  let (text, templates) := s.templates.pick name
  (text, { s with templates })

/-- Draws a template of a name and fills it at a seat. A template that cannot be filled is given as
it is, and a name without templates gives the empty text. -/
def render (name : String) (seat : Seat) : Act δ String := do
  match ← pickTemplate name with
  | none => return ""
  | some text =>
      match (← get).settings.machine.code.compileTemplate text with
      | .error _ => return text
      | .ok program =>
          match ← runProgram seat program with
          | .ok e => return e.value.display
          | .error _ => return text

end Bot

end DiceBot
