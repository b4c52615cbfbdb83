import DiceBot.Console.Dialogue
import DiceBot.Console.Keystrokes

/-!
# The command line

The options of the program, and what a run of it prints. Options are read from the left, and the
first one that is wrong stops the program.
-/

namespace DiceBot

/-- What the command line asks for. -/
structure Options where
  platform : Option String := none
  seed : Option UInt64 := none
  leadIns : List String := []
  name : Option String := none
  showHelp : Bool := false
  showVersion : Bool := false
  deriving DecidableEq

/-- What is wrong with the command line. -/
inductive OptionFault where
  /-- An option without its value. -/
  | missingValue (option : String)
  /-- A seed that is no number of 64 bits. -/
  | invalidSeed (value : String)
  /-- An option that there is not. -/
  | unknown (option : String)
  deriving DecidableEq

/-- The fault in words. -/
def OptionFault.message : OptionFault → String
  | .missingValue option => option ++ " requires a value"
  | .invalidSeed value => "invalid --seed value: " ++ value
  | .unknown option => "unknown option: " ++ option

namespace Options

/-- The number that digits spell, if there are any and it has at most 64 bits. -/
def digitsValue? (digits : List Char) : Option UInt64 :=
  if digits.isEmpty || !digits.all Char.isDigit then none
  else
    let n := digits.foldl (fun n c => 10 * n + (c.toNat - '0'.toNat)) 0
    if n < UInt64.size then some (UInt64.ofNat n) else none

/-- Reads a seed, which may have a plus sign. -/
def seed? (value : String) : Option UInt64 :=
  match value.toList with
  | '+' :: digits => digitsValue? digits
  | digits => digitsValue? digits

/-- Reads the options that follow on some others. -/
def parseAfter (o : Options) : List String → Except OptionFault Options
  | [] => .ok o
  | arg :: rest =>
      match arg with
      | "-h" => parseAfter { o with showHelp := true } rest
      | "--help" => parseAfter { o with showHelp := true } rest
      | "-V" => parseAfter { o with showVersion := true } rest
      | "--version" => parseAfter { o with showVersion := true } rest
      | "--platform" =>
          match rest with
          | [] => .error (.missingValue arg)
          | value :: rest => parseAfter { o with platform := some value } rest
      | "--seed" =>
          match rest with
          | [] => .error (.missingValue arg)
          | value :: rest =>
              match seed? value with
              | none => .error (.invalidSeed value)
              | some seed => parseAfter { o with seed := some seed } rest
      | "--prefix" =>
          match rest with
          | [] => .error (.missingValue arg)
          | value :: rest => parseAfter { o with leadIns := o.leadIns ++ [value] } rest
      | "--name" =>
          match rest with
          | [] => .error (.missingValue arg)
          | value :: rest => parseAfter { o with name := some value } rest
      | _ => .error (.unknown arg)

/-- Reads the options of a command line. -/
def parse (args : List String) : Except OptionFault Options := parseAfter {} args

/-- The settings that the options ask for. -/
def settings (o : Options) : Settings :=
  let s : Settings := {}
  { s with
    platform := o.platform.getD s.platform
    leadIns := if o.leadIns.isEmpty then s.leadIns else o.leadIns
    seed := o.seed }

/-- The console that the options ask for. Without a seed of its own it uses the given one. -/
def console (o : Options) (fallbackSeed : UInt64) : Console SeededDice :=
  let c : Console SeededDice := { bot := Bot.ofSeed o.settings (o.seed.getD fallbackSeed) }
  { c with userName := o.name.getD c.userName }

/-- What the program prints about itself. -/
def helpText : String :=
  "\x1b[1mDiceling\x1b[0m - dice-rolling chat bot console\n\n" ++
  "\x1b[1mUSAGE:\x1b[0m\n" ++
  "    diceling [OPTIONS]\n\n" ++
  "\x1b[1mOPTIONS:\x1b[0m\n" ++
  "    -h, --help           Print help information\n" ++
  "    -V, --version        Print version information\n" ++
  "    --platform TAG       Platform whose mention syntax to accept (default QQ)\n" ++
  "    --seed N             Roll deterministic dice\n" ++
  "    --prefix P           Command prefix; repeat for several (default . and 。)\n" ++
  "    --name NAME          Your display name in replies\n\n" ++
  "\x1b[1mEXAMPLES:\x1b[0m\n" ++
  "    diceling                         Start the console\n" ++
  "    diceling --seed 42               Reproducible rolls\n" ++
  "    diceling --prefix ! --prefix .   Accept !r as well as .r\n\n" ++
  "\x1b[1mCONSOLE COMMANDS:\x1b[0m\n" ++
  "    .r 2d6+3 attack      Roll an expression with a reason\n" ++
  "    .r 3#1d20            Roll three times\n" ++
  "    .st hp10 san50       Record attributes\n" ++
  "    .help                List commands\n" ++
  "    Ctrl+D               Exit\n\n" ++
  "Set RUST_LOG=diceling_language=trace to watch evaluation.\n"

/-- What the program prints about its version. -/
def versionText : String := "diceling " ++ Console.version ++ "\n"

end Options

/-- What a command line makes the program do. -/
inductive Task where
  /-- Report what is wrong. -/
  | refuse (fault : OptionFault)
  /-- Print a text. -/
  | print (text : String)
  /-- Hold a dialogue. -/
  | converse (options : Options)
  deriving DecidableEq

/-- The task of a command line: a wrong option comes before help, and help before the version. -/
def Task.ofArguments (args : List String) : Task :=
  match Options.parse args with
  | .error fault => .refuse fault
  | .ok o =>
      if o.showHelp then .print Options.helpText
      else if o.showVersion then .print Options.versionText
      else .converse o

/-- How a message about a failure is printed. -/
def errorLine (message : String) : String := "\x1b[31mError: " ++ message ++ "\x1b[0m\n"

/-- A line as it is read, without its line end. -/
def chompLine (line : List Char) : List Char :=
  match line.reverse with
  | '\n' :: '\r' :: rest => rest.reverse
  | '\n' :: rest => rest.reverse
  | _ => line

/-- The lines of a text that follow what has been read of the current line, in reverse. -/
def linesAfter (reading : List Char) : List Char → List (List Char)
  | [] => if reading.isEmpty then [] else [chompLine reading.reverse]
  | c :: cs =>
      if c = '\n' then chompLine (c :: reading).reverse :: linesAfter [] cs
      else linesAfter (c :: reading) cs

/-- The lines of a text as they were typed, without their line ends. -/
def inputLines (input : String) : List String :=
  (linesAfter [] input.toList).map fun line => String.ofList (Keystrokes.typed line)

/-- What a run of the program leaves behind. -/
structure RunResult where
  exitCode : Nat
  output : String
  errors : String
  deriving DecidableEq

/-- A run of the program on the given input. -/
def runProgramOn (args : List String) (input : String) (fallbackSeed : UInt64) : RunResult :=
  match Task.ofArguments args with
  | .refuse fault => ⟨1, "", errorLine fault.message⟩
  | .print text => ⟨0, text, ""⟩
  | .converse options =>
      let d := (options.console fallbackSeed).run ((inputLines input).map ConsoleInput.line)
      match d.fault with
      | none => ⟨0, d.output, ""⟩
      | some fault => ⟨1, d.output, errorLine fault.message⟩

end DiceBot
