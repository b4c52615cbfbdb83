import DiceBot.Console.CommandLine

/-!
# The program

Reads the command line and the terminal, and prints what the library says.
-/

namespace DiceBot

/-- Holds a dialogue with the terminal until the input ends. -/
partial def converseWith (input output : IO.FS.Stream) (c : Console SeededDice) : IO Unit := do
  if ← input.isTty then output.putStr c.prompt
  output.flush
  let line ← input.getLine
  if line.isEmpty then
    output.putStr Console.farewell
    output.flush
  else
    let text := String.ofList (Keystrokes.typed (chompLine line.toList))
    if Console.isBlankLine text then converseWith input output c
    else
      let (reply, c) := c.reply? text
      output.putStr (Console.printed reply)
      converseWith input output c

end DiceBot

open DiceBot

/-- Runs the program. -/
def main (args : List String) : IO UInt32 := do
  let output ← IO.getStdout
  match Task.ofArguments args with
  | .refuse fault =>
      (← IO.getStderr).putStr (errorLine fault.message)
      return 1
  | .print text =>
      output.putStr text
      return 0
  | .converse options =>
      let bytes ← IO.getRandomBytes 8
      let console := options.console (bytes.foldl (fun n b => 256 * n + b.toUInt64) 0)
      output.putStr console.welcome
      converseWith (← IO.getStdin) output console
      return 0
