import DiceBot.Text.Blank

/-!
# Arguments

The words after a command are positional arguments, except those of the form `--name` or
`--name=value`, which are named.
-/

namespace DiceBot

open Text

/-- A named argument, with a value or without. -/
structure NamedArgument where
  name : String
  value? : Option String
  deriving DecidableEq

namespace NamedArgument

/-- Was a value given? -/
def hasValue (a : NamedArgument) : Bool := a.value?.isSome

/-- Read as a truth value, an argument says yes unless its value is `false`. -/
def asBool (a : NamedArgument) : Bool := a.value? != some "false"

/-- Can `c` stand in the name of an argument? -/
def isNameChar (c : Char) : Bool := !isBlank c && c != '='

/-- Reads a word as a named argument. Neither the name nor a value that follows `=` is empty or
holds white space. -/
def parse? (word : List Char) : Option NamedArgument :=
  match ['-', '-'].isPrefixOf? word with
  | none => none
  | some rest =>
      let name := rest.takeWhile isNameChar
      if name.isEmpty then none
      else
        match rest.dropWhile isNameChar with
        | [] => some ⟨String.ofList name, none⟩
        | '=' :: value =>
            if value.isEmpty || value.any isBlank then none
            else some ⟨String.ofList name, some (String.ofList value)⟩
        | _ => none

end NamedArgument

/-- The positional and the named arguments among words, each in order. -/
def partitionArguments : List (List Char) → List String × List NamedArgument
  | [] => ([], [])
  | word :: rest =>
      let (positional, named) := partitionArguments rest
      match NamedArgument.parse? word with
      | some a => (positional, a :: named)
      | none => (String.ofList word :: positional, named)

/-- The positional and the named arguments of a text. -/
def splitArguments (text : List Char) : List String × List NamedArgument :=
  partitionArguments (words text)

end DiceBot
