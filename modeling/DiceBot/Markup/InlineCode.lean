import DiceBot.Markup.Pattern

/-!
# Inline codes

A chat text carries pictures, quotes and the like as codes `[CQ:kind,key=value,…]`. The arguments
of a code keep their order, and a key may occur more than once. Pictures also have the short forms
`[img:…]` and `[图:…]`.
-/

namespace DiceBot

/-- An inline code. -/
structure InlineCode where
  /-- What the code stands for. -/
  kind : List Char := []
  /-- The arguments in order. -/
  arguments : List (List Char × List Char) := []
  /-- The text to write instead of the code. -/
  overwrite : Option (List Char) := none
  deriving DecidableEq

namespace InlineCode

/-- What every code starts with. -/
def opening : List Char := ['[', 'C', 'Q', ':']

/-- A code in a text: the nearest `]` on the same line closes it, but a code is never empty. -/
def pattern : Pattern Unit := Pattern.bracketed opening

/-- A picture in its short form. -/
def imagePattern : Pattern Unit :=
  Pattern.orElse (Pattern.bracketed ['[', 'i', 'm', 'g', ':']) (Pattern.bracketed ['[', '图', ':'])

/-- The arguments spelled by a text: its pieces between commas that hold a `=`, cut at the first
one. -/
def argumentsOf (cs : List Char) : List (List Char × List Char) :=
  (Text.splitOnChar ',' cs).filterMap (Text.splitOnce? '=')

/-- Reads a code at the front of a text. The kind is not empty, nor is the text of the arguments
if there is a comma. -/
def parseHere (cs : List Char) : Option InlineCode :=
  match opening.isPrefixOf? cs with
  | none => none
  | some rest =>
      let kind := rest.takeWhile fun c => c ≠ ']' && c ≠ ','
      if kind.isEmpty then none
      else
        match rest.drop kind.length with
        | ',' :: tail =>
            let arguments := tail.takeWhile (· ≠ ']')
            -- without a closing bracket the arguments would take all of the tail
            if arguments.isEmpty || arguments.length = tail.length then none
            else some { kind, arguments := argumentsOf arguments }
        | ']' :: _ => some { kind }
        | _ => none

/-- The first code in a text, or one without kind and arguments if there is none. -/
def parse : List Char → InlineCode
  | [] => {}
  | c :: cs => (parseHere (c :: cs)).getD (parse cs)

/-- The value of the first argument with this key. -/
def argument? (code : InlineCode) (key : List Char) : Option (List Char) :=
  (code.arguments.find? fun a => a.1 == key).map Prod.snd

/-- Gives the first argument with this key another value. -/
def replaceValue (key value : List Char) :
    List (List Char × List Char) → Option (List (List Char × List Char))
  | [] => none
  | a :: rest =>
      if a.1 = key then some ((key, value) :: rest)
      else (replaceValue key value rest).map (a :: ·)

/-- Sets an argument: the first one with this key changes its value, and a new key is put at the
end. -/
def setArgument (code : InlineCode) (key value : List Char) : InlineCode :=
  { code with
    arguments := (replaceValue key value code.arguments).getD (code.arguments ++ [(key, value)]) }

/-- The code as it is spelled. -/
def render (code : InlineCode) : List Char :=
  opening ++ code.kind ++ code.arguments.flatMap (fun (k, v) => ',' :: k ++ '=' :: v) ++ [']']

/-- What is written for the code: the text that overwrites it, or its spelling. -/
def written (code : InlineCode) : List Char := code.overwrite.getD code.render

/-- The codes of a text, from left to right. -/
def all (text : List Char) : List InlineCode :=
  (pattern.occurrences text).map fun o => parse (o.text text)

/-- Lets `edit` change every code of a text, from the last to the first, and writes them back. -/
def editAll {σ : Type} (edit : σ → InlineCode → InlineCode × σ) (text : List Char) (s : σ) :
    List Char × σ :=
  pattern.substitute (fun s matched => (edit s (parse matched)).map written id) text s

/-- The text without its codes of one kind. -/
def strip (kind text : List Char) : List Char :=
  pattern.map (fun matched => if (parse matched).kind = kind then [] else matched) text

end InlineCode

end DiceBot
