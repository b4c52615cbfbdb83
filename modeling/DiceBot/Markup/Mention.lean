import DiceBot.Markup.Pattern
import DiceBot.Text.Blank
import DiceBot.Text.Numeral

/-!
# Mentions

Every chat platform has its own markup for mentioning a user. A mention is recorded as the
platform and the user's number on it.
-/

namespace DiceBot

open Pattern Text

/-- A mentioned user, written as the platform, a colon and the user's number there. -/
structure Mention where
  record : String
  deriving DecidableEq

namespace Mention

/-- The mention of a user of a platform. -/
def ofUser (platform user : String) : Mention := ⟨platform ++ ":" ++ user⟩

/-- The platform, which reaches to the first colon. -/
def platform (m : Mention) : String :=
  match splitOnce? ':' m.record.toList with
  | some (platform, _) => String.ofList platform
  | none => ""

/-- The user's number, which starts after the first colon. -/
def user (m : Mention) : String :=
  match splitOnce? ':' m.record.toList with
  | some (_, user) => String.ofList user
  | none => m.record

/-- A decimal number between an opening and a closing. -/
def numbered (opening closing : String) : Pattern (List Char) :=
  enclosed opening.toList isDecimal (exactly closing.toList)

/-- The rest of an `at` element after the user's number: a quote, white space, and `>` or `/>`. -/
def elementEnd : List Char → Option Nat
  | '\x22' :: cs =>
      let blanks := (cs.takeWhile isBlank).length
      match cs.dropWhile isBlank with
      | '/' :: '>' :: _ => some (blanks + 3)
      | '>' :: _ => some (blanks + 2)
      | _ => none
  | _ => none

/-- Is `c` a capital letter or a digit of ASCII? -/
def isCapitalOrDigit (c : Char) : Bool := c.isUpper || c.isDigit

/-- The markup of a platform, whose tag is taken without regard to case. A platform without
markup of its own uses inline codes. -/
def pattern (platform : String) : Pattern (List Char) :=
  match String.ofList (platform.toList.map Char.toUpper) with
  | "KOOK" => numbered "(met)" "(met)"
  | "DISCORD" => orElse (numbered "<@!" ">") (numbered "<@" ">")
  | "DODO" => numbered "<@!" ">"
  | "SLACK" => enclosed "<@".toList isCapitalOrDigit (exactly ['>'])
  | "SATORI" => enclosed "<at id=\"".toList (· ≠ '\x22') elementEnd
  | "SEALCHAT" => enclosed "<at id=\"".toList (· ≠ '\x22') elementEnd
  | "TG" => numbered "tg://user?id=" ""
  | _ => numbered "[CQ:at,qq=" "]"

/-- The text without its mentions, and the mentions from left to right. -/
def extract (text : List Char) (platform : String) : List Char × List Mention :=
  ((pattern platform).map (fun _ => []) text,
    ((pattern platform).occurrences text).map fun o => ofUser platform (String.ofList o.meaning))

end Mention

end DiceBot
