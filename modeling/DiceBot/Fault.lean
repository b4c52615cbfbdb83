import DiceBot.Value

/-!
# Faults

Why an expression was refused or an evaluation stopped: the cause, and optionally where it
arose. Every cause has a code of a letter and a digit, which a chat reply can be matched against
whatever the wording around it.
-/

namespace DiceBot

/-- The cause of a fault. -/
inductive Cause where
  /-- The code of an expression does not fit its program. -/
  | programOverflow (capacity : Nat)
  /-- The text is no expression; the offset counts bytes of the source. -/
  | malformed (message : String) (offset : Nat)
  /-- An instruction found fewer operands than it needs. -/
  | stackUnderflow (instruction : String)
  /-- An operator was given a value of another kind. -/
  | typeMismatch (operator : String) (expected actual : ValueKind)
  /-- Division or remainder by zero. -/
  | divisionByZero (operator : String)
  /-- A result outside the 64-bit integers. -/
  | arithmeticOverflow (operator : String)
  /-- More dice than one evaluation may roll. -/
  | diceBudget (limit : Nat)
  /-- Computed values and templates nested too deeply. -/
  | nestingLimit (limit : Nat)
  /-- A fault of the surroundings, such as the console. -/
  | internal (message : String)
  deriving DecidableEq

namespace Cause

/-- The code of a cause. -/
def code : Cause → String
  | .programOverflow _ => "E1"
  | .malformed _ _ => "E2"
  | .stackUnderflow _ => "E3"
  | .typeMismatch _ _ _ => "E4"
  | .divisionByZero _ => "E4"
  | .arithmeticOverflow _ => "E4"
  | .diceBudget _ => "E5"
  | .nestingLimit _ => "E5"
  | .internal _ => "E0"

/-- The message of a cause, which starts with its code unless the cause is internal. -/
def message : Cause → String
  | .programOverflow capacity =>
      "E1: expression too extreme, instruction capacity of " ++ toString capacity ++ " exceeded"
  | .malformed message offset =>
      "E2: invalid expression at byte " ++ toString offset ++ ": " ++ message
  | .stackUnderflow instruction =>
      "E3: malformed program, stack underflow at `" ++ instruction ++ "`"
  | .typeMismatch operator expected actual =>
      "E4: `" ++ operator ++ "` expects " ++ expected.name ++ ", got " ++ actual.name
  | .divisionByZero operator => "E4: `" ++ operator ++ "` by zero"
  | .arithmeticOverflow operator => "E4: `" ++ operator ++ "` overflowed a 64-bit integer"
  | .diceBudget limit => "E5: more than " ++ toString limit ++ " dice in one roll"
  | .nestingLimit limit => "E5: computed values nested deeper than " ++ toString limit
  | .internal message => "internal error: " ++ message

end Cause

/-- Where a fault arose. -/
structure Place where
  /-- The source in which a syntax fault was found. -/
  source : Option String := none
  /-- The computed values and templates being expanded, outermost first. -/
  frames : List String := []
  deriving DecidableEq

/-- The place in words: the source, then one line for each frame. -/
def Place.describe (place : Place) : String :=
  let head := match place.source with
    | some source => "in `" ++ source ++ "`"
    | none => ""
  place.frames.foldl (fun text frame => text ++ "\n  via " ++ frame) head

/-- A cause and, where it is known, the place. -/
structure Fault where
  cause : Cause
  place : Option Place := none
  deriving DecidableEq

namespace Fault

/-- The message of a fault is that of its cause. -/
def message (fault : Fault) : String := fault.cause.message

/-- The code of a fault is that of its cause. -/
def code (fault : Fault) : String := fault.cause.code

/-- The same fault, seen from outside one more expansion. -/
def via (frame : String) (fault : Fault) : Fault :=
  let place := fault.place.getD {}
  { fault with place := some { place with frames := frame :: place.frames } }

end Fault

end DiceBot
