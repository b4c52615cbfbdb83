import DiceBot.Text.Basic

/-!
# Occurrences of a pattern

A pattern recognises markup at the front of a text and says how many characters it takes and what
it means. Its occurrences in a text are found from the left and do not overlap.

Substitution replaces the occurrences from the last to the first, so that the places of those still
to be replaced do not move. What it puts in may depend on the occurrences visited before.
-/

namespace DiceBot

/-- Recognises markup at the front of a text: the number of characters it takes, and its
meaning. -/
abbrev Pattern (α : Type) := List Char → Option (Nat × α)

/-- An occurrence of a pattern: the characters from `start` up to but not including `stop`. -/
structure Occurrence (α : Type) where
  start : Nat
  stop : Nat
  meaning : α
  deriving DecidableEq

namespace Occurrence

variable {α : Type}

/-- The characters of an occurrence in its text. -/
def text (o : Occurrence α) (cs : List Char) : List Char := (cs.take o.stop).drop o.start

end Occurrence

namespace Pattern

variable {α σ : Type}

/-- The occurrences in a text whose first character has number `start`, the first `skip` of its
characters belonging to an earlier occurrence. -/
def occurrencesFrom (p : Pattern α) : (skip start : Nat) → List Char → List (Occurrence α)
  | _, _, [] => []
  | skip + 1, start, _ :: cs => occurrencesFrom p skip (start + 1) cs
  | 0, start, c :: cs =>
      match p (c :: cs) with
      | some (n, meaning) =>
          ⟨start, start + n, meaning⟩ :: occurrencesFrom p (n - 1) (start + 1) cs
      | none => occurrencesFrom p 0 (start + 1) cs

/-- The occurrences in a text, from left to right. -/
def occurrences (p : Pattern α) (cs : List Char) : List (Occurrence α) :=
  occurrencesFrom p 0 0 cs

/-- Puts other characters in the place of an occurrence. -/
def replace (o : Occurrence α) (replacement out : List Char) : List Char :=
  out.take o.start ++ replacement ++ out.drop o.stop

/-- Replaces occurrences in `text`, given from the last to the first. `solve` gives the replacement
for the characters of an occurrence and carries a state from one to the next. -/
def replaceAll (solve : σ → List Char → List Char × σ) (text : List Char) :
    List (Occurrence α) → List Char → σ → List Char × σ
  | [], out, s => (out, s)
  | o :: os, out, s =>
      let (replacement, s) := solve s (o.text text)
      replaceAll solve text os (replace o replacement out) s

/-- Replaces every occurrence of a pattern, from the last to the first. -/
def substitute (p : Pattern α) (solve : σ → List Char → List Char × σ) (text : List Char)
    (s : σ) : List Char × σ :=
  replaceAll solve text (p.occurrences text).reverse text s

/-- Replaces every occurrence of a pattern by a text that depends on it alone. -/
def map (p : Pattern α) (f : List Char → List Char) (text : List Char) : List Char :=
  (p.substitute (fun _ matched => (f matched, ())) text ()).1

/-- The number of characters up to and including the first `c`, if it comes before the end of the
line. -/
def throughOnLine (c : Char) : List Char → Option Nat
  | [] => none
  | x :: xs =>
      if x = c then some 1
      else if x = '\n' then none
      else (throughOnLine c xs).map (· + 1)

/-- An opening, then at least one character, then the nearest `]` on the same line. The first
character after the opening may itself be a `]`. -/
def bracketed (opening : List Char) : Pattern Unit := fun cs =>
  match opening.isPrefixOf? cs with
  | some (c :: rest) =>
      if c = '\n' then none
      else (throughOnLine ']' rest).map fun n => (opening.length + 1 + n, ())
  | _ => none

/-- An opening, then a run of at least one character of a class, then a closing, which is given as
the number of characters that it takes. The meaning is the run. -/
def enclosed (opening : List Char) (allowed : Char → Bool) (closing : List Char → Option Nat) :
    Pattern (List Char) := fun cs =>
  match opening.isPrefixOf? cs with
  | none => none
  | some rest =>
      let run := rest.takeWhile allowed
      if run.isEmpty then none
      else (closing (rest.dropWhile allowed)).map fun n =>
        (opening.length + run.length + n, run)

/-- A closing with fixed characters. -/
def exactly (closing : List Char) : List Char → Option Nat := fun cs =>
  (closing.isPrefixOf? cs).map fun _ => closing.length

/-- The first of two patterns that recognises something. -/
def orElse (p q : Pattern α) : Pattern α := fun cs => (p cs).or (q cs)

end Pattern

end DiceBot
