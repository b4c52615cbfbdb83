import DiceBot.Dice.Uniform
import Std.Data.ExtTreeMap

/-!
# Text templates

A template name stands for one of several candidate texts, drawn by weight from a random stream.
A candidate of weight zero is never drawn.
-/

namespace DiceBot

/-- A candidate text and its weight. -/
structure Candidate where
  text : String
  weight : Nat
  deriving DecidableEq

namespace Candidate

/-- The sum of the weights. -/
def total : List Candidate → Nat
  | [] => 0
  | c :: rest => c.weight + total rest

/-- The candidate that a number below the total selects: each candidate has as many numbers as its
weight, in order. -/
def select? : List Candidate → Nat → Option Candidate
  | [], _ => none
  | c :: rest, x => if x < c.weight then some c else select? rest (x - c.weight)

end Candidate

/-- Candidates by template name, and the stream that they are drawn with. -/
structure TemplateTable where
  candidates : Std.ExtTreeMap String (List Candidate) := ∅
  stream : Keystream
  deriving DecidableEq

namespace TemplateTable

/-- An empty table that draws with the stream of a seed. -/
def ofSeed (seed : UInt64) : TemplateTable := { stream := Keystream.ofSeed seed }

/-- Replaces the candidates of a name. -/
def set (table : TemplateTable) (name : String) (candidates : List Candidate) : TemplateTable :=
  { table with candidates := table.candidates.insert name candidates }

/-- The candidates of a name, if it is known. -/
def get? (table : TemplateTable) (name : String) : Option (List Candidate) :=
  table.candidates[name]?

/-- Adds a candidate to a name, behind those it has. -/
def push (table : TemplateTable) (name : String) (candidate : Candidate) : TemplateTable :=
  table.set name ((table.get? name).getD [] ++ [candidate])

/-- Has the name any candidate? -/
def contains (table : TemplateTable) (name : String) : Bool :=
  match table.get? name with
  | some candidates => !candidates.isEmpty
  | none => false

/-- The number of known names. -/
def size (table : TemplateTable) : Nat := table.candidates.size

/-- The last low half that a draw below `bound` accepts with 32-bit words. -/
def zone (bound : Nat) : Nat :=
  (Keystream.wordCount - 1) - (Keystream.wordCount - bound) % bound

/-- Draws a number below `bound` from the stream. -/
def draw (bound : Nat) (stream : Keystream) : Nat × Keystream :=
  drawBelow (fun s => s.nextWord.map UInt32.toNat id) Keystream.wordCount bound (zone bound)
    maxRedraws stream

/-- Draws a candidate of a name. Where there is nothing to draw, nothing is taken from the
stream. -/
def pick (table : TemplateTable) (name : String) : Option String × TemplateTable :=
  let candidates := (table.get? name).getD []
  let total := Candidate.total candidates
  if total = 0 then (none, table)
  else
    let (x, stream) := draw total table.stream
    ((Candidate.select? candidates x).map Candidate.text, { table with stream })

end TemplateTable

end DiceBot
