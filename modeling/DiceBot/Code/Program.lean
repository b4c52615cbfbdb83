import DiceBot.Code.Instruction

/-!
# Programs

A program has room for a fixed number of instructions. The first instruction that finds no room
is dropped and spoils the program for good: later ones are dropped too, and the program is not
evaluated.
-/

namespace DiceBot

/-- A program of at most `capacity` instructions. -/
structure Program where
  /-- The most instructions that fit. -/
  capacity : Nat
  /-- The instructions appended so far. -/
  code : Array Instruction := #[]
  /-- Has an instruction been dropped? -/
  overflowed : Bool := false
  /-- Does every die of the program show its highest face? -/
  forceMax : Bool := false
  code_size_le : code.size ≤ capacity := by simp

namespace Program

/-- An empty program. -/
def empty (capacity : Nat) : Program := { capacity }

/-- The number of instructions. -/
def size (p : Program) : Nat := p.code.size

/-- Is there no instruction? -/
def isEmpty (p : Program) : Bool := p.code.isEmpty

/-- The fault that a spoiled program is refused with. -/
def fault? (p : Program) : Option Fault :=
  if p.overflowed then some ⟨.programOverflow p.capacity, none⟩ else none

/-- Can one more instruction be appended? -/
def hasRoom (p : Program) : Bool := !p.overflowed && p.code.size < p.capacity

/-- Appends an instruction if there is room for it, and otherwise spoils the program. -/
def emit (p : Program) (i : Instruction) : Program :=
  if h : p.hasRoom then
    { p with
      code := p.code.push i
      code_size_le := by simp [hasRoom] at h; simp; omega }
  else { p with overflowed := true }

/-- Appends instructions one after the other. -/
def emitAll (p : Program) (code : List Instruction) : Program := code.foldl emit p

/-- The index at which the next instruction is put, if there is room for it. -/
def nextIndex? (p : Program) : Option Nat := if p.hasRoom then some p.size else none

/-- The same program with its dice showing their highest faces, or not. -/
def withForceMax (p : Program) (on : Bool) : Program := { p with forceMax := on }

/-- One mnemonic a line, between two banner lines. -/
def disassembly (p : Program) : String :=
  p.code.foldl (fun text i => text ++ i.mnemonic ++ "\n") "=== VM Code ===\n" ++
    "=== VM Code End===\n"

end Program

end DiceBot
