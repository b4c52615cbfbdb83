import DiceBot.Code.Compile
import DiceBot.Dice.Source
import DiceBot.Machine.Trace
import DiceBot.Machine.Variables

/-!
# Evaluation

A program is run on a stack of values. Reading a variable may run further programs: a computed
value is evaluated with its base in `$tVal`, and a template is filled. Such expansions nest only
as deep as the limits allow, which bounds the recursion.

Dice and variables are those of the surroundings, and what a run did to them stays done when it
fails.
-/

namespace DiceBot

/-- The limits of an evaluation. -/
structure Limits where
  /-- The most dice that one evaluation may roll. -/
  diceBudget : Nat := 30000
  /-- The most computed values and templates inside one another. -/
  maxDepth : Nat := 8
  deriving DecidableEq

/-- A machine: its limits, and how it compiles the sources that it meets. -/
structure Machine where
  limits : Limits := {}
  code : CodeSettings := {}
  deriving DecidableEq

/-- The surroundings of an evaluation. -/
structure World (δ γ : Type) where
  dice : δ
  vars : γ
  /-- The dice charged to the evaluation so far. -/
  charged : Nat := 0

/-- A computation that may fail and leaves its surroundings changed in either case. -/
abbrev Eval (δ γ : Type) := EStateM Fault (World δ γ)

/-- The result of a successful evaluation. -/
structure Evaluation where
  value : Value
  trace : Trace
  deriving DecidableEq

/-- A source met while a variable is read. -/
inductive Expansion where
  /-- A variable holding a computed value. -/
  | computed (name : String) (base : Value) (source : String)
  /-- A name that stands for a template. -/
  | template (name : String) (text : String)
  deriving DecidableEq

/-- The variable that holds the base while a computed value is evaluated. -/
def baseVariable : String := "$tVal"

/-- What a name that stands for nothing evaluates to. -/
def undefinedText (name : String) : String := "<%undefined-" ++ name ++ "%>"

namespace Expansion

/-- How an expansion is named in the place of a fault. -/
def frame : Expansion → String
  | .computed name _ _ => "computed `" ++ name ++ "`"
  | .template name _ => "template `" ++ name ++ "`"

/-- The program of an expansion. -/
def compile (settings : CodeSettings) : Expansion → Except Fault Program
  | .computed _ _ source => settings.compile source
  | .template _ text => settings.compileTemplate text

end Expansion

namespace Eval

variable {δ γ : Type}

/-- Fails with a cause, at no particular place. -/
def fail {α : Type} (cause : Cause) : Eval δ γ α := throw ⟨cause, none⟩

/-- A result that needs no surroundings. -/
def ofExcept {α : Type} : Except Fault α → Eval δ γ α
  | .ok a => pure a
  | .error fault => throw fault

/-- A result that needs no surroundings, or the cause why there is none. -/
def ofCause {α : Type} : Except Cause α → Eval δ γ α
  | .ok a => pure a
  | .error cause => fail cause

/-- Names the expansion in which a computation fails. -/
def inFrame {α : Type} (frame : String) (x : Eval δ γ α) : Eval δ γ α := fun w =>
  match x w with
  | .ok a w => .ok a w
  | .error fault w => .error (fault.via frame) w

/-- Assigns a variable. -/
def assign [Variables γ] (name : String) (value : Value) : Eval δ γ Unit :=
  modify fun w => { w with vars := Variables.set w.vars name value }

end Eval

/-- The integer that an operator is given, or the mismatch. -/
def Value.operand (operator : String) : Value → Except Cause Int64
  | .int n => .ok n
  | v => .error (.typeMismatch operator .int v.kind)

/-- Adds as many faces as asked for, one drawn after the other. There is no sum once the sum so far
leaves the 64-bit range, and then no further face is drawn. -/
def sumFaces {δ : Type} (draw : δ → Int64 × δ) : Nat → Int64 → δ → Option Int64 × δ
  | 0, sum, dice => (some sum, dice)
  | n + 1, sum, dice =>
      let (face, dice) := draw dice
      match Checked.add? sum face with
      | some sum => sumFaces draw n sum dice
      | none => (none, dice)

/-- Replaces placeholders by values, from left to right. Each placeholder is looked for after the
one before it; at the first one that is not found the rest of the text is left as it is. -/
def fillTemplate : List (String × Value) → List Char → List Char
  | [], rest => rest
  | (placeholder, value) :: more, rest =>
      match Text.splitAround? placeholder.toList rest with
      | none => rest
      | some (before, after) => before ++ value.display.toList ++ fillTemplate more after

/-- What a run works on: the stack, its top first, and the trace. -/
structure Frame where
  stack : List Value := []
  trace : Trace := {}
  deriving DecidableEq

/-- The value at the bottom of the stack. -/
def Frame.result (f : Frame) : Value := f.stack.getLast?.getD .nothing

namespace Machine

variable {δ γ : Type} [DiceSource δ] [Variables γ]

/-- Rolls dice and adds their faces. A count that is not positive rolls nothing. A count that
exceeds what is left of the budget is refused before any die is rolled. -/
def roll (m : Machine) (forceMax : Bool) (count sides : Int64) : Eval δ γ Int64 := fun w =>
  if count ≤ 0 then .ok 0 w
  else
    let wanted := count.toInt.toNat
    if wanted > m.limits.diceBudget - w.charged then
      .error ⟨.diceBudget m.limits.diceBudget, none⟩ w
    else
      let draw := fun (dice : δ) =>
        if forceMax then (max sides 0, dice) else DiceSource.roll dice sides
      let (sum?, dice) := sumFaces draw wanted 0 w.dice
      -- all the dice are charged, also those that an overflow leaves undrawn
      let w := { w with dice, charged := w.charged + wanted }
      match sum? with
      | some sum => .ok sum w
      | none => .error ⟨.arithmeticOverflow "d", none⟩ w

/-- Runs one instruction. Variables are read by `load`. -/
def step (m : Machine) (load : String → Eval δ γ Value) (forceMax : Bool) (i : Instruction)
    (f : Frame) : Eval δ γ Frame :=
  let underflow : Eval δ γ Frame := Eval.fail (.stackUnderflow i.mnemonic)
  match i with
  | .int n => pure { f with stack := .int n :: f.stack }
  | .text s => pure { f with stack := .text s :: f.stack }
  | .swap =>
      match f.stack with
      | b :: a :: stack => pure { f with stack := a :: b :: stack }
      | _ => underflow
  | .negate =>
      match f.stack with
      | a :: stack => do
          let x ← Eval.ofCause (a.operand "-")
          match Checked.neg? x with
          | some n => pure { f with stack := .int n :: stack }
          | none => Eval.fail (.arithmeticOverflow "-")
      | _ => underflow
  | .binary op =>
      match f.stack with
      | b :: a :: stack => do
          -- the right operand is the topmost value, but the left one is looked at first
          let x ← Eval.ofCause (a.operand op.symbol)
          let y ← Eval.ofCause (b.operand op.symbol)
          let n ← Eval.ofCause (op.apply x y)
          pure ⟨.int n :: stack, f.trace.operator op x y (stack.length + 1)⟩
      | _ => underflow
  | .die =>
      match f.stack with
      | a :: stack => do
          let sides ← Eval.ofCause (a.operand "d")
          let face ← m.roll forceMax 1 sides
          pure { f with stack := .int face :: stack }
      | _ => underflow
  | .dice =>
      match f.stack with
      | b :: a :: stack => do
          let count ← Eval.ofCause (a.operand "d")
          let sides ← Eval.ofCause (b.operand "d")
          let sum ← m.roll forceMax count sides
          pure ⟨.int sum :: stack, f.trace.count.note (.rolled count sides sum)⟩
      | _ => underflow
  | .load name => do
      let value ← load name
      -- the trace shows no values but integers
      let trace := match value with
        | .int n => f.trace.note (.variable name n)
        | _ => f.trace
      pure ⟨value :: f.stack, trace⟩
  | .fill template placeholders =>
      let n := placeholders.length
      if f.stack.length < n then underflow
      else
        -- the value of the last placeholder is the topmost
        let values := (f.stack.take n).reverse
        let text := fillTemplate (placeholders.zip values) template.toList
        pure { f with stack := .text (String.ofList text) :: f.stack.drop n }
  | .store =>
      match f.stack with
      | value :: target :: stack =>
          match target with
          | .text name => do
              Eval.assign name value
              -- what has been assigned is the value of the assignment
              pure { f with stack := value :: stack }
          | other => Eval.fail (.typeMismatch "=" .text other.kind)
      | _ => underflow
  | .markLeft => pure { f with trace := f.trace.markLeft f.stack.length }
  | .halt => pure f

/-- Runs instructions one after the other. -/
def runCode (m : Machine) (load : String → Eval δ γ Value) (forceMax : Bool) :
    List Instruction → Frame → Eval δ γ Frame
  | [], f => pure f
  | i :: code, f => do
      let f ← m.step load forceMax i f
      runCode m load forceMax code f

/-- Runs a program from an empty stack; the result is the value at the bottom. A spoiled program
is refused. -/
def runProgram (m : Machine) (load : String → Eval δ γ Value) (p : Program) :
    Eval δ γ Evaluation :=
  match p.fault? with
  | some fault => throw fault
  | none => do
      let f ← m.runCode load p.forceMax p.code.toList {}
      return ⟨f.result, f.trace⟩

/-- Reads a name: the variable stored under it, else the integer of an older record, else a
template, else a text saying that it is undefined. What has to be expanded is handed to
`expand`. -/
def resolve (expand : Expansion → Eval δ γ Value) (name : String) : Eval δ γ Value := do
  let value ← match Variables.get? (← get).vars name with
    | some value => pure value
    | none =>
        match Variables.legacy? (← get).vars name with
        | some n => pure (Value.int n)
        | none => do
            let (template, vars) := Variables.template? (← get).vars name
            modify fun w => { w with vars }
            match template with
            | some text => expand (.template name text)
            | none => pure (Value.text (undefinedText name))
  match value with
  | .computed base source => expand (.computed name base source)
  | value => pure value

/-- Expands a source with the given number of nesting levels left. The base of a computed value is
assigned before its expression is compiled. -/
def expand (m : Machine) : (levels : Nat) → Expansion → Eval δ γ Value
  | 0, _ => Eval.fail (.nestingLimit m.limits.maxDepth)
  | levels + 1, x => do
      match x with
      | .computed _ base _ => Eval.assign baseVariable base
      | .template _ _ => pure ()
      Eval.inFrame x.frame do
        let p ← Eval.ofExcept (x.compile m.code)
        let result ← m.runProgram (resolve (expand m levels)) p
        return result.value

/-- Reads a name outside all expansions. -/
def load (m : Machine) : String → Eval δ γ Value := resolve (m.expand m.limits.maxDepth)

/-- Evaluates a program, with the whole budget of dice. -/
def evaluate (m : Machine) (p : Program) : Eval δ γ Evaluation := do
  modify fun w => { w with charged := 0 }
  m.runProgram m.load p

/-- Compiles and evaluates a source. -/
def evaluateSource (m : Machine) (source : String) : Eval δ γ Evaluation := do
  let p ← Eval.ofExcept (m.code.compile source)
  m.evaluate p

end Machine

/-- Evaluates a source without variables, with the given dice. -/
def evaluateOnce {δ : Type} [DiceSource δ] (dice : δ) (source : String) :
    Except Fault Evaluation :=
  match (({} : Machine).evaluateSource source).run ⟨dice, (∅ : VariableMap), 0⟩ with
  | .ok result _ => .ok result
  | .error fault _ => .error fault

end DiceBot
