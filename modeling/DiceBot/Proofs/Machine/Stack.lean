import DiceBot.Proofs.Machine.Eval

/-!
# Runs without their trace

What a run does to the stack and to its surroundings does not depend on the trace, which is only
written. `stepStack` and `runStack` are one instruction and several with the trace left out; they
are what a run looks like from the stack (`map_stack_step`, `map_stack_runCode`), and they compose
(`runStack_append`). The lemmas `stepStack_…` say what an instruction does to a stack that has its
operands, in terms of the operations on values.
-/

namespace DiceBot

/-! ## Operations on values

What the operators do to values that have been evaluated. Kinds are checked here, so after all
operands, and the left one first. -/

namespace Value

variable {δ γ : Type}

/-- The opposite number. -/
def negated (v : Value) : Eval δ γ Value := do
  let x ← Eval.ofCause (v.operand "-")
  match Checked.neg? x with
  | some n => pure (.int n)
  | none => Eval.fail (.arithmeticOverflow "-")

/-- The result of an operator. -/
def combined (op : Operator) (a b : Value) : Eval δ γ Value := do
  let x ← Eval.ofCause (a.operand op.symbol)
  let y ← Eval.ofCause (b.operand op.symbol)
  let n ← Eval.ofCause (op.apply x y)
  pure (.int n)

/-- The face of one die with the given sides. -/
def rolledDie [DiceSource δ] (m : Machine) (forceMax : Bool) (sides : Value) : Eval δ γ Value := do
  let sides ← Eval.ofCause (sides.operand "d")
  let face ← m.roll forceMax 1 sides
  pure (.int face)

/-- The sum of several dice. -/
def rolledDice [DiceSource δ] (m : Machine) (forceMax : Bool) (count sides : Value) :
    Eval δ γ Value := do
  let count ← Eval.ofCause (count.operand "d")
  let sides ← Eval.ofCause (sides.operand "d")
  let sum ← m.roll forceMax count sides
  pure (.int sum)

/-- The text of a template with its placeholders replaced. -/
def filled (template : String) (placeholders : List String) (values : List Value) : Value :=
  .text (String.ofList (fillTemplate (placeholders.zip values) template.toList))

end Value

namespace Machine

variable {δ γ : Type} [DiceSource δ] [Variables γ]
variable (m : Machine) (load : String → Eval δ γ Value) (forceMax : Bool)

/-- One instruction, the trace left out. -/
def stepStack (i : Instruction) (stack : List Value) : Eval δ γ (List Value) :=
  Frame.stack <$> m.step load forceMax i ⟨stack, {}⟩

/-- Instructions one after the other, the trace left out. -/
def runStack : List Instruction → List Value → Eval δ γ (List Value)
  | [], stack => pure stack
  | i :: code, stack => m.stepStack load forceMax i stack >>= runStack code

section StepStack

variable (stack : List Value)

@[simp] theorem stepStack_int (n : Int64) :
    m.stepStack load forceMax (.int n) stack = pure (.int n :: stack) := rfl

@[simp] theorem stepStack_text (s : String) :
    m.stepStack load forceMax (.text s) stack = pure (.text s :: stack) := rfl

@[simp] theorem stepStack_swap (a b : Value) :
    m.stepStack load forceMax .swap (b :: a :: stack) = pure (a :: b :: stack) := rfl

@[simp] theorem stepStack_markLeft : m.stepStack load forceMax .markLeft stack = pure stack := rfl

@[simp] theorem stepStack_halt : m.stepStack load forceMax .halt stack = pure stack := rfl

@[simp] theorem stepStack_negate (a : Value) :
    m.stepStack load forceMax .negate (a :: stack) = (· :: stack) <$> a.negated := by
  simp only [stepStack, step, Value.negated, map_bind]
  refine bind_congr fun x => ?_
  cases Checked.neg? x <;> rfl

@[simp] theorem stepStack_binary (op : Operator) (a b : Value) :
    m.stepStack load forceMax (.binary op) (b :: a :: stack) =
      (· :: stack) <$> Value.combined op a b := by
  simp only [stepStack, step, Value.combined, map_bind, map_pure]

@[simp] theorem stepStack_die (a : Value) :
    m.stepStack load forceMax .die (a :: stack) = (· :: stack) <$> a.rolledDie m forceMax := by
  simp only [stepStack, step, Value.rolledDie, map_bind, map_pure]

@[simp] theorem stepStack_dice (a b : Value) :
    m.stepStack load forceMax .dice (b :: a :: stack) =
      (· :: stack) <$> a.rolledDice m forceMax b := by
  simp only [stepStack, step, Value.rolledDice, map_bind, map_pure]

@[simp] theorem stepStack_load (name : String) :
    m.stepStack load forceMax (.load name) stack = (· :: stack) <$> load name := by
  simp only [stepStack, step, bind_pure_comp, Functor.map_map]

/-- The values of the placeholders are taken off the stack, which has the last one on top. -/
theorem step_fill (template : String) {placeholders : List String} {values : List Value}
    (h : values.length = placeholders.length) (t : Trace) :
    m.step load forceMax (.fill template placeholders) ⟨values.reverse ++ stack, t⟩ =
      pure ⟨Value.filled template placeholders values :: stack, t⟩ := by
  have hlength : ¬(values.reverse ++ stack).length < placeholders.length := by
    simp [h]
  have htake : ((values.reverse ++ stack).take placeholders.length).reverse = values := by
    rw [← h, ← List.length_reverse, List.take_left, List.reverse_reverse]
  have hdrop : (values.reverse ++ stack).drop placeholders.length = stack := by
    rw [← h, ← List.length_reverse, List.drop_left]
  simp only [step, if_neg hlength, htake, hdrop, Value.filled]

theorem stepStack_fill (template : String) {placeholders : List String} {values : List Value}
    (h : values.length = placeholders.length) :
    m.stepStack load forceMax (.fill template placeholders) (values.reverse ++ stack) =
      pure (Value.filled template placeholders values :: stack) := by
  rw [stepStack, m.step_fill load forceMax stack template h, map_pure]

@[simp] theorem stepStack_store (name : String) (value : Value) :
    m.stepStack load forceMax .store (value :: .text name :: stack) = (do
      Eval.assign name value
      pure (value :: stack)) := by
  simp only [stepStack, step, map_bind, map_pure]

end StepStack

/-- The trace of a frame has no part in what an instruction does to its stack. -/
theorem map_stack_step (i : Instruction) (f : Frame) :
    Frame.stack <$> m.step load forceMax i f = m.stepStack load forceMax i f.stack := by
  obtain ⟨stack, trace⟩ := f
  unfold stepStack step
  -- each instruction makes its new stack without a look at the trace
  cases i with
  | negate =>
    cases stack with
    | nil => rfl
    | cons a stack =>
      simp only [map_bind]
      refine bind_congr fun x => ?_
      cases Checked.neg? x <;> rfl
  | fill template placeholders =>
    simp only
    split <;> rfl
  | store =>
    match stack with
    | [] | [_] => rfl
    | value :: target :: stack => cases target <;> rfl
  | load name => simp only [map_bind, map_pure]
  | swap =>
    match stack with
    | [] | [_] | _ :: _ :: _ => rfl
  | binary op =>
    match stack with
    | [] | [_] => rfl
    | _ :: _ :: _ => simp only [map_bind, map_pure]
  | die =>
    cases stack with
    | nil => rfl
    | cons a stack => simp only [map_bind, map_pure]
  | dice =>
    match stack with
    | [] | [_] => rfl
    | _ :: _ :: _ => simp only [map_bind, map_pure]
  | _ => rfl

/-- Nor in what a run does to it. -/
theorem map_stack_runCode (code : List Instruction) (f : Frame) :
    Frame.stack <$> m.runCode load forceMax code f = m.runStack load forceMax code f.stack := by
  induction code generalizing f with
  | nil => rfl
  | cons i code ih =>
    rw [runCode, runStack, ← map_stack_step, map_bind, bind_map_left]
    exact bind_congr fun f => ih f

@[simp] theorem runStack_nil (stack : List Value) :
    m.runStack load forceMax [] stack = pure stack := rfl

theorem runStack_cons (i : Instruction) (code : List Instruction) (stack : List Value) :
    m.runStack load forceMax (i :: code) stack =
      m.stepStack load forceMax i stack >>= m.runStack load forceMax code := rfl

theorem runStack_append (code code' : List Instruction) (stack : List Value) :
    m.runStack load forceMax (code ++ code') stack =
      m.runStack load forceMax code stack >>= m.runStack load forceMax code' := by
  induction code generalizing stack with
  | nil => rw [List.nil_append, runStack_nil, pure_bind]
  | cons i code ih =>
    rw [List.cons_append, runStack_cons, runStack_cons, bind_assoc]
    exact bind_congr fun stack => ih stack

theorem runCode_append (code code' : List Instruction) (f : Frame) :
    m.runCode load forceMax (code ++ code') f =
      m.runCode load forceMax code f >>= m.runCode load forceMax code' := by
  induction code generalizing f with
  | nil => exact (pure_bind f _).symm
  | cons i code ih =>
    rw [List.cons_append, runCode, runCode, bind_assoc]
    exact bind_congr fun f => ih f

/-- A program that is not spoiled has the value that its run leaves at the bottom of the stack. -/
theorem map_value_runProgram {p : Program} (hp : p.overflowed = false) :
    Evaluation.value <$> m.runProgram load p =
      (fun stack => stack.getLast?.getD .nothing) <$>
        m.runStack load p.forceMax p.code.toList [] := by
  have hfault : p.fault? = none := by
    simp [Program.fault?, hp]
  have hstack := m.map_stack_runCode load p.forceMax p.code.toList {}
  rw [runProgram, hfault]
  simp only [← hstack, Frame.result, Functor.map_map, bind_pure_comp]

end Machine

end DiceBot
