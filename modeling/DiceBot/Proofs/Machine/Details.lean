import DiceBot.Proofs.Machine.Effects

/-!
# Details of operands

What the evaluation of an expression notes for the trace is said here on the tree, beside the value
(`Expr.noted`): the sum of each roll of counted dice and each integer that is read from a variable,
in the order of evaluation. The code of an expression that is evaluated above other values shows
nothing. It leaves the value on the stack, adds its details to those pending and counts its
operators (`Expr.runCode_code`). At the bottom of the stack that holds of an expression without
operators of arithmetic.
-/

namespace DiceBot

namespace Trace

/-- The trace after code that shows nothing: some details more, and some operators more. -/
def pass (t : Trace) (ds : List Detail) (n : Nat) : Trace :=
  { t with pending := t.pending ++ ds, operators := t.operators + n }

variable (t : Trace)

@[simp] theorem pass_nil_zero : t.pass [] 0 = t := by simp [pass]

@[simp] theorem pass_pass (ds ds' : List Detail) (n n' : Nat) :
    (t.pass ds n).pass ds' n' = t.pass (ds ++ ds') (n + n') := by
  simp [pass, Nat.add_assoc]

@[simp] theorem note_eq_pass (d : Detail) : t.note d = t.pass [d] 0 := rfl

@[simp] theorem count_eq_pass : t.count = t.pass [] 1 := by simp [count, pass]

/-- An operator above other values is only counted. -/
theorem operator_of_ne (op : Operator) (a b : Int64) {height : Nat} (h : height ≠ 1) :
    t.operator op a b height = t.pass [] 1 := by
  rw [operator, if_pos h, count_eq_pass]

/-- A mark above other values does nothing. -/
theorem markLeft_of_ne {height : Nat} (h : height ≠ 1) : t.markLeft height = t := if_neg h

end Trace

/-- Is an instruction counted among the operators of a trace? -/
def Instruction.isOperator : Instruction → Bool
  | .binary _ | .dice => true
  | _ => false

/-- What the reading of a variable notes. -/
def Value.readDetails (name : String) : Value → List Detail
  | .int n => [.variable name n]
  | _ => []

variable {δ γ : Type} [DiceSource δ] [Variables γ]

namespace Expr

/-- Does an operator of arithmetic stand at the root, be it that of an update? -/
def isOperation : Expr → Bool
  | .binary .. | .update .. => true
  | _ => false

/-- Does an expression have no operator of arithmetic at all? -/
def isPlain (e : Expr) : Bool := e.every (!·.isOperation)

/-- The number of operators in the code of an expression, counted dice among them. -/
def operators (usual : Int64) (e : Expr) : Nat := (e.code usual).countP Instruction.isOperator

mutual

/-- The value of an expression with the details noted on the way. -/
def noted (m : Machine) (load : String → Eval δ γ Value) (usual : Int64) (forceMax : Bool) :
    Expr → Eval δ γ (Value × List Detail)
  | .int n => pure (.int n, [])
  | .usualSides => pure (.int usual, [])
  | .text s => pure (.text s, [])
  | .variable name => do
      let v ← load name
      pure (v, v.readDetails name)
  | .template s parts => do
      let (values, ds) ← notedParts m load usual forceMax parts
      pure (.filled s (placeholderTexts s) values, ds)
  | .negate e => do
      let (v, ds) ← noted m load usual forceMax e
      let v ← v.negated
      pure (v, ds)
  | .binary op left right => do
      let (a, ds) ← noted m load usual forceMax left
      let (b, ds') ← noted m load usual forceMax right
      let v ← Value.combined op a b
      pure (v, ds ++ ds')
  | .die sides => do
      let (s, ds) ← noted m load usual forceMax sides
      let v ← s.rolledDie m forceMax
      pure (v, ds)
  | .dice count sides => do
      let (c, ds) ← noted m load usual forceMax count
      let (s, ds') ← noted m load usual forceMax sides
      let count ← Eval.ofCause (c.operand "d")
      let sides ← Eval.ofCause (s.operand "d")
      let sum ← m.roll forceMax count sides
      pure (.int sum, ds ++ ds' ++ [.rolled count sides sum])
  | .assign name e => do
      let (v, ds) ← noted m load usual forceMax e
      Eval.assign name v
      pure (v, ds)
  | .update op name e => do
      let old ← load name
      let (b, ds) ← noted m load usual forceMax e
      let v ← Value.combined op old b
      Eval.assign name v
      pure (v, old.readDetails name ++ ds)

/-- The values of several expressions with all details noted on the way. -/
def notedParts (m : Machine) (load : String → Eval δ γ Value) (usual : Int64) (forceMax : Bool) :
    List Expr → Eval δ γ (List Value × List Detail)
  | [] => pure ([], [])
  | e :: es => do
      let (v, ds) ← noted m load usual forceMax e
      let (vs, ds') ← notedParts m load usual forceMax es
      pure (v :: vs, ds ++ ds')

end

variable (m : Machine) (load : String → Eval δ γ Value) (usual : Int64) (forceMax : Bool)

mutual

/-- Noting changes nothing in the evaluation. -/
theorem map_fst_noted (e : Expr) :
    Prod.fst <$> e.noted m load usual forceMax = e.value m load usual forceMax := by
  match e with
  | .int n => simp [noted, value]
  | .usualSides => simp [noted, value]
  | .text s => simp [noted, value]
  | .variable name => simp [noted, value]
  | .template s parts => simp [noted, value, ← map_fst_notedParts parts]
  | .negate e => simp [noted, value, ← map_fst_noted e]
  | .binary op left right => simp [noted, value, ← map_fst_noted left, ← map_fst_noted right]
  | .die sides => simp [noted, value, ← map_fst_noted sides]
  | .dice count sides =>
    simp [noted, value, Value.rolledDice, ← map_fst_noted count, ← map_fst_noted sides]
  | .assign name e => simp [noted, value, ← map_fst_noted e]
  | .update op name e => simp [noted, value, ← map_fst_noted e]

theorem map_fst_notedParts (es : List Expr) :
    Prod.fst <$> notedParts m load usual forceMax es = values m load usual forceMax es := by
  match es with
  | [] => simp [notedParts, values]
  | e :: es => simp [notedParts, values, ← map_fst_noted e, ← map_fst_notedParts es]

end

end Expr

/-! ## Code that shows nothing -/

namespace Machine

variable (m : Machine) (load : String → Eval δ γ Value) (forceMax : Bool)
variable (stack : List Value) (t : Trace)

@[simp] theorem runCode_nil : m.runCode load forceMax [] = (pure : Frame → Eval δ γ Frame) := rfl

@[simp] theorem runCode_cons (i : Instruction) (code : List Instruction) (f : Frame) :
    m.runCode load forceMax (i :: code) f =
      m.step load forceMax i f >>= m.runCode load forceMax code := rfl

@[simp] theorem step_text (s : String) :
    m.step load forceMax (.text s) ⟨stack, t⟩ = pure ⟨.text s :: stack, t⟩ := rfl

@[simp] theorem step_swap (a b : Value) :
    m.step load forceMax .swap ⟨b :: a :: stack, t⟩ = pure ⟨a :: b :: stack, t⟩ := rfl

@[simp] theorem step_store (name : String) (v : Value) :
    m.step load forceMax .store ⟨v :: .text name :: stack, t⟩ =
      (fun _ => ⟨v :: stack, t⟩) <$> Eval.assign name v := by
  simp only [step, bind_pure_comp]

@[simp] theorem step_load (name : String) :
    m.step load forceMax (.load name) ⟨stack, t⟩ =
      (fun v => ⟨v :: stack, t.pass (v.readDetails name) 0⟩) <$> load name := by
  rw [step, map_eq_pure_bind]
  refine bind_congr fun v => ?_
  cases v <;> simp [Value.readDetails]

@[simp] theorem step_negate (a : Value) :
    m.step load forceMax .negate ⟨a :: stack, t⟩ = (⟨· :: stack, t⟩) <$> a.negated := by
  simp only [step, Value.negated, map_bind]
  refine bind_congr fun x => ?_
  cases Checked.neg? x <;> rfl

@[simp] theorem step_die (a : Value) :
    m.step load forceMax .die ⟨a :: stack, t⟩ = (⟨· :: stack, t⟩) <$> a.rolledDie m forceMax := by
  simp only [step, Value.rolledDie, map_bind, map_pure]

/-- An operator above other values is counted and not shown. -/
theorem step_binary_above (op : Operator) (a b : Value) (h : stack ≠ []) :
    m.step load forceMax (.binary op) ⟨b :: a :: stack, t⟩ =
      (⟨· :: stack, t.pass [] 1⟩) <$> Value.combined op a b := by
  have hheight : stack.length + 1 ≠ 1 := by simpa using h
  simp only [step, Value.combined, map_bind, map_pure, Trace.operator_of_ne _ _ _ _ hheight]

/-- A mark above other values does nothing. -/
theorem step_markLeft_above (a : Value) (h : stack ≠ []) :
    m.step load forceMax .markLeft ⟨a :: stack, t⟩ = pure ⟨a :: stack, t⟩ := by
  have hmark : t.markLeft (a :: stack).length = t := t.markLeft_of_ne (by simpa using h)
  exact congrArg (fun t => pure (Frame.mk (a :: stack) t)) hmark

end Machine

namespace Expr

variable (m : Machine) (load : String → Eval δ γ Value) (usual : Int64) (forceMax : Bool)

mutual

/-- The code of an expression shows nothing if it is run above other values, or if the expression
has no operator of arithmetic: it puts the value on the stack, notes the details and counts its
operators. -/
theorem runCode_code (e : Expr) (he : e.Complete) (stack : List Value) (t : Trace)
    (h : stack ≠ [] ∨ e.isPlain = true) :
    m.runCode load forceMax (e.code usual) ⟨stack, t⟩ =
      (fun outcome => ⟨outcome.1 :: stack, t.pass outcome.2 (e.operators usual)⟩) <$>
        e.noted m load usual forceMax := by
  match e with
  | .int n => simp [code, noted, Machine.step, operators, Instruction.isOperator]
  | .usualSides => simp [code, noted, Machine.step, operators, Instruction.isOperator]
  | .text s => simp [code, noted, operators, Instruction.isOperator]
  | .variable name => simp [code, noted, operators, Instruction.isOperator]
  | .template s parts =>
    have hplain : stack ≠ [] ∨ everyPart (!·.isOperation) parts = true := by
      simpa [isPlain, every, isOperation] using h
    rw [code, noted, Machine.runCode_append, runCode_codeOfParts parts he.2 stack t hplain,
      bind_map_left, map_bind]
    -- `fill` takes as many values as there are placeholders
    refine Eval.bind_congr_of_ok fun w outcome w' houtcome => ?_
    have hvalues : values m load usual forceMax parts w = .ok outcome.1 w' := by
      simp only [← map_fst_notedParts, Functor.map, EStateM.map, houtcome]
    have hlength : outcome.1.length = (placeholderTexts s).length :=
      (length_of_values hvalues).trans he.1
    simp [Machine.step_fill, hlength, operators, code, Instruction.isOperator]
  | .negate e =>
    have hplain : stack ≠ [] ∨ e.isPlain = true := by simpa [isPlain, every, isOperation] using h
    simp [code, noted, Machine.runCode_append, runCode_code e he stack t hplain,
      operators, Instruction.isOperator]
  | .binary op left right =>
    have hstack : stack ≠ [] := by simpa [isPlain, every, isOperation] using h
    simp [code, noted, Machine.runCode_append, runCode_code left he.1 stack t (.inl hstack),
      Machine.step_markLeft_above, runCode_code right he.2 (_ :: stack) _ (.inl (by simp)),
      Machine.step_binary_above, hstack, operators, Instruction.isOperator, Nat.add_assoc]
  | .die sides =>
    have hplain : stack ≠ [] ∨ sides.isPlain = true := by
      simpa [isPlain, every, isOperation] using h
    simp [code, noted, Machine.runCode_append, runCode_code sides he stack t hplain,
      operators, Instruction.isOperator]
  | .dice count sides =>
    have hplain : stack ≠ [] ∨ count.isPlain = true := h.imp_right fun h => by
      simp only [isPlain, every, Bool.and_eq_true] at h
      exact h.2.1
    simp [code, noted, Machine.runCode_append, runCode_code count he.1 stack t hplain,
      runCode_code sides he.2 (_ :: stack) _ (.inl (by simp)), Machine.step,
      operators, Instruction.isOperator, Nat.add_assoc]
  | .assign name e =>
    simp [code, noted, Machine.runCode_append,
      runCode_code e he (_ :: stack) _ (.inl (by simp)), operators, Instruction.isOperator]
  | .update op name e =>
    have hstack : stack ≠ [] := by simpa [isPlain, every, isOperation] using h
    simp [code, noted, Machine.runCode_append, Machine.step_markLeft_above,
      runCode_code e he (_ :: stack) _ (.inl (by simp)), Machine.step_binary_above,
      hstack, operators, Instruction.isOperator, List.countP_cons]

theorem runCode_codeOfParts (es : List Expr) (hes : CompleteParts es) (stack : List Value)
    (t : Trace) (h : stack ≠ [] ∨ everyPart (!·.isOperation) es = true) :
    m.runCode load forceMax (codeOfParts usual es) ⟨stack, t⟩ =
      (fun outcome => ⟨outcome.1.reverse ++ stack,
          t.pass outcome.2 ((codeOfParts usual es).countP Instruction.isOperator)⟩) <$>
        notedParts m load usual forceMax es := by
  match es with
  | [] => simp [codeOfParts, notedParts]
  | e :: es =>
    have hplain : stack ≠ [] ∨ e.isPlain = true := h.imp_right fun h => by
      simp only [everyPart, Bool.and_eq_true] at h
      exact h.1
    rw [codeOfParts, notedParts, Machine.runCode_append, runCode_code e hes.1 stack t hplain]
    simp [runCode_codeOfParts es hes.2 (_ :: stack) _ (.inl (by simp)), operators]

end

end Expr

end DiceBot
