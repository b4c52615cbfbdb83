import DiceBot.Proofs.Code.Emission
import DiceBot.Proofs.Machine.Expansion
import DiceBot.Proofs.Machine.Stack

/-!
# Evaluation on the tree

The machine runs postfix code. What it computes is said here without code or stack, by recursion on
the tree of an expression (`Expr.value`): operands from left to right, then the operation on their
values. Reading a variable goes through the same steps (`Machine.resolve`), but a source that has to
be expanded is parsed and evaluated on its tree again (`Machine.expandTree`).

* `Expr.runStack_code`: the code of an expression puts its value on any stack, with the same fault,
  dice and variables as the tree, and touches nothing below. By structural recursion on the tree.
* `Machine.expand_eq_expandTree`: so expansions agree at every level, by induction on the levels.
* `Machine.value_evaluate_eq`: so evaluation of a program that a source compiles to agrees with
  evaluation of the one tree that the grammar has for the source.
-/

namespace DiceBot

variable {δ γ : Type} [DiceSource δ] [Variables γ]

namespace Expr

mutual

/-- The value of an expression. Operands are evaluated from left to right, and only then does the
operation look at their kinds. An update reads the variable before its right side is evaluated; a
variable is assigned when the value is there. -/
def value (m : Machine) (load : String → Eval δ γ Value) (usual : Int64) (forceMax : Bool) :
    Expr → Eval δ γ Value
  | .int n => pure (.int n)
  | .usualSides => pure (.int usual)
  | .text s => pure (.text s)
  | .variable name => load name
  | .template s parts => do
      let values ← values m load usual forceMax parts
      pure (.filled s (placeholderTexts s) values)
  | .negate e => do
      let v ← value m load usual forceMax e
      v.negated
  | .binary op left right => do
      let a ← value m load usual forceMax left
      let b ← value m load usual forceMax right
      Value.combined op a b
  | .die sides => do
      let s ← value m load usual forceMax sides
      s.rolledDie m forceMax
  | .dice count sides => do
      let c ← value m load usual forceMax count
      let s ← value m load usual forceMax sides
      c.rolledDice m forceMax s
  | .assign name e => do
      let v ← value m load usual forceMax e
      Eval.assign name v
      pure v
  | .update op name e => do
      let old ← load name
      let b ← value m load usual forceMax e
      let v ← Value.combined op old b
      Eval.assign name v
      pure v

/-- The values of several expressions, from left to right. -/
def values (m : Machine) (load : String → Eval δ γ Value) (usual : Int64) (forceMax : Bool) :
    List Expr → Eval δ γ (List Value)
  | [] => pure []
  | e :: es => do
      let v ← value m load usual forceMax e
      let vs ← values m load usual forceMax es
      pure (v :: vs)

end

end Expr

namespace Machine

/-- Evaluates an expression on its tree, unless its code does not fit a program. -/
def valueWithin (m : Machine) (load : String → Eval δ γ Value) (e : Expr) : Eval δ γ Value :=
  if e.size + 1 ≤ m.code.capacity then e.value m load m.code.usualSides false
  else Eval.fail (.programOverflow m.code.capacity)

/-- Expands a source on its tree, with the given number of nesting levels left. -/
def expandTree (m : Machine) : (levels : Nat) → Expansion → Eval δ γ Value
  | 0, _ => Eval.fail (.nestingLimit m.limits.maxDepth)
  | levels + 1, x => do
      x.prepare
      Eval.inFrame x.frame do
        let e ← Eval.ofExcept x.tree
        m.valueWithin (resolve (expandTree m levels)) e

/-- Evaluates an expression on its tree, outside all expansions and with the whole budget of
dice. -/
def evaluateTree (m : Machine) (usual : Int64) (forceMax : Bool) (e : Expr) : Eval δ γ Value := do
  modify fun w => { w with charged := 0 }
  e.value m (resolve (m.expandTree m.limits.maxDepth)) usual forceMax

end Machine

/-! ## Code and tree -/

namespace Expr

/-- As many values as expressions. -/
theorem length_of_values {m : Machine} {load : String → Eval δ γ Value} {usual : Int64}
    {forceMax : Bool} {es : List Expr} {w w' : World δ γ} {vs : List Value}
    (h : values m load usual forceMax es w = .ok vs w') : vs.length = es.length := by
  induction es generalizing w vs w' with
  | nil =>
    obtain ⟨rfl, rfl⟩ : [] = vs ∧ w = w' := by simpa [values, pure, EStateM.pure] using h
    rfl
  | cons e es ih =>
    obtain ⟨v, w₁, -, h⟩ := Eval.ok_of_bind h
    obtain ⟨vs', w₂, hvs', h⟩ := Eval.ok_of_bind h
    obtain ⟨rfl, rfl⟩ : v :: vs' = vs ∧ w₂ = w' := by simpa [pure, EStateM.pure] using h
    rw [List.length_cons, ih hvs', List.length_cons]

mutual

/-- The code of an expression puts its value on the stack. -/
theorem runStack_code (m : Machine) (load : String → Eval δ γ Value) (usual : Int64)
    (forceMax : Bool) (e : Expr) (he : e.Complete) (stack : List Value) :
    m.runStack load forceMax (e.code usual) stack =
      (· :: stack) <$> e.value m load usual forceMax := by
  match e with
  | .int n => simp [code, value, Machine.runStack_cons]
  | .usualSides => simp [code, value, Machine.runStack_cons]
  | .text s => simp [code, value, Machine.runStack_cons]
  | .variable name => simp [code, value, Machine.runStack_cons]
  | .template s parts =>
    -- `fill` takes as many values as there are placeholders, which are those of the parts
    rw [code, value, Machine.runStack_append, map_bind,
      runStack_codeOfParts m load usual forceMax parts he.2, bind_map_left]
    refine Eval.bind_congr_of_ok fun w vs w' hvs => ?_
    rw [Machine.runStack_cons, Machine.stepStack_fill _ _ _ _ _ ((length_of_values hvs).trans he.1)]
    simp
  | .negate e =>
    simp [code, value, Machine.runStack_append, Machine.runStack_cons,
      runStack_code m load usual forceMax e he]
  | .binary op left right =>
    simp [code, value, Machine.runStack_append, Machine.runStack_cons,
      runStack_code m load usual forceMax left he.1, runStack_code m load usual forceMax right he.2]
  | .die sides =>
    simp [code, value, Machine.runStack_append, Machine.runStack_cons,
      runStack_code m load usual forceMax sides he]
  | .dice count sides =>
    simp [code, value, Machine.runStack_append, Machine.runStack_cons,
      runStack_code m load usual forceMax count he.1,
      runStack_code m load usual forceMax sides he.2]
  | .assign name e =>
    simp [code, value, Machine.runStack_append, Machine.runStack_cons,
      runStack_code m load usual forceMax e he]
  | .update op name e =>
    simp [code, value, Machine.runStack_append, Machine.runStack_cons,
      runStack_code m load usual forceMax e he]

theorem runStack_codeOfParts (m : Machine) (load : String → Eval δ γ Value) (usual : Int64)
    (forceMax : Bool) (es : List Expr) (hes : CompleteParts es) (stack : List Value) :
    m.runStack load forceMax (codeOfParts usual es) stack =
      (fun vs => vs.reverse ++ stack) <$> values m load usual forceMax es := by
  match es with
  | [] => simp [codeOfParts, values]
  | e :: es =>
    simp [codeOfParts, values, Machine.runStack_append, runStack_code m load usual forceMax e hes.1,
      runStack_codeOfParts m load usual forceMax es hes.2]

end

end Expr

namespace Machine

/-- A program that holds the code of an expression and has not lost any of it has the value of the
tree. -/
theorem map_value_runProgram_code {m : Machine} {load : String → Eval δ γ Value} {p : Program}
    {e : Expr} {usual : Int64} (he : e.Complete) (hp : p.overflowed = false)
    (hcode : p.code.toList = e.code usual ++ [.halt]) :
    Evaluation.value <$> m.runProgram load p = e.value m load usual p.forceMax := by
  rw [map_value_runProgram m load hp, hcode, runStack_append,
    Expr.runStack_code m load usual _ e he]
  simp [runStack_cons]

/-- The program of an expression has the value of the tree, as long as the code fits. -/
theorem map_value_runProgram_program {m : Machine} {load : String → Eval δ γ Value} {e : Expr}
    (he : e.Complete) :
    Evaluation.value <$> m.runProgram load (e.program m.code) = m.valueWithin load e := by
  unfold valueWithin
  split
  · next hfits =>
    have hp : (e.program m.code).overflowed = false := by
      rw [← Bool.not_eq_true, Expr.overflowed_program]
      omega
    rw [map_value_runProgram_code he hp (Expr.toList_code_program hp), Expr.forceMax_program]
  · next hfits =>
    have hp : (e.program m.code).overflowed = true := by
      rw [Expr.overflowed_program]
      omega
    have hcapacity : (e.program m.code).capacity = m.code.capacity := by
      simp [Expr.program, Program.empty]
    rw [runProgram, Program.fault?, if_pos hp, hcapacity]
    rfl

/-- If the code fits, evaluating the program of an expression is evaluating the tree. -/
theorem map_value_evaluate_program {m : Machine} {e : Expr} (he : e.Complete)
    (hfits : e.size + 1 ≤ m.code.capacity) (w : World δ γ) :
    (Evaluation.value <$> m.evaluate (e.program m.code) : Eval δ γ Value) w =
      e.value m m.load m.code.usualSides false { w with charged := 0 } := by
  rw [evaluate, map_bind, Eval.modify_bind, map_value_runProgram_program he, valueWithin,
    if_pos hfits]

/-- Expanding by code and on the tree is the same. -/
theorem expand_eq_expandTree (m : Machine) (levels : Nat) :
    (m.expand levels : Expansion → Eval δ γ Value) = m.expandTree levels := by
  induction levels with
  | zero => rfl
  | succ levels ih =>
    funext x
    rw [expand_succ, expandTree, ← ih]
    refine bind_congr fun _ => congrArg (Eval.inFrame x.frame) ?_
    rw [evaluateExpansion, Expansion.compile_eq]
    cases htree : x.tree with
    | error fault => rfl
    | ok e =>
      simp only [Except.map, Eval.ofExcept, pure_bind]
      rw [bind_pure_comp, map_value_runProgram_program (Expansion.complete_of_tree htree)]

/-- Evaluation by code is evaluation on the tree. A source that compiles without spoiling its
program has one tree in the grammar, and running its program, on any variables, with any dice and
under any limits, gives the same value or fault as evaluating the tree, and leaves the same
variables and dice. -/
theorem value_evaluate_eq (m : Machine) (settings : CodeSettings) {source : String} {p : Program}
    (hp : settings.compile source = .ok p) (hfits : p.fault? = none) (forceMax : Bool) :
    ∃ e, Grammar.Derives 64 .expression (sentence source.toList) e ∧
      (Evaluation.value <$> m.evaluate (p.withForceMax forceMax) : Eval δ γ Value) =
        m.evaluateTree settings.usualSides forceMax e := by
  obtain ⟨e, hparse, rfl⟩ := CodeSettings.programOf_eq_ok_iff.mp hp
  refine ⟨e, Grammar.parse_eq_ok_iff.mp hparse, ?_⟩
  rw [Program.fault?_eq_none_iff] at hfits
  have hvalue :
      (Evaluation.value <$> m.runProgram m.load ((e.program settings).withForceMax forceMax) :
        Eval δ γ Value) = e.value m m.load settings.usualSides forceMax :=
    map_value_runProgram_code (Expr.complete_of_parse hparse) hfits (Expr.toList_code_program hfits)
  rw [evaluate, evaluateTree, map_bind, hvalue, load, expand_eq_expandTree]

/-- An update that rolls dice, from any variables and dice. -/
theorem value_evaluate_eq_update :
    ∃ p, ({} : CodeSettings).compile "x+=2d6" = .ok p ∧ p.fault? = none ∧
      ∃ e, Grammar.Derives 64 .expression (sentence "x+=2d6".toList) e ∧
        (Evaluation.value <$> ({} : Machine).evaluate (p.withForceMax false) :
          Eval ScriptedDice VariableMap Value) = ({} : Machine).evaluateTree 100 false e :=
  ⟨_, rfl, rfl, value_evaluate_eq {} {} rfl rfl false⟩

end Machine

end DiceBot
