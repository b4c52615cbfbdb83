import DiceBot.Proofs.Code.Shape
import DiceBot.Proofs.Machine.Ensures
import DiceBot.Proofs.Machine.Expansion
import DiceBot.Proofs.Machine.Stack

/-!
# What runs preserve

A property of the surroundings that survives an assignment, the picking of a template and a roll of
dice (`Machine.Keeps`) survives whatever the machine does: an instruction, a run, an expansion, the
reading of a name, an evaluation. Along with the property goes which faults can arise. Code that
accepts its marks (`Code.shapeAfter?`), and so every compiled source, has no fault that is
`Cause.IllFormed`.
-/

namespace DiceBot

/-- The causes that only code which was not compiled can have: too few operands, or an assignment to
something that is no name. -/
def Cause.IllFormed : Cause → Prop
  | .stackUnderflow _ => True
  | .typeMismatch operator _ _ => operator = "="
  | _ => False

/-- A value that is what its mark says. -/
def Value.Fits (mark : Option String) (v : Value) : Prop := ∀ s, mark = some s → v = .text s

theorem Value.fits_none (v : Value) : v.Fits none := fun _ h => nomatch h

variable {δ γ : Type} [DiceSource δ] [Variables γ]
variable {I : World δ γ → Prop} {E : Cause → Prop}

open Eval (Ensures)

namespace Machine

/-- The property `I` of surroundings is kept by all that a machine does to them, and `E` allows
every cause that well-formed code can have. -/
structure Keeps (m : Machine) (I : World δ γ → Prop) (E : Cause → Prop) : Prop where
  assign : ∀ w name value, I w → I { w with vars := Variables.set w.vars name value }
  template : ∀ w name, I w → I { w with vars := (Variables.template? w.vars name).2 }
  start : ∀ w, I w → I { w with charged := 0 }
  roll : ∀ forceMax count sides, Ensures I E (fun _ => True) (m.roll forceMax count sides)
  fault : ∀ cause, ¬cause.IllFormed → E cause

end Machine

namespace Operator

theorem symbol_ne_assignment (op : Operator) : op.symbol ≠ "=" := by
  cases op <;> decide

/-- An operator fails by leaving the 64-bit range or by a division by zero. -/
theorem eq_or_eq_of_apply {op : Operator} {a b : Int64} {cause : Cause}
    (h : op.apply a b = .error cause) :
    cause = .arithmeticOverflow op.symbol ∨ cause = .divisionByZero op.symbol := by
  have hoverflow : ∀ n?, op.orOverflow n? = .error cause →
      cause = .arithmeticOverflow op.symbol := by
    rintro (_ | n) h
    · exact (Except.error.inj h).symm
    · exact nomatch h
  cases op with
  | add | sub | mul => exact .inl (hoverflow _ h)
  | div | mod =>
    simp only [apply] at h
    split at h
    · exact .inr (Except.error.inj h).symm
    · exact .inl (hoverflow _ h)
  | pow => exact nomatch h

/-- An operator has its own causes. -/
theorem not_illFormed_of_apply {op : Operator} {a b : Int64} {cause : Cause}
    (h : op.apply a b = .error cause) : ¬cause.IllFormed := by
  rcases eq_or_eq_of_apply h with rfl | rfl
  · exact id
  · exact id

end Operator

omit [Variables γ] in
/-- Rolls leave the variables as they are. -/
theorem Machine.ensures_roll_of_vars (m : Machine) {P : γ → Prop}
    (hfault : ∀ cause, ¬cause.IllFormed → E cause) (forceMax : Bool) (count sides : Int64) :
    Ensures (fun w : World δ γ => P w.vars) E (fun _ => True) (m.roll forceMax count sides) := by
  intro w hw
  unfold Machine.roll
  by_cases hcount : count ≤ 0
  · rw [if_pos hcount]
    exact ⟨hw, trivial⟩
  rw [if_neg hcount]
  by_cases hbudget : count.toInt.toNat > m.limits.diceBudget - w.charged
  · simp only [if_pos hbudget]
    exact ⟨hw, hfault _ id⟩
  simp only [if_neg hbudget]
  generalize sumFaces _ _ _ _ = faces
  rcases faces with ⟨_ | sum, dice⟩
  · exact ⟨hw, hfault _ id⟩
  · exact ⟨hw, trivial⟩

namespace Machine.Keeps

variable {m : Machine} {load : String → Eval δ γ Value} {forceMax : Bool}

/-! ### Operations on values -/

theorem operand (h : m.Keeps I E) {operator : String} (hne : operator ≠ "=") (v : Value) :
    Ensures I E (fun _ => True) (Eval.ofCause (v.operand operator)) := by
  refine .ofCause (fun _ _ => trivial) fun cause hcause => ?_
  cases v with
  | int n => exact nomatch hcause
  | _ =>
    obtain rfl := Except.error.inj hcause
    exact h.fault _ hne

theorem negated (h : m.Keeps I E) (v : Value) : Ensures I E (fun _ => True) v.negated := by
  refine (h.operand (by decide) v).bind fun x _ => ?_
  cases Checked.neg? x with
  | some n => exact .pure trivial
  | none => exact .fail (h.fault _ id)

theorem combined (h : m.Keeps I E) (op : Operator) (a b : Value) :
    Ensures I E (fun _ => True) (Value.combined op a b) := by
  refine (h.operand op.symbol_ne_assignment a).bind fun x _ => ?_
  refine (h.operand op.symbol_ne_assignment b).bind fun y _ => ?_
  have happly : Ensures I E (fun _ => True) (Eval.ofCause (op.apply x y)) :=
    .ofCause (fun _ _ => trivial) fun cause hcause =>
      h.fault cause (Operator.not_illFormed_of_apply hcause)
  exact happly.bind fun n _ => .pure trivial

theorem rolledDie (h : m.Keeps I E) (sides : Value) :
    Ensures I E (fun _ => True) (sides.rolledDie m forceMax) := by
  refine (h.operand (by decide) sides).bind fun n _ => ?_
  exact (h.roll forceMax 1 n).bind fun face _ => .pure trivial

theorem rolledDice (h : m.Keeps I E) (count sides : Value) :
    Ensures I E (fun _ => True) (count.rolledDice m forceMax sides) := by
  refine (h.operand (by decide) count).bind fun k _ => ?_
  refine (h.operand (by decide) sides).bind fun n _ => ?_
  exact (h.roll forceMax k n).bind fun sum _ => .pure trivial

theorem assigns (h : m.Keeps I E) (name : String) (value : Value) :
    Ensures I E (fun _ => True) (Eval.assign name value) :=
  .modify fun w hw => h.assign w name value hw

/-! ### Runs -/

/-- An instruction that finds its operands has its effect on the stack. An assignment either finds a
name under the value, or its fault is one that `E` allows. -/
theorem stepStack (h : m.Keeps I E) (hload : ∀ name, Ensures I E (fun _ => True) (load name))
    {i : Instruction} {stack : List Value} (hoperands : i.operands ≤ stack.length)
    (hstore : i = .store → (∃ value name rest, stack = value :: .text name :: rest) ∨
      ∀ kind, E (.typeMismatch "=" .text kind)) :
    Ensures I E (fun stack' => ∃ v : Value, v.Fits i.mark ∧ stack' = i.effect v stack)
      (m.stepStack load forceMax i stack) := by
  match i, stack with
  | .swap, [] | .swap, [_] | .binary _, [] | .binary _, [_] | .dice, [] | .dice, [_]
  | .negate, [] | .die, [] | .store, [] | .store, [_] => simp [Instruction.operands] at hoperands
  | .int n, stack => exact .pure ⟨.int n, Value.fits_none _, rfl⟩
  | .text s, stack => exact .pure ⟨.text s, fun _ hs => by rw [Option.some.inj hs], rfl⟩
  | .swap, a :: b :: stack => exact .pure ⟨.nothing, Value.fits_none _, rfl⟩
  | .markLeft, stack | .halt, stack => exact .pure ⟨.nothing, Value.fits_none _, rfl⟩
  | .negate, a :: stack =>
    rw [stepStack_negate, Ensures.map_iff]
    exact (h.negated a).mono (fun _ => id) fun v _ => ⟨v, v.fits_none, rfl⟩
  | .binary op, b :: a :: stack =>
    rw [stepStack_binary, Ensures.map_iff]
    exact (h.combined op a b).mono (fun _ => id) fun v _ => ⟨v, v.fits_none, rfl⟩
  | .die, a :: stack =>
    rw [stepStack_die, Ensures.map_iff]
    exact (h.rolledDie a).mono (fun _ => id) fun v _ => ⟨v, v.fits_none, rfl⟩
  | .dice, b :: a :: stack =>
    rw [stepStack_dice, Ensures.map_iff]
    exact (h.rolledDice a b).mono (fun _ => id) fun v _ => ⟨v, v.fits_none, rfl⟩
  | .load name, stack =>
    rw [stepStack_load, Ensures.map_iff]
    exact (hload name).mono (fun _ => id) fun v _ => ⟨v, v.fits_none, rfl⟩
  | .fill template placeholders, stack =>
    obtain ⟨values, below, hvalues, rfl⟩ :
        ∃ values below, values.length = placeholders.length ∧ stack = values.reverse ++ below :=
      ⟨(stack.take placeholders.length).reverse, stack.drop placeholders.length,
        by simpa [Instruction.operands] using Nat.min_eq_left hoperands, by simp⟩
    rw [stepStack_fill _ _ _ _ _ hvalues]
    refine .pure ⟨.filled template placeholders values, Value.fits_none _, ?_⟩
    simp [Instruction.effect, Instruction.operands, ← hvalues]
  | .store, value :: target :: stack =>
    -- what lies under the value is a name, or the mismatch is allowed
    cases target with
    | text name =>
      rw [stepStack_store]
      exact (h.assigns name value).bind fun _ _ => .pure ⟨.nothing, Value.fits_none _, rfl⟩
    | _ =>
      rcases hstore rfl with ⟨_, _, _, hstack⟩ | hallowed
      · simp at hstack
      · exact .fail (hallowed _)

/-- Code without an underflow runs to the height that is told from it. -/
theorem runStack_of_heights (h : m.Keeps I E)
    (hload : ∀ name, Ensures I E (fun _ => True) (load name))
    (hallowed : ∀ kind, E (.typeMismatch "=" .text kind)) {code : List Instruction}
    {stack : List Value} (hcode : Code.firstUnderflow? stack.length code = none) :
    Ensures I E (fun stack' => stack'.length = Code.heightAfter stack.length code)
      (m.runStack load forceMax code stack) := by
  induction code generalizing stack with
  | nil => exact .pure rfl
  | cons i code ih =>
    have hoperands : i.operands ≤ stack.length := by
      by_contra hshort
      rw [Code.firstUnderflow?, if_pos (Nat.lt_of_not_le hshort)] at hcode
      exact Option.some_ne_none _ hcode
    rw [Code.firstUnderflow?_cons_of_le hoperands, Option.map_eq_none_iff] at hcode
    rw [runStack_cons, Code.heightAfter_cons]
    refine (h.stepStack hload hoperands fun _ => .inr hallowed).bind ?_
    rintro _ ⟨v, -, rfl⟩
    -- the rest has no underflow from the height that the instruction has really left
    rw [← Instruction.length_effect (a := v) hoperands] at hcode ⊢
    exact ih hcode

/-- Code that accepts the marks of a stack runs to a stack with the marks after it. -/
theorem runStack_of_shape (h : m.Keeps I E)
    (hload : ∀ name, Ensures I E (fun _ => True) (load name)) {code : List Instruction}
    {shape shape' : List (Option String)} (hcode : Code.shapeAfter? shape code = some shape')
    {stack : List Value} (hstack : List.Forall₂ Value.Fits shape stack) :
    Ensures I E (fun stack' => List.Forall₂ Value.Fits shape' stack')
      (m.runStack load forceMax code stack) := by
  induction code generalizing shape stack with
  | nil =>
    obtain rfl := Option.some.inj hcode
    exact .pure hstack
  | cons i code ih =>
    obtain ⟨haccepts, hcode⟩ := Code.shapeAfter?_cons_eq_some_iff.mp hcode
    have hoperands : i.operands ≤ stack.length :=
      hstack.length_eq ▸ Instruction.operands_le_of_accepts haccepts
    rw [runStack_cons]
    refine (h.stepStack hload hoperands fun hi => .inl ?_).bind ?_
    · subst hi
      obtain ⟨value, name, rest, rfl⟩ := Instruction.accepts_store haccepts
      obtain _ | ⟨-, _ | ⟨hname, -⟩⟩ := hstack
      exact ⟨_, name, _, by rw [hname name rfl]⟩
    · rintro _ ⟨v, hv, rfl⟩
      exact ih hcode (Instruction.forall₂_effect hv hstack)

theorem runCode_of_heights (h : m.Keeps I E)
    (hload : ∀ name, Ensures I E (fun _ => True) (load name))
    (hallowed : ∀ kind, E (.typeMismatch "=" .text kind)) {code : List Instruction} {f : Frame}
    (hcode : Code.firstUnderflow? f.stack.length code = none) :
    Ensures I E (fun f' => f'.stack.length = Code.heightAfter f.stack.length code)
      (m.runCode load forceMax code f) := by
  refine (Ensures.map_iff (f := Frame.stack) (R := fun stack => stack.length = _)).mp ?_
  rw [map_stack_runCode]
  exact h.runStack_of_heights hload hallowed hcode

theorem runCode_of_shape (h : m.Keeps I E)
    (hload : ∀ name, Ensures I E (fun _ => True) (load name)) {code : List Instruction}
    {shape shape' : List (Option String)} (hcode : Code.shapeAfter? shape code = some shape')
    {f : Frame} (hstack : List.Forall₂ Value.Fits shape f.stack) :
    Ensures I E (fun f' => List.Forall₂ Value.Fits shape' f'.stack)
      (m.runCode load forceMax code f) := by
  refine (Ensures.map_iff (f := Frame.stack) (R := List.Forall₂ Value.Fits shape')).mp ?_
  rw [map_stack_runCode]
  exact h.runStack_of_shape hload hcode hstack

/-- A program whose code accepts its marks is refused for its size or runs without an ill-formed
fault. -/
theorem runProgram (h : m.Keeps I E) (hload : ∀ name, Ensures I E (fun _ => True) (load name))
    {p : Program} (hp : p.LeavesOne) : Ensures I E (fun _ => True) (m.runProgram load p) := by
  unfold Machine.runProgram
  cases hfault : p.fault? with
  | some fault =>
    have hoverflow : fault = ⟨.programOverflow p.capacity, none⟩ := by
      unfold Program.fault? at hfault
      split at hfault
      · exact (Option.some.inj hfault).symm
      · exact nomatch hfault
    subst hoverflow
    exact .throw (h.fault _ id)
  | none =>
    obtain ⟨u, hu⟩ := hp hfault
    exact (h.runCode_of_shape hload hu (f := {}) .nil).bind fun _ _ => .pure trivial

/-! ### Reading names -/

section Resolve

variable {expand : Expansion → Eval δ γ Value}

theorem lookUp (h : m.Keeps I E) (hexpand : ∀ x, Ensures I E (fun _ => True) (expand x))
    (name : String) : Ensures I E (fun _ => True) (Machine.lookUp expand name) := by
  intro w hw
  unfold Machine.lookUp
  cases Variables.get? w.vars name with
  | some value => exact ⟨hw, trivial⟩
  | none =>
    cases Variables.legacy? w.vars name with
    | some n => exact ⟨hw, trivial⟩
    | none =>
      have hpicked := h.template w name hw
      rcases htemplate : Variables.template? w.vars name with ⟨_ | text, vars⟩
      · rw [htemplate] at hpicked
        exact ⟨hpicked, trivial⟩
      · rw [htemplate] at hpicked
        exact hexpand (.template name text) _ hpicked

omit [DiceSource δ] [Variables γ] in
theorem settle (hexpand : ∀ x, Ensures I E (fun _ => True) (expand x)) (name : String)
    (value : Value) : Ensures I E (fun _ => True) (Machine.settle expand name value) := by
  cases value with
  | computed base source => exact hexpand _
  | _ => exact .pure trivial

theorem resolve (h : m.Keeps I E) (hexpand : ∀ x, Ensures I E (fun _ => True) (expand x))
    (name : String) : Ensures I E (fun _ => True) (Machine.resolve expand name) := by
  rw [resolve_eq]
  exact (h.lookUp hexpand name).bind fun value _ => settle hexpand name value

end Resolve

theorem prepare (h : m.Keeps I E) (x : Expansion) : Ensures I E (fun _ => True) x.prepare := by
  cases x with
  | computed name base source => exact h.assigns _ _
  | template name text => exact .pure trivial

theorem evaluateExpansion (h : m.Keeps I E)
    (hload : ∀ name, Ensures I E (fun _ => True) (load name)) (x : Expansion) :
    Ensures I E (fun _ => True) (m.evaluateExpansion load x) := by
  have hcompile : Ensures I E Program.LeavesOne (Eval.ofExcept (x.compile m.code)) := by
    refine .ofExcept (fun p hp => ?_) fun fault hfault => ?_
    · obtain ⟨e, hcomplete, rfl⟩ := Expansion.exists_of_compile_eq_ok hp
      exact e.leavesOne_program m.code hcomplete
    · obtain ⟨message, offset, hcause⟩ := Expansion.malformed_of_compile hfault
      exact hcause ▸ h.fault _ id
  refine hcompile.bind fun p hp => ?_
  exact (h.runProgram hload hp).bind fun _ _ => .pure trivial

theorem expand (h : m.Keeps I E) (levels : Nat) (x : Expansion) :
    Ensures I E (fun _ => True) (m.expand levels x) := by
  induction levels generalizing x with
  | zero => exact .fail (h.fault _ id)
  | succ levels ih =>
    rw [expand_succ]
    refine (h.prepare x).bind fun _ _ => .inFrame ?_
    exact h.evaluateExpansion (h.resolve ih) x

theorem reads (h : m.Keeps I E) (name : String) :
    Ensures I E (fun _ => True) (m.load name) :=
  h.resolve (h.expand m.limits.maxDepth) name

theorem evaluate (h : m.Keeps I E) {p : Program} (hp : p.LeavesOne) :
    Ensures I E (fun _ => True) (m.evaluate p) :=
  (Ensures.modify h.start).bind fun _ _ => h.runProgram h.reads hp

theorem evaluateSource (h : m.Keeps I E) (source : String) :
    Ensures I E (fun _ => True) (m.evaluateSource source) := by
  have hcompile : Ensures I E Program.LeavesOne (Eval.ofExcept (m.code.compile source)) := by
    refine .ofExcept (fun p hp => CodeSettings.leavesOne_of_compile hp) fun fault hfault => ?_
    obtain ⟨syntaxFault, -, rfl⟩ := CodeSettings.programOf_eq_error_iff.mp hfault
    exact h.fault _ id
  exact hcompile.bind fun p hp => h.evaluate hp

/-- A property of the variables is kept if assignments and picked templates keep it. -/
theorem of_vars (m : Machine) {P : γ → Prop}
    (hset : ∀ vars name value, P vars → P (Variables.set vars name value))
    (htemplate : ∀ vars name, P vars → P (Variables.template? vars name).2)
    (hfault : ∀ cause, ¬cause.IllFormed → E cause) :
    m.Keeps (fun w : World δ γ => P w.vars) E where
  assign w name value hw := hset w.vars name value hw
  template w name hw := htemplate w.vars name hw
  start _ hw := hw
  fault := hfault
  roll := m.ensures_roll_of_vars hfault

end Machine.Keeps

end DiceBot
