import DiceBot.Proofs.Machine.Preservation

/-!
# Stack safety

A run comes to an underflow exactly where the heights told from the code say so, unless it has
failed before (`Machine.evaluate_of_underflow`, `Machine.evaluate_of_no_underflow`). This holds of
any program, also of one that no source compiles to. Compiled programs are balanced
(`Program.Balanced`): there is no underflow in them, they leave one value, and what they assign to
is named in their code.
-/

namespace DiceBot

theorem Cause.not_illFormed_iff {cause : Cause} :
    ¬cause.IllFormed ↔
      cause.code ≠ "E3" ∧ ∀ expected actual, cause ≠ .typeMismatch "=" expected actual := by
  cases cause <;> simp [IllFormed, Cause.code]

/-- What is told from the code of a compiled program: every instruction finds its operands, one
value is left at the end, and under each assigned value lies a name that a `text` instruction put
there. -/
structure Program.Balanced (p : Program) : Prop where
  no_underflow : Code.firstUnderflow? 0 p.code.toList = none
  height : Code.heightAfter 0 p.code.toList = 1
  stores : ∀ before after, p.code.toList = before ++ .store :: after →
    ∃ value name rest, Code.shapeAfter? [] before = some (value :: some name :: rest) ∧
      .text name ∈ before

theorem Program.balanced_of_shape {p : Program} {u : Option String}
    (h : Code.shapeAfter? [] p.code.toList = some [u]) : p.Balanced := by
  obtain ⟨hunderflow, hheight⟩ := Code.heights_of_shapeAfter? h
  refine ⟨hunderflow, hheight, fun before after hcode => ?_⟩
  rw [hcode] at h
  exact Code.shapeAfter?_before_store h

namespace Machine

variable {δ γ : Type} [DiceSource δ] [Variables γ]

/-- An instruction that misses operands fails before it does anything. -/
theorem step_of_lt (m : Machine) (load : String → Eval δ γ Value) (forceMax : Bool)
    {i : Instruction} {f : Frame} (h : f.stack.length < i.operands) :
    m.step load forceMax i f = Eval.fail (.stackUnderflow i.mnemonic) := by
  obtain ⟨stack, trace⟩ := f
  match i, stack with
  | .int _, _ | .text _, _ | .load _, _ | .markLeft, _ | .halt, _ =>
    exact absurd h (Nat.not_lt_zero _)
  | .negate, [] | .die, [] => rfl
  | .swap, [] | .swap, [_] | .binary _, [] | .binary _, [_] | .dice, [] | .dice, [_]
  | .store, [] | .store, [_] => rfl
  | .negate, _ :: _ | .die, _ :: _ | .swap, _ :: _ :: _ | .binary _, _ :: _ :: _
  | .dice, _ :: _ :: _ | .store, _ :: _ :: _ =>
    simp only [Instruction.operands, List.length_cons] at h
    omega
  | .fill template placeholders, stack => exact if_pos h

/-- No compiled code has an ill-formed fault, whatever the surroundings. -/
theorem keeps_true (m : Machine) {E : Cause → Prop} (hE : ∀ cause, ¬cause.IllFormed → E cause) :
    m.Keeps (fun _ : World δ γ => True) E :=
  .of_vars m (P := fun _ => True) (fun _ _ _ => id) (fun _ _ => id) hE

/-- Code that finds all its operands ends at the height told from it, or fails with a fault that is
not an underflow. -/
theorem runCode_ensures_height (m : Machine) (forceMax : Bool) {code : List Instruction}
    {f : Frame} (h : Code.firstUnderflow? f.stack.length code = none) :
    Eval.Ensures (fun _ : World δ γ => True) (fun cause => cause.code ≠ "E3")
      (fun f' => f'.stack.length = Code.heightAfter f.stack.length code)
      (m.runCode m.load forceMax code f) := by
  have hkeeps : m.Keeps (fun _ : World δ γ => True) (fun cause => cause.code ≠ "E3") :=
    m.keeps_true fun cause hcause => (Cause.not_illFormed_iff.mp hcause).1
  exact hkeeps.runCode_of_heights hkeeps.reads (fun kind => by simp [Cause.code]) h

/-- An evaluation is the run of the code from an empty stack. -/
theorem evaluate_eq (m : Machine) {p : Program} (hp : p.fault? = none) (w : World δ γ) :
    m.evaluate p w =
      (do
        let f ← m.runCode m.load p.forceMax p.code.toList {}
        return ⟨f.result, f.trace⟩ : Eval δ γ Evaluation) { w with charged := 0 } := by
  simp only [evaluate, runProgram, hp]
  rfl

/-- Without an underflow in the code there is none in its evaluation. -/
theorem evaluate_of_no_underflow (m : Machine) {p : Program} (hp : p.fault? = none)
    (h : Code.firstUnderflow? 0 p.code.toList = none) {w w' : World δ γ} {fault : Fault}
    (hrun : m.evaluate p w = .error fault w') : fault.code ≠ "E3" := by
  rw [evaluate_eq m hp] at hrun
  rcases Eval.error_of_bind hrun with hcode | ⟨f, v, -, hreturn⟩
  · exact ((m.runCode_ensures_height p.forceMax (f := {}) h).of_error trivial hcode).2
  · exact nomatch hreturn

/-- With an underflow in the code the evaluation is the run of the code before it, and then the
underflow. -/
theorem evaluate_of_underflow (m : Machine) {p : Program} (hp : p.fault? = none)
    {before : List Instruction} {i : Instruction}
    (h : Code.firstUnderflow? 0 p.code.toList = some (before, i)) (w : World δ γ) :
    match m.runCode m.load p.forceMax before {} { w with charged := 0 } with
    | .ok _ w' => m.evaluate p w = .error ⟨.stackUnderflow i.mnemonic, none⟩ w'
    | .error fault w' => m.evaluate p w = .error fault w' ∧ fault.code ≠ "E3" := by
  obtain ⟨⟨after, hcode⟩, hbefore, hshort⟩ := Code.firstUnderflow?_eq_some_iff.mp h
  have hensures := m.runCode_ensures_height (δ := δ) (γ := γ) p.forceMax (f := {}) hbefore
  have heval := evaluate_eq m hp w
  rw [hcode, runCode_append, bind_assoc] at heval
  cases hrun : m.runCode m.load p.forceMax before {} { w with charged := 0 } with
  | error fault w' =>
    rw [Eval.bind_of_error hrun] at heval
    exact ⟨heval, (hensures.of_error trivial hrun).2⟩
  | ok f w' =>
    have hheight : f.stack.length < i.operands := by
      rw [(hensures.of_ok trivial hrun).2]
      exact hshort
    rw [Eval.bind_of_ok hrun, runCode, step_of_lt m m.load p.forceMax hheight] at heval
    exact heval

/-- A run from the empty stack ends with values that are what the marks after the code say. -/
theorem fits_of_runCode (m : Machine) {code : List Instruction} {shape : List (Option String)}
    (h : Code.shapeAfter? [] code = some shape) {forceMax : Bool} {w w' : World δ γ} {f : Frame}
    (hrun : m.runCode m.load forceMax code {} w = .ok f w') :
    List.Forall₂ Value.Fits shape f.stack := by
  have hkeeps : m.Keeps (fun _ : World δ γ => True) (fun _ => True) :=
    m.keeps_true fun _ _ => trivial
  exact ((hkeeps.runCode_of_shape hkeeps.reads h (f := {}) .nil).of_ok trivial hrun).2

/-- The stack is safe. A program that fits fails with an underflow exactly at the first instruction
for which the height told from the code is too low, unless it has failed with another fault before.
Compiled programs are balanced and run accordingly, and so no evaluation of a program, of a source
or of what a name stands for comes to an underflow or assigns to anything but a name. -/
theorem stack_safety (m : Machine) :
    (∀ (p : Program) (w : World δ γ), p.fault? = none →
      match Code.firstUnderflow? 0 p.code.toList with
      | none => ∀ fault w', m.evaluate p w = .error fault w' → fault.code ≠ "E3"
      | some (before, i) =>
          match m.runCode m.load p.forceMax before {} { w with charged := 0 } with
          | .ok _ w' => m.evaluate p w = .error ⟨.stackUnderflow i.mnemonic, none⟩ w'
          | .error fault w' => m.evaluate p w = .error fault w' ∧ fault.code ≠ "E3") ∧
    (∀ (settings : CodeSettings) (source : String) (p : Program),
      settings.compile source = .ok p ∨ settings.compileTemplate source = .ok p →
      p.fault? = none →
        p.Balanced ∧
        ∀ (forceMax : Bool) (w : World δ γ),
          (∀ f w', m.runCode m.load forceMax p.code.toList {} w = .ok f w' → ∃ v, f.stack = [v]) ∧
          (∀ before after f w', p.code.toList = before ++ .store :: after →
            m.runCode m.load forceMax before {} w = .ok f w' →
              ∃ v name stack, f.stack = v :: .text name :: stack ∧ .text name ∈ before) ∧
          (∀ fault w', m.evaluate (p.withForceMax forceMax) w = .error fault w' →
            ¬fault.cause.IllFormed)) ∧
    (∀ (source : String) (w : World δ γ) fault w', m.evaluateSource source w = .error fault w' →
      ¬fault.cause.IllFormed) ∧
    (∀ (name : String) (w : World δ γ) fault w', m.load name w = .error fault w' →
      ¬fault.cause.IllFormed) := by
  have hkeeps : m.Keeps (fun _ : World δ γ => True) (fun cause => ¬cause.IllFormed) :=
    m.keeps_true fun _ => id
  refine ⟨fun p w hp => ?_, fun settings source p hcompile hp => ?_, ?_, ?_⟩
  · cases h : Code.firstUnderflow? 0 p.code.toList with
    | none => exact fun fault w' hrun => m.evaluate_of_no_underflow hp h hrun
    | some underflow => exact m.evaluate_of_underflow hp h w
  · have hleaves : p.LeavesOne :=
      hcompile.elim CodeSettings.leavesOne_of_compile CodeSettings.leavesOne_of_compileTemplate
    obtain ⟨u, hu⟩ := hleaves hp
    have hbalanced := Program.balanced_of_shape hu
    refine ⟨hbalanced, fun forceMax w => ⟨?_, ?_, ?_⟩⟩
    · intro f w' hrun
      exact List.length_eq_one_iff.mp (m.fits_of_runCode hu hrun).length_eq.symm
    · intro before after f w' hcode hrun
      obtain ⟨value, name, rest, hbefore, htext⟩ := hbalanced.stores before after hcode
      have hfits := m.fits_of_runCode hbefore hrun
      obtain ⟨v, below, -, htail, hstack⟩ := List.forall₂_cons_left_iff.mp hfits
      obtain ⟨target, stack, hname, -, rfl⟩ := List.forall₂_cons_left_iff.mp htail
      exact ⟨v, name, stack, by rw [hstack, hname name rfl], htext⟩
    · intro fault w' hrun
      -- whether dice show their highest faces has no part in the shape of the code
      have hevaluate := hkeeps.evaluate (p := p.withForceMax forceMax) hleaves
      exact (hevaluate.of_error trivial hrun).2
  · intro source w fault w' hrun
    exact ((hkeeps.evaluateSource source).of_error trivial hrun).2
  · intro name w fault w' hrun
    exact ((hkeeps.reads name).of_error trivial hrun).2

/-- A sum of one operand underflows; an update of a variable is balanced. -/
theorem stack_safety_add_update :
    (∀ w : World ScriptedDice VariableMap,
      ({} : Machine).evaluate ((Program.empty 8).emitAll [.int 1, .binary .add]) w =
        .error ⟨.stackUnderflow "add", none⟩ { w with charged := 0 }) ∧
    ∃ p, ({} : CodeSettings).compile "x+=2d6" = .ok p ∧ p.fault? = none ∧ p.Balanced :=
  ⟨fun w => (stack_safety {}).1 ((Program.empty 8).emitAll [.int 1, .binary .add]) w rfl,
    _, rfl, rfl, ((stack_safety (δ := ScriptedDice) (γ := VariableMap) {}).2.1 {} "x+=2d6" _
      (.inl rfl) rfl).1⟩

end Machine

end DiceBot
