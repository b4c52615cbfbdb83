import DiceBot.Proofs.Machine.DiceBudget

/-!
# Forced dice

In a program whose dice are forced, each die shows its highest face and the source of dice is not
asked. The dice of the computed values and templates that it expands are none of its own: their
sources are compiled to programs of which nothing is forced (`Expansion.forceMax_of_compile`). So
what is read is all that a run has from the source (`Machine.sameOutcome_runProgram_forced`). It is
asked only while a name is read (`Machine.dice_runCode_forced`), and an evaluation in which it is
not asked there goes the same way with any other source (`Machine.forced_dice`).
-/

namespace DiceBot

open Eval (Alike SameOutcome after)

namespace Machine

variable {δ γ δ' : Type} [DiceSource δ] [Variables γ] [DiceSource δ']

/-- Surroundings with dice related by `D` that are otherwise the same. -/
structure SameButDice (D : δ → δ' → Prop) (w : World δ γ) (v : World δ' γ) : Prop where
  dice : D w.dice v.dice
  vars : w.vars = v.vars
  charged : w.charged = v.charged

omit [DiceSource δ] [DiceSource δ'] in
theorem mirrors_sameButDice (lost : δ → Prop) (D : δ → δ' → Prop) :
    Mirrors (fun w : World δ γ => lost w.dice) (SameButDice D) :=
  .of_same_vars (fun _ _ h => h.vars) (fun _ _ => id) fun _ _ _ h => ⟨h.dice, rfl, h.charged⟩

/-! ## The dice of the program itself -/

omit [Variables γ] in
/-- A forced roll asks neither dice. -/
theorem alike_roll_forced (m : Machine) (lost : δ → Prop) (D : δ → δ' → Prop)
    (count sides : Int64) :
    Alike (fun w : World δ γ => lost w.dice) (SameButDice D) (m.roll true count sides)
      (m.roll true count sides) := by
  refine alike_roll (fun w n hw => ?_) (fun _ _ h => h.charged) fun w v n h _ _ => .inr ?_
  · obtain ⟨sum?, hfaces⟩ := exists_sumFaces_forced sides n 0
    rw [after_rollGranted, hfaces]
    exact hw
  · obtain ⟨sum?, hfaces⟩ := exists_sumFaces_forced sides n 0
    refine sameOutcome_rollGranted (by rw [hfaces, hfaces]) ?_
    rw [after_rollGranted, after_rollGranted, hfaces, hfaces]
    exact ⟨h.dice, h.vars, by rw [h.charged]⟩

/-- An instruction that reads no name does not depend on how names are read. -/
theorem step_congr_load (m : Machine) (load load' : String → Eval δ γ Value) (forceMax : Bool)
    {i : Instruction} (hi : ∀ name, i ≠ .load name) (f : Frame) :
    m.step load forceMax i f = m.step load' forceMax i f := by
  cases i with
  | load name => exact absurd rfl (hi name)
  | _ => rfl

/-- With forced dice, an instruction that reads no name leaves the dice as they are. -/
theorem dice_step_forced (m : Machine) (load : String → Eval δ γ Value) {i : Instruction}
    (hi : ∀ name, i ≠ .load name) (f : Frame) (w : World δ γ) :
    (after (m.step load true i f) w).dice = w.dice := by
  rw [m.step_congr_load load (fun _ => pure .nothing) true hi f]
  -- the same step beside itself, with the dice that there were in the beginning
  let same : δ → δ → Prop := fun dice _ => dice = w.dice
  have hstep := (mirrors_sameButDice (γ := γ) (fun _ => False) same).step
    (fun _ => .pure Value.nothing) (m.alike_roll_forced (fun _ => False) same) i f
  exact (hstep.related_after ⟨rfl, rfl, rfl⟩ id).dice

/-- Reading a name leaves the surroundings as what is read for it does. -/
theorem after_step_load (m : Machine) (load : String → Eval δ γ Value) (forceMax : Bool)
    (name : String) (f : Frame) (w : World δ γ) :
    after (m.step load forceMax (.load name) f) w = after (load name) w :=
  Eval.after_bind_pure (load name) _ w

/-- With forced dice, a run leaves the dice as they are if every name that it comes to read does. -/
theorem dice_runCode_forced (m : Machine) (load : String → Eval δ γ Value)
    {code : List Instruction} {f : Frame} {w : World δ γ}
    (hreads : ∀ before name rest f' w', code = before ++ .load name :: rest →
      m.runCode load true before f w = .ok f' w' → (after (load name) w').dice = w'.dice) :
    (after (m.runCode load true code f) w).dice = w.dice := by
  induction code generalizing f w with
  | nil => rfl
  | cons i code ih =>
    have hstep : (after (m.step load true i f) w).dice = w.dice := by
      by_cases hi : ∃ name, i = .load name
      · obtain ⟨name, rfl⟩ := hi
        rw [m.after_step_load]
        exact hreads [] name code f w rfl rfl
      · exact m.dice_step_forced load (fun name hname => hi ⟨name, hname⟩) f w
    cases hrun : m.step load true i f w with
    | error fault w' =>
      rw [Eval.after_of_error hrun] at hstep
      rw [runCode, Eval.after_bind_of_error hrun, hstep]
    | ok f₁ w₁ =>
      rw [Eval.after_of_ok hrun] at hstep
      rw [runCode, Eval.after_bind_of_ok hrun, ← hstep]
      -- a name that is read later on stands behind this instruction
      refine ih fun before name rest f' w' hcode hbefore => ?_
      refine hreads (i :: before) name rest f' w' (by rw [hcode, List.cons_append]) ?_
      rwa [runCode, Eval.bind_of_ok hrun]

/-! ## Whole evaluations -/

/-- With forced dice, what is read is all that a run has from the dice. -/
theorem sameOutcome_runProgram_forced (m : Machine) {p : Program} (hp : p.forceMax = true)
    {D : δ → δ' → Prop} {load : String → Eval δ γ Value} {load' : String → Eval δ' γ Value}
    (hload : ∀ name, Alike (fun _ => False) (SameButDice D) (load name) (load' name))
    {w : World δ γ} {v : World δ' γ} (h : SameButDice D w v) :
    SameOutcome (SameButDice D) (m.runProgram load p w) (m.runProgram load' p v) := by
  have hroll := m.alike_roll_forced (γ := γ) (fun _ => False) D
  rw [← hp] at hroll
  have hrun := (mirrors_sameButDice (fun _ => False) D).runProgram hload hroll
  exact (hrun.run w v h).resolve_left id

section Unasked

variable (m : Machine) (dice : Tallied δ) (dice' : δ')

/-- More has been asked for since the dice were `dice`. -/
def Asked (now : Tallied δ) : Prop := dice.rolls < now.rolls

/-- Neither dice have been asked for anything. -/
def Unasked (now : Tallied δ) (now' : δ') : Prop := now = dice ∧ now' = dice'

omit [Variables γ] in
/-- A roll is either forced, and then it is the same for both, or the tally shows it. -/
theorem alike_roll_unasked (forceMax : Bool) (count sides : Int64) :
    Alike (fun w : World (Tallied δ) γ => Asked dice w.dice) (SameButDice (Unasked dice dice'))
      (m.roll forceMax count sides) (m.roll forceMax count sides) := by
  cases forceMax with
  | true => exact m.alike_roll_forced _ _ count sides
  | false =>
    refine alike_roll (fun w n hw => ?_) (fun _ _ h => h.charged) fun w v n h _ hn => .inl ?_
    · obtain ⟨rolled, -, hfaces⟩ := exists_sumFaces_nextFace_tallied false sides n 0 w.dice
      rw [after_rollGranted, hfaces]
      exact Nat.lt_of_lt_of_le hw (Nat.le_add_right _ _)
    · obtain ⟨rolled, ⟨-, hpos⟩, hfaces⟩ :=
        exists_sumFaces_nextFace_tallied false sides n 0 w.dice
      have hrolled : 0 < rolled := hpos rfl hn
      rw [after_rollGranted, hfaces, ← h.dice.1]
      show w.dice.rolls < w.dice.rolls + rolled
      omega

/-- An evaluation that does not ask for dice goes the same way with any dice. -/
theorem sameOutcome_evaluate_unasked (p : Program) (vars : γ) (charged : Nat)
    (h : (after (m.evaluate p) ⟨dice, vars, charged⟩).dice = dice) :
    SameOutcome (SameButDice (Unasked dice dice')) (m.evaluate p ⟨dice, vars, charged⟩)
      (m.evaluate p ⟨dice', vars, charged⟩) := by
  have hmirrors := mirrors_sameButDice (γ := γ) (Asked dice) (Unasked dice dice')
  have hrun := hmirrors.runProgram_load (m.alike_roll_unasked dice dice') p
  have hstart : SameButDice (Unasked dice dice') (⟨dice, vars, 0⟩ : World (Tallied δ) γ)
      ⟨dice', vars, 0⟩ := ⟨⟨rfl, rfl⟩, rfl, rfl⟩
  refine (hrun.run _ _ hstart).resolve_left (Nat.not_lt.mpr ?_)
  exact Nat.le_of_eq (congrArg Tallied.rolls h)

end Unasked

/-- With forced dice no instruction of the program asks for dice, unless it reads a name. So however
names are read, a run has the same value and trace or the same fault with other dice, and leaves
the same variables, if reading has the same outcome with these. And if the names that an evaluation
comes to read ask for no dice, then with any other dice it has the same outcome, and asks for
none. -/
theorem forced_dice (m : Machine) {p : Program} (hp : p.forceMax = true) :
    (∀ (load : String → Eval δ γ Value) (i : Instruction) (f : Frame) (w : World δ γ),
      (∀ name, i ≠ .load name) → (after (m.step load p.forceMax i f) w).dice = w.dice) ∧
    (∀ (D : δ → δ' → Prop) (load : String → Eval δ γ Value) (load' : String → Eval δ' γ Value),
      (∀ name, Alike (fun _ => False) (SameButDice D) (load name) (load' name)) →
      ∀ (w : World δ γ) (v : World δ' γ), SameButDice D w v →
        SameOutcome (SameButDice D) (m.runProgram load p w) (m.runProgram load' p v)) ∧
    ∀ (dice : δ) (dice' : δ') (vars : γ) (charged : Nat),
      (∀ before name rest f w, p.code.toList = before ++ .load name :: rest →
        m.runCode m.load p.forceMax before {} ⟨({ dice } : Tallied δ), vars, 0⟩ = .ok f w →
        (after (m.load name) w).dice = w.dice) →
      SameOutcome (SameButDice fun now now' => now = dice ∧ now' = dice')
        (m.evaluate p ⟨dice, vars, charged⟩) (m.evaluate p ⟨dice', vars, charged⟩) := by
  refine ⟨fun load i f w hi => ?_, fun D load load' hload w v h => ?_, ?_⟩
  · rw [hp]
    exact m.dice_step_forced load hi f w
  · exact m.sameOutcome_runProgram_forced hp hload h
  intro dice dice' vars charged hreads
  rw [hp] at hreads
  let w : World (Tallied δ) γ := ⟨{ dice }, vars, charged⟩
  have hdice : (after (m.evaluate p) w).dice = w.dice := by
    show (after (m.runProgram m.load p) { w with charged := 0 }).dice = w.dice
    unfold Machine.runProgram
    cases p.fault? with
    | some fault => rfl
    | none =>
      dsimp only
      rw [Eval.after_bind_pure, hp]
      exact m.dice_runCode_forced m.load hreads
  -- a tally shows that no dice were asked for, and then other dice would not have been either
  have htallied := m.sameOutcome_evaluate_tallied p w
  have hother := m.sameOutcome_evaluate_unasked w.dice dice' p vars charged hdice
  refine htallied.common hother fun w' v v' hv hv' => ?_
  obtain rfl := hv.untallied
  exact ⟨⟨congrArg Tallied.dice hv'.dice.1, hv'.dice.2⟩, hv'.vars, hv'.charged⟩

/-- Dice of the program itself, after a computed value without dice, and the same program where
every name is a two. -/
theorem forced_dice_bonus :
    let p : Program := ((Program.empty 8).emitAll
      [.load "hp", .markLeft, .int 3, .int 6, .dice, .binary .add, .halt]).withForceMax true
    let vars : VariableMap := (∅ : VariableMap).insert "hp" (.computed .nothing "2*5")
    let w : World ScriptedDice VariableMap := ⟨⟨[1]⟩, vars, 0⟩
    let v : World ScriptedDice VariableMap := ⟨⟨[2]⟩, vars, 0⟩
    SameOutcome (SameButDice fun _ _ => True)
        (({} : Machine).runProgram (fun _ => pure (.int 2)) p w)
        (({} : Machine).runProgram (fun _ => pure (.int 2)) p v) ∧
      SameOutcome (SameButDice fun now now' => now = ⟨[1]⟩ ∧ now' = ⟨[2]⟩)
        (({} : Machine).evaluate p w) (({} : Machine).evaluate p v) := by
  intro p vars w v
  obtain ⟨-, hrun, hevaluate⟩ :=
    @forced_dice ScriptedDice VariableMap ScriptedDice _ _ _ {} p rfl
  refine ⟨hrun _ _ _ (fun _ => .pure _) w v ⟨trivial, rfl, rfl⟩, ?_⟩
  refine hevaluate ⟨[1]⟩ ⟨[2]⟩ vars 0 ?_
  intro before name rest f w hcode hrun
  cases before with
  | nil =>
    obtain rfl : "hp" = name := Instruction.load.inj (List.cons.inj hcode).1
    obtain ⟨rfl, rfl⟩ := EStateM.Result.ok.inj hrun
    rfl
  | cons i before =>
    -- no name is read after the first one
    have hmem : Instruction.load name ∈
        [.markLeft, .int 3, .int 6, .dice, .binary .add, .halt] := by
      have htail : [.markLeft, .int 3, .int 6, .dice, .binary .add, .halt] =
        before ++ .load name :: rest := (List.cons.inj hcode).2
      rw [htail]
      exact List.mem_append_right before List.mem_cons_self
    simp at hmem

/-- The die of a computed value that the program reads is rolled as usual, so it shows what the
source of dice gives. -/
theorem not_forced_dice_of_computed :
    ¬∀ (p : Program), p.forceMax = true → ∀ (dice dice' : ScriptedDice) (vars : VariableMap),
      SameOutcome (fun w v => w.dice = dice ∧ v.dice = dice' ∧ w.vars = v.vars)
        (({} : Machine).evaluate p ⟨dice, vars, 0⟩)
        (({} : Machine).evaluate p ⟨dice', vars, 0⟩) := by
  intro hforced
  let p : Program := ((Program.empty 8).emitAll [.load "a", .halt]).withForceMax true
  let vars : VariableMap := (∅ : VariableMap).insert "a" (.computed .nothing "d6")
  have hsame := hforced p rfl ⟨[3]⟩ ⟨[5]⟩ vars
  have hthree : ({} : Machine).evaluate p (⟨⟨[3]⟩, vars, 0⟩ : World ScriptedDice VariableMap) =
    .ok ⟨.int 3, { pending := [.variable "a" 3] }⟩
      ⟨⟨[3]⟩, Variables.set vars baseVariable .nothing, 1⟩ := rfl
  have hfive : ({} : Machine).evaluate p (⟨⟨[5]⟩, vars, 0⟩ : World ScriptedDice VariableMap) =
    .ok ⟨.int 5, { pending := [.variable "a" 5] }⟩
      ⟨⟨[5]⟩, Variables.set vars baseVariable .nothing, 1⟩ := rfl
  rw [hthree, hfive] at hsame
  exact nomatch hsame

end Machine

end DiceBot
