import DiceBot.Proofs.Machine.Effects
import DiceBot.Proofs.Machine.Moves

/-!
# Plain stacks

A computed value is never on a stack. It is evaluated where it is read, and what it is evaluated to
is the value that a run leaves, so that of a stack without computed values again. This holds of all
runs under way at once, those that wait included (`Stage.Plain`), and every step keeps it
(`Machine.plain_next`). So no evaluation comes to a computed value, and no assignment of an
instruction stores one, whatever the variables hold (`Machine.stacks_stay_plain`).
-/

namespace DiceBot

open Eval (Ensures Plain)

/-! ## Values, frames and stages -/

/-- No value on the stack is a computed one. -/
def Frame.Plain (f : Frame) : Prop := ∀ v ∈ f.stack, v.isComputed = false

/-- What the stack has at its bottom is plain, and so is what an empty one stands for. -/
theorem Frame.Plain.result {f : Frame} (h : f.Plain) : f.result.isComputed = false := by
  unfold Frame.result
  cases hlast : f.stack.getLast? with
  | none => rfl
  | some v => exact h v (List.mem_of_getLast? hlast)

namespace Meaning

/-- If it is a value, this is no computed one. -/
def Plain : Meaning → Prop
  | .value v => v.isComputed = false
  | .expansion _ => True

theorem plain_ofValue (name : String) (v : Value) : (ofValue name v).Plain := by
  cases v with
  | computed base source => trivial
  | _ => rfl

/-- What a computed value comes to is not looked at again, so it has to be plain already. -/
theorem plain_ofResult {v : Value} (hv : v.isComputed = false) (x : Expansion) :
    (ofResult v x).Plain := by
  cases x with
  | computed name base source => exact hv
  | template name text => exact plain_ofValue name v

end Meaning

namespace Stage

/-- No computed value is on the stack of a run, whether under way or waiting, nor is it what the
evaluation has come to. -/
def Plain : Stage → Prop
  | .running callers run => run.frame.Plain ∧ ∀ c ∈ callers, c.run.frame.Plain
  | .finished (.ok e) => e.value.isComputed = false
  | .finished (.error _) => True

theorem plain_failed (callers : List Caller) (fault : Fault) : (failed callers fault).Plain :=
  trivial

theorem plain_start (p : Program) : (start p).Plain := by
  unfold start
  cases p.fault? with
  | some fault => exact plain_failed [] fault
  | none => exact ⟨nofun, nofun⟩

end Stage

namespace Machine

variable {δ γ : Type} [DiceSource δ] [Variables γ] (m : Machine)

/-! ## One instruction -/

/-- If only plain values are read, an instruction leaves only plain values on the stack. -/
theorem plain_stepStack {load : String → Eval δ γ Value}
    (hload : ∀ name, Plain (fun _ => True) (load name)) (forceMax : Bool) (i : Instruction)
    {stack : List Value} (h : ∀ v ∈ stack, v.isComputed = false) :
    Ensures (fun _ => True) (fun _ => True) (fun stack' => ∀ v ∈ stack', v.isComputed = false)
      (m.stepStack load forceMax i stack) := by
  have hroll : ∀ count sides, Eval.Respects (fun _ : World δ γ => True)
      (m.roll forceMax count sides) :=
    m.ensures_roll_of_vars (P := fun _ => True) (fun _ _ => trivial) forceMax
  -- the result goes on top of what the operands have left
  have hpush : ∀ {x : Eval δ γ Value} {below : List Value}, Plain (fun _ => True) x →
      (∀ v ∈ below, v.isComputed = false) →
      Ensures (fun _ => True) (fun _ => True) (fun stack' => ∀ v ∈ stack', v.isComputed = false)
        ((· :: below) <$> x) := fun hx hbelow =>
    Ensures.map_iff.mpr (hx.mono (fun _ => id) fun _ hv => List.forall_mem_cons.mpr ⟨hv, hbelow⟩)
  match i, stack with
  | .swap, [] | .swap, [_] | .binary _, [] | .binary _, [_] | .dice, [] | .dice, [_]
  | .negate, [] | .die, [] | .store, [] | .store, [_] =>
    exact Ensures.map_iff.mpr (.fail trivial)
  | .int _, stack | .text _, stack => exact .pure (List.forall_mem_cons.mpr ⟨rfl, h⟩)
  | .markLeft, stack | .halt, stack => exact .pure h
  | .swap, b :: a :: stack =>
    obtain ⟨hb, ha, hstack⟩ : _ ∧ _ ∧ _ := by simpa only [List.forall_mem_cons] using h
    exact .pure (by simpa only [List.forall_mem_cons] using ⟨ha, hb, hstack⟩)
  | .negate, a :: stack =>
    rw [stepStack_negate]
    exact hpush a.plain_negated (List.forall_mem_cons.mp h).2
  | .binary op, b :: a :: stack =>
    rw [stepStack_binary]
    exact hpush (Value.plain_combined op a b)
      (List.forall_mem_cons.mp (List.forall_mem_cons.mp h).2).2
  | .die, a :: stack =>
    rw [stepStack_die]
    exact hpush (a.plain_rolledDie (hroll 1)) (List.forall_mem_cons.mp h).2
  | .dice, b :: a :: stack =>
    rw [stepStack_dice]
    exact hpush (a.plain_rolledDice hroll b)
      (List.forall_mem_cons.mp (List.forall_mem_cons.mp h).2).2
  | .load name, stack =>
    rw [stepStack_load]
    exact hpush (hload name) h
  | .fill template placeholders, stack =>
    by_cases hshort : stack.length < placeholders.length
    · simp only [stepStack, step, if_pos hshort]
      exact Ensures.map_iff.mpr (.fail trivial)
    · simp only [stepStack, step, if_neg hshort, map_pure]
      exact .pure (List.forall_mem_cons.mpr ⟨rfl, fun v hv => h v (List.mem_of_mem_drop hv)⟩)
  | .store, value :: target :: stack =>
    obtain ⟨hvalue, -, hstack⟩ : _ ∧ _ ∧ _ := by simpa only [List.forall_mem_cons] using h
    cases target with
    | text name =>
      rw [stepStack_store]
      have hassign : Eval.Respects (fun _ : World δ γ => True) (Eval.assign name value) :=
        .modify fun _ _ => trivial
      exact hassign.bind fun _ _ => .pure (List.forall_mem_cons.mpr ⟨hvalue, hstack⟩)
    | _ => exact Ensures.map_iff.mpr (.fail trivial)

/-- In a step that reads no name what a name is read as does not matter. -/
theorem plain_of_step {forceMax : Bool} {i : Instruction} {f f' : Frame} {w w' : World δ γ}
    (hstep : m.step (fun _ => pure .nothing) forceMax i f w = .ok f' w') (h : f.Plain) :
    f'.Plain := by
  have hnothing : ∀ name : String, Plain (fun _ : World δ γ => True)
      ((fun _ => pure .nothing : String → Eval δ γ Value) name) := fun _ => .pure rfl
  have hstack := m.plain_stepStack hnothing forceMax i h
  rw [← map_stack_step, Ensures.map_iff] at hstack
  exact (hstack.of_ok trivial hstep).2

/-! ## One step -/

omit [DiceSource δ] in
theorem plain_meaning (name : String) (w : World δ γ) : (meaning name w).1.Plain := by
  unfold meaning
  cases Variables.get? w.vars name with
  | some v => exact Meaning.plain_ofValue name v
  | none =>
    dsimp only
    cases Variables.legacy? w.vars name with
    | some n => rfl
    | none =>
      dsimp only
      rcases Variables.template? w.vars name with ⟨_ | text, vars⟩
      · rfl
      · trivial

section Step

variable {m} {callers : List Caller} {run : Activation}
variable (hcallers : ∀ c ∈ callers, c.run.frame.Plain) (hrun : run.frame.Plain)

include hcallers hrun

omit [DiceSource δ] in
/-- The run of an expansion starts with nothing on its stack. -/
theorem plain_enter (x : Expansion) (w : World δ γ) : (m.enter callers run x w).1.Plain := by
  have hopens := m.opens_enter callers run x w
  generalize m.enter callers run x w = s at hopens ⊢
  cases hopens with
  | refused | malformed | spoiled => exact Stage.plain_failed _ _
  | started => exact ⟨nofun, List.forall_mem_cons.mpr ⟨hrun, hcallers⟩⟩

omit [DiceSource δ] in
theorem plain_deliver (name : String) {meaning : Meaning} (hmeaning : meaning.Plain)
    (w : World δ γ) : (m.deliver callers run name meaning w).1.Plain := by
  cases meaning with
  | value v => exact ⟨List.forall_mem_cons.mpr ⟨hmeaning, hrun⟩, hcallers⟩
  | expansion x => exact plain_enter hcallers hrun x w

end Step

variable {m}

theorem plain_next {s : Stage × World δ γ} (h : s.1.Plain) : (m.next s).1.Plain := by
  obtain ⟨⟨callers, run⟩ | outcome, w⟩ := s
  · obtain ⟨hrun, hcallers⟩ := h
    have hmoves := m.moves_next callers run w
    generalize m.next (.running callers run, w) = s at hmoves ⊢
    cases hmoves with
    | ended forceMax f => exact Frame.Plain.result hrun
    | returned c callers forceMax f =>
      obtain ⟨hcaller, hcallers⟩ := List.forall_mem_cons.mp hcallers
      exact plain_deliver hcallers hcaller _ (Meaning.plain_ofResult (Frame.Plain.result hrun) _) w
    | read _ forceMax name code f =>
      have hrest : (Activation.mk forceMax code f).frame.Plain := hrun
      exact plain_deliver hcallers hrest name (plain_meaning name w) _
    | worked _ _ _ _ hstep => exact ⟨m.plain_of_step hstep hrun, hcallers⟩
    | failed => exact Stage.plain_failed _ _
  · exact h

theorem plain_iterate {s : Stage × World δ γ} (h : s.1.Plain) (n : Nat) :
    (m.next^[n] s).1.Plain := by
  induction n generalizing s with
  | zero => exact h
  | succ n ih => exact ih (plain_next h)

/-! ## Evaluations -/

/-- An assignment finds a value and under it a name, and sets the variable of that name; or it fails
and sets none. -/
theorem next_of_store (callers : List Caller) (forceMax : Bool) (code : List Instruction)
    (f : Frame) (w : World δ γ) :
    (∃ fault, m.next (.running callers ⟨forceMax, .store :: code, f⟩, w) =
      (.failed callers fault, w)) ∨
    ∃ value name stack, f.stack = value :: .text name :: stack ∧
      m.next (.running callers ⟨forceMax, .store :: code, f⟩, w) =
        (.running callers ⟨forceMax, code, { f with stack := value :: stack }⟩,
          { w with vars := Variables.set w.vars name value }) := by
  obtain ⟨stack, trace⟩ := f
  match stack with
  | [] | [_] => exact .inl ⟨_, rfl⟩
  | value :: target :: stack =>
    cases target with
    | text name => exact .inr ⟨value, name, stack, rfl, rfl⟩
    | _ => exact .inl ⟨_, rfl⟩

/-- At every point of an evaluation the stacks of all runs hold plain values only: that of the run
under way and those of the runs that wait for an expansion. So an assignment that does not fail sets
a variable to a plain value, and what the evaluation comes to is one, to which the steps lead. -/
theorem stacks_stay_plain (m : Machine) (p : Program) (w : World δ γ) :
    (∀ n callers run v,
      m.next^[n] (.start p, { w with charged := 0 }) = (.running callers run, v) →
      (∀ value ∈ run.frame.stack, value.isComputed = false) ∧
      (∀ c ∈ callers, ∀ value ∈ c.run.frame.stack, value.isComputed = false) ∧
      ∀ code, run.code = .store :: code →
        (∃ fault, m.next (.running callers run, v) = (.failed callers fault, v)) ∨
        ∃ value name, value.isComputed = false ∧
          (m.next (.running callers run, v)).2 =
            { v with vars := Variables.set v.vars name value }) ∧
    (∃ n, m.next^[n] (.start p, { w with charged := 0 }) = ended (m.evaluate p w)) ∧
    ∀ e w', m.evaluate p w = .ok e w' → e.value.isComputed = false := by
  have hstart : ∀ n, (m.next^[n] (.start p, { w with charged := 0 })).1.Plain :=
    plain_iterate (Stage.plain_start p)
  refine ⟨fun n callers run v hstage => ?_, m.leadsTo_evaluate p w, fun e w' hevaluate => ?_⟩
  · have hplain := hstart n
    rw [hstage] at hplain
    obtain ⟨hrun, hcallers⟩ := hplain
    refine ⟨hrun, hcallers, fun code hcode => ?_⟩
    obtain ⟨forceMax, _, f⟩ := run
    obtain rfl : _ = Instruction.store :: code := hcode
    rcases next_of_store (m := m) callers forceMax code f v with
      hfails | ⟨value, name, stack, hstack, hnext⟩
    · exact .inl hfails
    · exact .inr ⟨value, name, hrun value (by rw [hstack]; exact List.mem_cons_self),
        congrArg Prod.snd hnext⟩
  · obtain ⟨n, hn⟩ := m.leadsTo_evaluate p w
    have hplain := hstart n
    rw [hn, hevaluate] at hplain
    exact hplain

/-- A computed value whose base is computed as well, and which is read and assigned. After four
steps the run of the base is under way, and two runs wait. -/
theorem stacks_stay_plain_base :
    let base : Value := .computed .nothing "2"
    let p : Program := (Program.empty 4).emitAll [.text "x", .load "a", .store, .halt]
    let w : World ScriptedDice VariableMap :=
      ⟨⟨[]⟩, (∅ : VariableMap).insert "a" (.computed base "$tVal"), 0⟩
    let m : Machine := {}
    (∃ callers run v, m.next^[4] (.start p, { w with charged := 0 }) = (.running callers run, v) ∧
      callers.length = 2 ∧ run.frame.stack = [.int 2] ∧
      ∀ value ∈ run.frame.stack, value.isComputed = false) ∧
    ∃ e w', m.evaluate p w = .ok e w' ∧ e.value.isComputed = false := by
  intro base p w m
  let outer : Caller := ⟨.computed "a" base "$tVal", ⟨false, [.store, .halt], ⟨[.text "x"], {}⟩⟩⟩
  let inner : Caller := ⟨.computed "$tVal" .nothing "2", ⟨false, [.halt], {}⟩⟩
  let run : Activation := ⟨false, [.halt], ⟨[.int 2], {}⟩⟩
  have hstage : (m.next^[4] (.start p, { w with charged := 0 })).1 =
      .running [inner, outer] run := rfl
  obtain ⟨hstages, -, hvalue⟩ := stacks_stay_plain m p w
  obtain ⟨hplain, -⟩ := hstages 4 [inner, outer] run _ (Prod.ext hstage rfl)
  have hevaluate : ∃ e w', m.evaluate p w = .ok e w' := ⟨⟨.int 2, _⟩, _, rfl⟩
  obtain ⟨e, w', hok⟩ := hevaluate
  exact ⟨⟨[inner, outer], run, _, Prod.ext hstage rfl, rfl, rfl, hplain⟩,
    e, w', hok, hvalue e w' hok⟩

end Machine

end DiceBot
