import DiceBot.Proofs.Machine.ChainTrace

/-!
# The order of details

A detail is noted once. Then it waits, among the details pending and after a mark among those of the
left operand, until an operator prints the ones of the left operand and behind them those pending.
On the way details may be lost, as those of a left operand that is marked twice, but none is kept
once it has been printed, and none overtakes another.

Nothing of this depends on where the instructions come from. What one instruction does to a trace
(`Machine.prints_of_step`) is what a run does between any two points (`Machine.prints_of_runNoting`).
The details that have been noted at a point are those of the instructions up to there
(`Machine.runNoting`); an instruction tells its own from the stacks before and after it
(`Instruction.details`).
-/

namespace DiceBot

/-- The details that a piece of a trace lists. -/
def TracePiece.listed : TracePiece → List Detail
  | .details ds => ds
  | _ => []

namespace Trace

/-- The details in the brackets of a trace, from left to right. -/
def printed (t : Trace) : List Detail := t.shown.flatMap TracePiece.listed

/-- The details that wait, in the order in which they would be printed. -/
def waiting (t : Trace) : List Detail := t.left ++ t.pending

/-- What becomes of a trace while further details are noted: what has been printed stays, and what
is printed next and what waits then come, in this order, from what has waited and what is noted. -/
def Prints (t t' : Trace) (noted : List Detail) : Prop :=
  ∃ more, t'.printed = t.printed ++ more ∧ (more ++ t'.waiting).Sublist (t.waiting ++ noted)

@[simp] theorem flatMap_listed_bracket (ds : List Detail) :
    (bracket ds).flatMap TracePiece.listed = ds := by
  cases ds <;> simp [bracket, TracePiece.listed]

namespace Prints

variable {t t' t'' : Trace} {ds ds' : List Detail}

/-- While nothing is printed, some of what waits may be lost. -/
theorem of_printed_eq (hprinted : t'.printed = t.printed)
    (hwaiting : t'.waiting.Sublist (t.waiting ++ ds)) : Prints t t' ds :=
  ⟨[], by rw [hprinted, List.append_nil], hwaiting⟩

protected theorem refl (t : Trace) : Prints t t [] :=
  of_printed_eq rfl (by rw [List.append_nil])

theorem trans (h : Prints t t' ds) (h' : Prints t' t'' ds') : Prints t t'' (ds ++ ds') := by
  obtain ⟨more, hprinted, hwaiting⟩ := h
  obtain ⟨more', hprinted', hwaiting'⟩ := h'
  refine ⟨more ++ more', by rw [hprinted', hprinted, List.append_assoc], ?_⟩
  -- what is printed first has waited in front of all that is printed later
  have hlater : (more ++ (more' ++ t''.waiting)).Sublist (more ++ (t'.waiting ++ ds')) :=
    (List.Sublist.refl more).append hwaiting'
  have hfirst : (more ++ t'.waiting ++ ds').Sublist (t.waiting ++ ds ++ ds') :=
    hwaiting.append (List.Sublist.refl ds')
  simp only [List.append_assoc] at hlater hfirst ⊢
  exact hlater.trans hfirst

end Prints

variable (t : Trace)

theorem prints_note (d : Detail) : Prints t (t.note d) [d] :=
  .of_printed_eq rfl (by simp [waiting, note])

theorem prints_count : Prints t t.count [] := .of_printed_eq rfl (by simp [waiting, count])

/-- A mark at the bottom of the stack drops what is left of the operand marked before. -/
theorem prints_markLeft (height : Nat) : Prints t (t.markLeft height) [] := by
  unfold markLeft
  split
  · exact .of_printed_eq rfl (by simp [waiting])
  · exact .refl t

theorem prints_operator (op : Operator) (left right : Int64) (height : Nat) :
    Prints t (t.operator op left right height) [] := by
  by_cases hheight : height = 1
  · by_cases hfirst : t.operators = 0
    · -- the first operator prints no details
      refine .of_printed_eq ?_ ?_
      · simp [printed, operator, count, hheight, hfirst, TracePiece.listed]
      · simp [waiting, operator, count, hheight, hfirst]
    · refine ⟨t.waiting, ?_, ?_⟩
      · simp [printed, waiting, operator, count, hheight, hfirst, TracePiece.listed]
      · simp [waiting, operator, count, hheight, hfirst]
  · rw [operator, if_pos hheight]
    exact t.prints_count

theorem prints_readDetails (name : String) (v : Value) :
    Prints t (t.pass (v.readDetails name) 0) (v.readDetails name) :=
  .of_printed_eq rfl (by simp [waiting, pass])

end Trace

/-- The details that an instruction notes, told from the stacks before and after it: the sum of
counted dice, and the integer that is read under a name. -/
def Instruction.details : Instruction → (before after : List Value) → List Detail
  | .dice, .int sides :: .int count :: _, .int sum :: _ => [.rolled count sides sum]
  | .load name, _, v :: _ => v.readDetails name
  | _, _, _ => []

namespace Machine

variable {δ γ : Type} [DiceSource δ] [Variables γ]

section Runs

variable {m : Machine} {load : String → Eval δ γ Value} {forceMax : Bool} {w w' : World δ γ}

theorem prints_of_step {i : Instruction} {f f' : Frame}
    (h : m.step load forceMax i f w = .ok f' w') :
    Trace.Prints f.trace f'.trace (i.details f.stack f'.stack) := by
  obtain ⟨stack, t⟩ := f
  match i, stack with
  | .int _, _ | .text _, _ | .halt, _ | .swap, _ :: _ :: _ =>
    cases h
    exact .refl t
  | .swap, [] | .swap, [_] | .negate, [] | .binary _, [] | .binary _, [_] | .die, [] | .dice, []
  | .dice, [_] | .store, [] | .store, [_] => exact nomatch h
  | .markLeft, stack =>
    cases h
    exact t.prints_markLeft stack.length
  | .load name, stack =>
    rw [step_load] at h
    obtain ⟨v, -, rfl⟩ := Eval.ok_of_map h
    exact t.prints_readDetails name v
  | .negate, a :: stack =>
    rw [step_negate] at h
    obtain ⟨v, -, rfl⟩ := Eval.ok_of_map h
    exact .refl t
  | .die, a :: stack =>
    rw [step_die] at h
    obtain ⟨v, -, rfl⟩ := Eval.ok_of_map h
    exact .refl t
  | .binary op, b :: a :: stack =>
    obtain ⟨x, -, h⟩ := Eval.ok_of_ofCause_bind h
    obtain ⟨y, -, h⟩ := Eval.ok_of_ofCause_bind h
    obtain ⟨n, -, h⟩ := Eval.ok_of_ofCause_bind h
    cases h
    exact t.prints_operator op x y (stack.length + 1)
  | .dice, b :: a :: stack =>
    obtain ⟨count, hcount, h⟩ := Eval.ok_of_ofCause_bind h
    obtain ⟨sides, hsides, h⟩ := Eval.ok_of_ofCause_bind h
    obtain ⟨sum, v, -, h⟩ := Eval.ok_of_bind h
    obtain rfl := Value.eq_int_of_operand hcount
    obtain rfl := Value.eq_int_of_operand hsides
    cases h
    exact t.prints_count.trans (t.count.prints_note (.rolled count sides sum))
  | .fill template placeholders, stack =>
    simp only [step] at h
    split at h
    · exact nomatch h
    · cases h
      exact .refl t
  | .store, value :: target :: stack =>
    cases target with
    | text name =>
      rw [step_store] at h
      obtain ⟨-, -, rfl⟩ := Eval.ok_of_map h
      exact .refl t
    | _ => exact nomatch h

end Runs

/-- Runs instructions one after the other and lists all details that they note. -/
def runNoting (m : Machine) (load : String → Eval δ γ Value) (forceMax : Bool) :
    List Instruction → Frame → Eval δ γ (Frame × List Detail)
  | [], f => pure (f, [])
  | i :: code, f => do
      let f' ← m.step load forceMax i f
      let (last, ds) ← runNoting m load forceMax code f'
      pure (last, i.details f.stack f'.stack ++ ds)

/-- Listing the details changes nothing in the run. -/
theorem map_fst_runNoting (m : Machine) (load : String → Eval δ γ Value) (forceMax : Bool)
    (code : List Instruction) (f : Frame) :
    Prod.fst <$> m.runNoting load forceMax code f = m.runCode load forceMax code f := by
  induction code generalizing f with
  | nil => rfl
  | cons i code ih =>
    rw [runNoting, runCode, map_bind]
    refine bind_congr fun f' => ?_
    rw [← ih, map_bind, map_eq_pure_bind]
    exact bind_congr fun outcome => rfl

theorem prints_of_runNoting {m : Machine} {load : String → Eval δ γ Value} {forceMax : Bool}
    {code : List Instruction} {f f' : Frame} {ds : List Detail} {w w' : World δ γ}
    (h : m.runNoting load forceMax code f w = .ok (f', ds) w') :
    Trace.Prints f.trace f'.trace ds := by
  induction code generalizing f ds w with
  | nil =>
    cases h
    exact .refl _
  | cons i code ih =>
    obtain ⟨f₁, w₁, hstep, h⟩ := Eval.ok_of_bind h
    obtain ⟨⟨last, more⟩, w₂, hrest, h⟩ := Eval.ok_of_bind h
    cases h
    exact (prints_of_step hstep).trans (ih hrest)

/-- Details are printed in the order in which they are noted, and none of them twice. At every point
of a run of any instructions, be they compiled or not, what has been printed and behind it what
waits, that of the left operand first, is a subsequence of the details noted by the instructions up
to there. From there to any later point what has been printed stays as it is, and what is printed
then and what waits in the end is a subsequence of what has waited and of the details noted
between. -/
theorem details_in_order (m : Machine) (load : String → Eval δ γ Value) (forceMax : Bool) :
    (∀ code f, Prod.fst <$> m.runNoting load forceMax code f = m.runCode load forceMax code f) ∧
    ∀ before w f noted w', m.runNoting load forceMax before {} w = .ok (f, noted) w' →
      f.trace.printed.Sublist noted ∧
      (f.trace.printed ++ f.trace.left ++ f.trace.pending).Sublist noted ∧
      ∀ between f' noted' w'', m.runNoting load forceMax between f w' = .ok (f', noted') w'' →
        ∃ more, f'.trace.printed = f.trace.printed ++ more ∧
          (more ++ f'.trace.left ++ f'.trace.pending).Sublist
            (f.trace.left ++ f.trace.pending ++ noted') := by
  refine ⟨m.map_fst_runNoting load forceMax, fun before w f noted w' hbefore => ?_⟩
  obtain ⟨printed, hprinted, hkept⟩ := prints_of_runNoting hbefore
  -- nothing has been printed and nothing waits where a run starts
  have hprinted : f.trace.printed = printed := hprinted
  have hkept : (f.trace.printed ++ f.trace.waiting).Sublist noted := by rwa [hprinted]
  refine ⟨(List.sublist_append_left _ _).trans hkept, ?_, fun between f' noted' w'' hbetween => ?_⟩
  · rwa [List.append_assoc]
  · obtain ⟨more, hmore, hlater⟩ := prints_of_runNoting hbetween
    exact ⟨more, hmore, by rwa [List.append_assoc more]⟩

/-- An operand that is marked twice loses its detail, and the first operator leaves those of its
right operand to the second one. -/
theorem details_in_order_marked_twice :
    let w : World ScriptedDice VariableMap :=
      ⟨⟨[]⟩, (((∅ : VariableMap).insert "a" (.int 1)).insert "b" (.int 2)).insert "c" (.int 3), 0⟩
    let f : Frame := ⟨[.int 3],
      { shown := [.operand 1, .operator .add 2], pending := [.variable "b" 2], operators := 1 }⟩
    ({} : Machine).runNoting ({} : Machine).load false
        [.load "a", .markLeft, .markLeft, .load "b", .binary .add] {} w =
      .ok (f, [.variable "a" 1, .variable "b" 2]) w ∧
    (f.trace.printed ++ f.trace.left ++ f.trace.pending).Sublist
      [.variable "a" 1, .variable "b" 2] ∧
    ∃ f' : Frame,
      ({} : Machine).runNoting ({} : Machine).load false [.load "c", .binary .mul] f w =
        .ok (f', [.variable "c" 3]) w ∧
      f'.trace.printed.Sublist [.variable "b" 2, .variable "c" 3] ∧
      f'.trace.render = "1 + 2 * 3[b=2,c=3]" := by
  intro w f
  obtain ⟨-, hpoints⟩ := details_in_order ({} : Machine)
    (({} : Machine).load : String → Eval ScriptedDice VariableMap Value) false
  have hbefore : ({} : Machine).runNoting ({} : Machine).load false
      [.load "a", .markLeft, .markLeft, .load "b", .binary .add] {} w =
        .ok (f, [.variable "a" 1, .variable "b" 2]) w := rfl
  obtain ⟨-, hkept, hlater⟩ := hpoints _ w f _ w hbefore
  have hbetween : ({} : Machine).runNoting ({} : Machine).load false
      [.load "c", .binary .mul] f w = .ok (_, [.variable "c" 3]) w := rfl
  obtain ⟨more, hmore, hsublist⟩ := hlater _ _ _ w hbetween
  have hprinted : f.trace.printed = [] := rfl
  rw [hprinted, List.nil_append] at hmore
  rw [List.append_assoc] at hsublist
  refine ⟨hbefore, hkept, _, hbetween, ?_, by decide +kernel⟩
  rw [hmore]
  exact (List.sublist_append_left _ _).trans hsublist

end Machine

end DiceBot
