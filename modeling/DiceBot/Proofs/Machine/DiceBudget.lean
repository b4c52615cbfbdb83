import DiceBot.Proofs.Machine.Roll

/-!
# The budget of dice

An evaluation rolls at most as many dice as its limits allow, those of all computed values and
templates that it expands included. Dice are charged before they are rolled, and a charge that is
too high is refused as a whole; since no charge is ever taken back, one roll after the other keeps
within the budget (`Machine.dice_within_budget`).
-/

namespace DiceBot

open Eval (Alike SameOutcome after)

/-- The number of dice that an instruction asks for, once it has found its operands. -/
def Instruction.diceAsked? : Instruction → List Value → Option Int64
  | .die, .int _ :: _ => some 1
  | .dice, .int _ :: .int count :: _ => some count
  | _, _ => none

namespace Machine

variable {δ γ : Type} [DiceSource δ]

/-! ## One instruction -/

section Instructions

variable [Variables γ] (m : Machine) (load : String → Eval δ γ Value) (forceMax : Bool)

/-- An instruction that asks for dice rolls them and does nothing else to the surroundings. -/
theorem step_of_diceAsked {i : Instruction} {f : Frame} {n : Int64}
    (h : i.diceAsked? f.stack = some n) :
    ∃ sides, ∃ shown : Int64 → Frame, (m.step load forceMax i f : Eval δ γ Frame) =
      m.roll forceMax n sides >>= fun sum => pure (shown sum) := by
  obtain ⟨stack, trace⟩ := f
  unfold Instruction.diceAsked? at h
  split at h
  · next sides stack' hstack =>
    obtain rfl := Option.some.inj h
    obtain rfl : stack = .int sides :: stack' := hstack
    exact ⟨sides, fun face => ⟨.int face :: stack', trace⟩, rfl⟩
  · next sides count stack' hstack =>
    obtain rfl := Option.some.inj h
    obtain rfl : stack = .int sides :: .int count :: stack' := hstack
    exact ⟨sides, fun sum => ⟨.int sum :: stack', trace.count.note (.rolled count sides sum)⟩, rfl⟩
  · exact nomatch h

/-- A dice instruction that does not come to ask for dice misses an operand or finds one of another
kind. -/
theorem step_of_diceAsked_none {i : Instruction} (hi : i = .die ∨ i = .dice) {f : Frame}
    (h : i.diceAsked? f.stack = none) :
    ∃ cause, (m.step load forceMax i f : Eval δ γ Frame) = Eval.fail cause ∧
      ∀ limit, cause ≠ .diceBudget limit := by
  obtain ⟨stack, trace⟩ := f
  rcases hi with rfl | rfl
  · match stack with
    | [] => exact ⟨_, rfl, by simp⟩
    | .int sides :: _ => exact nomatch h
    | .nothing :: _ | .text _ :: _ | .bool _ :: _ | .expression _ :: _ | .computed _ _ :: _ =>
      exact ⟨_, rfl, by simp⟩
  · match stack with
    | [] | [_] => exact ⟨_, rfl, by simp⟩
    | .int _ :: .int _ :: _ => exact nomatch h
    | _ :: .nothing :: _ | _ :: .text _ :: _ | _ :: .bool _ :: _ | _ :: .expression _ :: _
    | _ :: .computed _ _ :: _ => exact ⟨_, rfl, by simp⟩
    | .nothing :: .int _ :: _ | .text _ :: .int _ :: _ | .bool _ :: .int _ :: _
    | .expression _ :: .int _ :: _ | .computed _ _ :: .int _ :: _ => exact ⟨_, rfl, by simp⟩

variable {i : Instruction} {f : Frame} {n : Int64} {w : World δ γ}

/-- No dice are charged or rolled for a count that is not positive. -/
theorem step_of_nonpos (h : i.diceAsked? f.stack = some n) (hn : n ≤ 0) :
    ∃ f', m.step load forceMax i f w = .ok f' w := by
  obtain ⟨sides, shown, hstep⟩ := m.step_of_diceAsked load forceMax h
  rw [hstep, Eval.bind_of_ok (roll_of_nonpos hn)]
  exact ⟨shown 0, rfl⟩

/-- No die is rolled for a count that exceeds what is left. -/
theorem step_of_refused (h : i.diceAsked? f.stack = some n) (hn : 0 < n)
    (hleft : m.left w < n.toInt.toNat) :
    m.step load forceMax i f w = .error ⟨.diceBudget m.limits.diceBudget, none⟩ w := by
  obtain ⟨sides, shown, hstep⟩ := m.step_of_diceAsked load forceMax h
  rw [hstep]
  exact Eval.bind_of_error (roll_of_refused (Int64.not_le.mpr hn) hleft)

/-- Any other count is charged in full, and refused in no case. -/
theorem step_of_granted (h : i.diceAsked? f.stack = some n) (hn : 0 < n)
    (hleft : n.toInt.toNat ≤ m.left w) :
    (after (m.step load forceMax i f) w).charged = w.charged + n.toInt.toNat ∧
      ∀ limit place w', m.step load forceMax i f w ≠ .error ⟨.diceBudget limit, place⟩ w' := by
  obtain ⟨sides, shown, hstep⟩ := m.step_of_diceAsked load forceMax h
  have hroll : m.roll forceMax n sides w = rollGranted forceMax n.toInt.toNat sides w :=
    roll_of_granted (Int64.not_le.mpr hn) (Nat.not_lt.mpr hleft)
  rw [hstep]
  unfold rollGranted at hroll
  rcases hfaces : sumFaces (nextFace forceMax sides) n.toInt.toNat 0 w.dice with ⟨_ | sum, dice⟩
  · rw [hfaces] at hroll
    rw [Eval.after_bind_of_error hroll, Eval.bind_of_error hroll]
    exact ⟨rfl, fun limit place w' heq => by simp at heq⟩
  · rw [hfaces] at hroll
    rw [Eval.after_bind_of_ok hroll, Eval.bind_of_ok hroll]
    exact ⟨rfl, fun limit place w' heq => nomatch heq⟩

/-- A dice instruction is refused for the budget exactly if its count is positive and exceeds what
is left. -/
theorem step_refused_iff (hi : i = .die ∨ i = .dice) :
    (∃ limit place w', m.step load forceMax i f w = .error ⟨.diceBudget limit, place⟩ w') ↔
      ∃ n, i.diceAsked? f.stack = some n ∧ 0 < n ∧ m.left w < n.toInt.toNat := by
  constructor
  · rintro ⟨limit, place, w', hrefused⟩
    cases hasked : i.diceAsked? f.stack with
    | none =>
      obtain ⟨cause, hfail, hcause⟩ := m.step_of_diceAsked_none load forceMax hi hasked
      have hfault : (⟨cause, none⟩ : Fault) = ⟨.diceBudget limit, place⟩ := by
        rw [hfail] at hrefused
        exact (EStateM.Result.error.inj hrefused).1
      exact absurd (congrArg Fault.cause hfault) (hcause limit)
    | some n =>
      refine ⟨n, rfl, ?_⟩
      -- the other counts are not refused
      by_cases hn : n ≤ 0
      · obtain ⟨f', hok⟩ := m.step_of_nonpos load forceMax (w := w) hasked hn
        rw [hok] at hrefused
        cases hrefused
      by_cases hleft : m.left w < n.toInt.toNat
      · exact ⟨Int64.not_le.mp hn, hleft⟩
      · have hgranted := m.step_of_granted load forceMax hasked (Int64.not_le.mp hn)
          (Nat.le_of_not_lt hleft)
        exact absurd hrefused (hgranted.2 limit place w')
  · rintro ⟨n, hasked, hn, hleft⟩
    exact ⟨_, _, _, m.step_of_refused load forceMax hasked hn hleft⟩

end Instructions

/-! ## Runs and evaluations -/

/-- Two runs of which the first one keeps a tally, since they were in the surroundings `start`: the
charge has only grown, it is within the budget, and no more dice were rolled than charged. -/
structure InTally (m : Machine) (start w : World (Tallied δ) γ) (v : World δ γ) : Prop where
  untallied : w.untallied = v
  charged_mono : start.charged ≤ w.charged
  charged_le_budget : w.charged ≤ m.limits.diceBudget
  rolls_le : w.dice.rolls + start.charged ≤ start.dice.rolls + w.charged

theorem alike_roll_inTally (m : Machine) (start : World (Tallied δ) γ) (forceMax : Bool)
    (count sides : Int64) :
    Alike (fun _ => False) (m.InTally start) (m.roll forceMax count sides)
      (m.roll forceMax count sides) := by
  refine alike_roll (fun _ _ => id) (fun w v h => congrArg World.charged h.untallied)
    fun w v n h hn _ => .inr ?_
  obtain rfl := h.untallied
  have hmono := h.charged_mono
  have hbudget := h.charged_le_budget
  have hrolls := h.rolls_le
  obtain ⟨rolled, ⟨hrolled, -⟩, hfaces⟩ :=
    exists_sumFaces_nextFace_tallied forceMax sides n 0 w.dice
  refine sameOutcome_rollGranted (congrArg Prod.fst hfaces) ?_
  rw [left] at hn
  rw [after_rollGranted, after_rollGranted, hfaces]
  exact ⟨rfl, by dsimp only; omega, by dsimp only; omega, by dsimp only; omega⟩

variable [Variables γ]

omit [DiceSource δ] in
theorem mirrors_inTally (m : Machine) (start : World (Tallied δ) γ) :
    Mirrors (fun _ => False) (m.InTally start) :=
  .of_same_vars (fun w v h => congrArg World.vars h.untallied) (fun _ _ => id)
    fun w v vars h =>
      ⟨by rw [← h.untallied]; rfl, h.charged_mono, h.charged_le_budget, h.rolls_le⟩

/-- A run at any depth, of any code, charges within the budget and takes no charge back. -/
theorem charged_after_runCode (m : Machine) (levels : Nat) (forceMax : Bool)
    (code : List Instruction) (f : Frame) {w : World δ γ}
    (hw : w.charged ≤ m.limits.diceBudget) :
    w.charged ≤ (after (m.runCode (resolve (m.expand levels)) forceMax code f) w).charged ∧
      (after (m.runCode (resolve (m.expand levels)) forceMax code f) w).charged ≤
        m.limits.diceBudget := by
  let start : World (Tallied δ) γ := ⟨⟨w.dice, 0⟩, w.vars, w.charged⟩
  have hmirrors := m.mirrors_inTally start
  have hroll := m.alike_roll_inTally start
  have hrun := hmirrors.runCode (hmirrors.resolve (hmirrors.expand (hroll false) levels))
    (hroll forceMax) code f
  have hstart : m.InTally start start w := ⟨rfl, Nat.le_refl _, hw, Nat.le_refl _⟩
  have hafter := hrun.related_after hstart id
  rw [← hafter.untallied]
  exact ⟨hafter.charged_mono, hafter.charged_le_budget⟩

/-- An evaluation starts with nothing charged. -/
theorem sameOutcome_evaluate_tallied (m : Machine) (p : Program) (w : World (Tallied δ) γ) :
    SameOutcome (m.InTally { w with charged := 0 }) (m.evaluate p w)
      (m.evaluate p w.untallied) := by
  let start : World (Tallied δ) γ := { w with charged := 0 }
  have hrun := (m.mirrors_inTally start).runProgram_load (m.alike_roll_inTally start) p
  have hstart : m.InTally start start start.untallied :=
    ⟨rfl, Nat.le_refl _, Nat.zero_le _, Nat.le_refl _⟩
  exact (hrun.run start _ hstart).resolve_left id

/-- Dice are rolled within the budget. An evaluation charges at most the budget and rolls at most
the dice that it charges, whether it succeeds or fails, computed values and templates at any depth
included; the tally that shows this does not change it otherwise. In every run, at whatever depth,
the charge only grows and stays within the budget, so with a budget that is a 64-bit number it is
one too. And a dice instruction is refused exactly if its count is positive and exceeds what is
left, in which case it rolls nothing; any other positive count is charged in full, and none else.
-/
theorem dice_within_budget (m : Machine) :
    (∀ (p : Program) (w : World (Tallied δ) γ),
      SameOutcome
        (fun w' v => w'.untallied = v ∧ w'.dice.rolls ≤ w.dice.rolls + w'.charged ∧
          w'.charged ≤ m.limits.diceBudget)
        (m.evaluate p w) (m.evaluate p w.untallied)) ∧
    (∀ (levels : Nat) (forceMax : Bool) (code : List Instruction) (f : Frame) (w : World δ γ),
      w.charged ≤ m.limits.diceBudget →
      let w' := after (m.runCode (resolve (m.expand levels)) forceMax code f) w
      w.charged ≤ w'.charged ∧ w'.charged ≤ m.limits.diceBudget ∧
        (m.limits.diceBudget < UInt64.size → w'.charged < UInt64.size)) ∧
    (∀ (load : String → Eval δ γ Value) (forceMax : Bool) (i : Instruction) (f : Frame)
        (w : World δ γ), i = .die ∨ i = .dice →
      ((∃ limit place w', m.step load forceMax i f w = .error ⟨.diceBudget limit, place⟩ w') ↔
        ∃ n, i.diceAsked? f.stack = some n ∧ 0 < n ∧ m.left w < n.toInt.toNat) ∧
      ∀ n, i.diceAsked? f.stack = some n →
        (n ≤ 0 → ∃ f', m.step load forceMax i f w = .ok f' w) ∧
        (0 < n → m.left w < n.toInt.toNat →
          m.step load forceMax i f w = .error ⟨.diceBudget m.limits.diceBudget, none⟩ w) ∧
        (0 < n → n.toInt.toNat ≤ m.left w →
          (after (m.step load forceMax i f) w).charged = w.charged + n.toInt.toNat)) := by
  refine ⟨fun p w => ?_, fun levels forceMax code f w hw => ?_,
    fun load forceMax i f w hi => ⟨m.step_refused_iff load forceMax hi, fun n hasked => ?_⟩⟩
  · refine (m.sameOutcome_evaluate_tallied p w).mono fun w' v h => ?_
    have hrolls := h.rolls_le
    exact ⟨h.untallied, by dsimp only at hrolls; omega, h.charged_le_budget⟩
  · obtain ⟨hmono, hbudget⟩ := m.charged_after_runCode levels forceMax code f hw
    exact ⟨hmono, hbudget, fun hlimit => Nat.lt_of_le_of_lt hbudget hlimit⟩
  · exact ⟨m.step_of_nonpos load forceMax hasked, m.step_of_refused load forceMax hasked,
      fun hn hleft => (m.step_of_granted load forceMax hasked hn hleft).1⟩

/-- With six of ten dice charged another six are refused, and a run that asks for them charges no
more than ten. -/
theorem dice_within_budget_refused :
    (∃ limit place w', ({ limits := { diceBudget := 10 } } : Machine).step (fun _ => pure .nothing)
      false .dice ⟨[.int 6, .int 6], {}⟩
      (⟨{ faces := [3] }, ∅, 6⟩ : World ScriptedDice VariableMap) =
        .error ⟨.diceBudget limit, place⟩ w') ∧
    (after (({ limits := { diceBudget := 10 } } : Machine).runCode
      (resolve (({ limits := { diceBudget := 10 } } : Machine).expand 8)) false
      [.int 6, .int 6, .dice] {})
      (⟨{ faces := [3] }, ∅, 6⟩ : World ScriptedDice VariableMap)).charged ≤ 10 := by
  obtain ⟨-, hrun, hstep⟩ := dice_within_budget (δ := ScriptedDice) (γ := VariableMap)
    { limits := { diceBudget := 10 } }
  constructor
  · refine (hstep _ false .dice ⟨[.int 6, .int 6], {}⟩ _ (.inr rfl)).1.mpr ?_
    exact ⟨6, rfl, by decide, by decide⟩
  · exact (hrun 8 false [.int 6, .int 6, .dice] {} ⟨{ faces := [3] }, ∅, 6⟩ (by decide)).2.1

end Machine

end DiceBot
