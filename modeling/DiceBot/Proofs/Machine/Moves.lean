import DiceBot.Proofs.Machine.Preservation
import DiceBot.Proofs.Machine.Stages

/-!
# What a step does

A step from a run under way is one of five (`Machine.Moves`): the evaluation ends, the value of an
expansion is given back to the run that waits for it, a name is read, or another instruction is
carried out or fails. Where an expansion is entered it is refused if as many runs wait as the limit
allows, and otherwise its run is started unless it does not compile or its program is spoiled
(`Machine.Opens`). So the one step that fails for the limit is the reading of an expansion by a run
for which as many wait (`Machine.cause?_next_iff`).
-/

namespace DiceBot

/-- The cause is not that expansions are nested too deeply. -/
def Cause.NotNesting (cause : Cause) : Prop := ∀ limit, cause ≠ .nestingLimit limit

/-- What an instruction other than a read fails with. Nothing is said of the place. -/
inductive Fault.OfInstruction : Fault → Prop
  | underflow (mnemonic : String) : OfInstruction ⟨.stackUnderflow mnemonic, none⟩
  | mismatch (operator : String) (expected actual : ValueKind) :
      OfInstruction ⟨.typeMismatch operator expected actual, none⟩
  | byZero (operator : String) : OfInstruction ⟨.divisionByZero operator, none⟩
  | overflow (operator : String) : OfInstruction ⟨.arithmeticOverflow operator, none⟩
  | dice (limit : Nat) : OfInstruction ⟨.diceBudget limit, none⟩

theorem Fault.OfInstruction.notNesting {fault : Fault} (h : fault.OfInstruction) :
    fault.cause.NotNesting := by
  cases h <;> exact fun limit => Cause.noConfusion

theorem Fault.OfInstruction.place_eq_none {fault : Fault} (h : fault.OfInstruction) :
    fault.place = none := by
  cases h <;> rfl

theorem Program.eq_of_fault? {p : Program} {fault : Fault} (h : p.fault? = some fault) :
    fault = ⟨.programOverflow p.capacity, none⟩ := by
  unfold Program.fault? at h
  split at h
  · exact (Option.some.inj h).symm
  · exact nomatch h

theorem Program.notNesting_of_fault? {p : Program} {fault : Fault} (h : p.fault? = some fault) :
    fault.cause.NotNesting := by
  rw [Program.eq_of_fault? h]
  exact fun limit => Cause.noConfusion

theorem Expansion.notNesting_of_compile {settings : CodeSettings} {x : Expansion} {fault : Fault}
    (h : x.compile settings = .error fault) : fault.cause.NotNesting := by
  obtain ⟨message, offset, hcause⟩ := Expansion.malformed_of_compile h
  rw [hcause]
  exact fun limit => Cause.noConfusion

variable {δ γ : Type} [DiceSource δ] [Variables γ]

/-- The next instruction reads a name that stands for the expansion. -/
def Activation.Reads (run : Activation) (w : World δ γ) (x : Expansion) : Prop :=
  ∃ name code, run.code = .load name :: code ∧ (Machine.meaning name w).1 = .expansion x

namespace Machine

variable (m : Machine)

/-! ## What instructions fail with -/

section Instructions

variable {α β : Type}

/-- The computation fails as instructions do. -/
def FailsAsInstruction (x : Eval δ γ α) : Prop :=
  ∀ w fault w', x w = .error fault w' → fault.OfInstruction

namespace FailsAsInstruction

omit [DiceSource δ] [Variables γ]

theorem of_pure (a : α) : FailsAsInstruction (pure a : Eval δ γ α) := fun _ _ _ h => nomatch h

theorem of_fail {cause : Cause} (h : Fault.OfInstruction ⟨cause, none⟩) :
    FailsAsInstruction (Eval.fail cause : Eval δ γ α) := by
  intro w fault w' hfail
  obtain ⟨rfl, -⟩ := EStateM.Result.error.inj hfail
  exact h

theorem bind {x : Eval δ γ α} {f : α → Eval δ γ β} (hx : FailsAsInstruction x)
    (hf : ∀ a, FailsAsInstruction (f a)) : FailsAsInstruction (x >>= f) := by
  intro w fault w' h
  rcases Eval.error_of_bind h with hfirst | ⟨a, v, -, hsecond⟩
  · exact hx w fault w' hfirst
  · exact hf a v fault w' hsecond

theorem of_operand (operator : String) (v : Value) :
    FailsAsInstruction (Eval.ofCause (v.operand operator) : Eval δ γ Int64) := by
  cases v with
  | int n => exact .of_pure n
  | _ => exact .of_fail (.mismatch operator _ _)

theorem of_apply (op : Operator) (a b : Int64) :
    FailsAsInstruction (Eval.ofCause (op.apply a b) : Eval δ γ Int64) := by
  cases happly : op.apply a b with
  | ok n => exact .of_pure n
  | error cause =>
    rcases Operator.eq_or_eq_of_apply happly with rfl | rfl
    · exact .of_fail (.overflow op.symbol)
    · exact .of_fail (.byZero op.symbol)

end FailsAsInstruction

omit [Variables γ] in
theorem failsAsInstruction_roll (m : Machine) (forceMax : Bool) (count sides : Int64) :
    FailsAsInstruction (m.roll forceMax count sides : Eval δ γ Int64) := by
  intro w fault w' h
  by_cases hcount : count ≤ 0
  · rw [roll_of_nonpos hcount] at h
    exact nomatch h
  by_cases hleft : m.left w < count.toInt.toNat
  · rw [roll_of_refused hcount hleft] at h
    obtain ⟨rfl, -⟩ := EStateM.Result.error.inj h
    exact .dice m.limits.diceBudget
  rw [roll_of_granted hcount hleft] at h
  unfold rollGranted at h
  rcases hsum : sumFaces _ _ _ _ with ⟨_ | sum, dice⟩
  · rw [hsum] at h
    obtain ⟨rfl, -⟩ := EStateM.Result.error.inj h
    exact .overflow "d"
  · rw [hsum] at h
    exact nomatch h

theorem failsAsInstruction_step (m : Machine) (forceMax : Bool) (i : Instruction) (f : Frame) :
    FailsAsInstruction (m.step (fun _ => pure .nothing) forceMax i f : Eval δ γ Frame) := by
  obtain ⟨stack, trace⟩ := f
  -- a roll may come to the limit of dice, but only a read to that of expansions
  match i, stack with
  | .int _, _ | .text _, _ | .load _, _ | .markLeft, _ | .halt, _ | .swap, _ :: _ :: _ =>
    exact .of_pure _
  | .swap, [] | .swap, [_] | .negate, [] | .binary _, [] | .binary _, [_] | .die, [] | .dice, []
  | .dice, [_] | .store, [] | .store, [_] => exact .of_fail (.underflow _)
  | .negate, a :: stack =>
    refine (FailsAsInstruction.of_operand "-" a).bind fun x => ?_
    cases Checked.neg? x with
    | some n => exact .of_pure _
    | none => exact .of_fail (.overflow "-")
  | .binary op, b :: a :: stack =>
    refine (FailsAsInstruction.of_operand op.symbol a).bind fun x => ?_
    refine (FailsAsInstruction.of_operand op.symbol b).bind fun y => ?_
    exact (FailsAsInstruction.of_apply op x y).bind fun n => .of_pure _
  | .die, a :: stack =>
    refine (FailsAsInstruction.of_operand "d" a).bind fun sides => ?_
    exact (m.failsAsInstruction_roll forceMax 1 sides).bind fun face => .of_pure _
  | .dice, b :: a :: stack =>
    refine (FailsAsInstruction.of_operand "d" a).bind fun count => ?_
    refine (FailsAsInstruction.of_operand "d" b).bind fun sides => ?_
    exact (m.failsAsInstruction_roll forceMax count sides).bind fun sum => .of_pure _
  | .fill template placeholders, stack =>
    by_cases hshort : stack.length < placeholders.length
    · simp only [step, if_pos hshort]
      exact .of_fail (.underflow _)
    · simp only [step, if_neg hshort]
      exact .of_pure _
  | .store, value :: target :: stack =>
    cases target with
    | text name => exact fun _ _ _ h => nomatch h
    | _ => exact .of_fail (.mismatch "=" .text _)

end Instructions

/-! ## One step -/

/-- What a step from a run under way can lead to. -/
inductive Moves : List Caller → Activation → World δ γ → Stage × World δ γ → Prop
  /-- There is no instruction left, and no run waits. -/
  | ended (forceMax : Bool) (f : Frame) (w : World δ γ) :
      Moves [] ⟨forceMax, [], f⟩ w (.finished (.ok ⟨f.result, f.trace⟩), w)
  /-- There is no instruction left, and the first caller gets the result. -/
  | returned (c : Caller) (callers : List Caller) (forceMax : Bool) (f : Frame) (w : World δ γ) :
      Moves (c :: callers) ⟨forceMax, [], f⟩ w
        (m.deliver callers c.run c.expansion.name (.ofResult f.result c.expansion) w)
  /-- A name is read. -/
  | read (callers : List Caller) (forceMax : Bool) (name : String) (code : List Instruction)
      (f : Frame) (w : World δ γ) :
      Moves callers ⟨forceMax, .load name :: code, f⟩ w
        (m.deliver callers ⟨forceMax, code, f⟩ name (meaning name w).1 (meaning name w).2)
  /-- Any other instruction is carried out. -/
  | worked (callers : List Caller) (forceMax : Bool) {i : Instruction} (code : List Instruction)
      {f f' : Frame} {w w' : World δ γ} (hload : ∀ name, i ≠ .load name)
      (hstep : m.step (fun _ => pure .nothing) forceMax i f w = .ok f' w') :
      Moves callers ⟨forceMax, i :: code, f⟩ w (.running callers ⟨forceMax, code, f'⟩, w')
  /-- Any other instruction fails. -/
  | failed (callers : List Caller) (forceMax : Bool) {i : Instruction} (code : List Instruction)
      {f : Frame} {w w' : World δ γ} {fault : Fault} (hload : ∀ name, i ≠ .load name)
      (hstep : m.step (fun _ => pure .nothing) forceMax i f w = .error fault w') :
      Moves callers ⟨forceMax, i :: code, f⟩ w (.failed callers fault, w')

theorem moves_next (callers : List Caller) (run : Activation) (w : World δ γ) :
    m.Moves callers run w (m.next (.running callers run, w)) := by
  obtain ⟨forceMax, code, f⟩ := run
  match code with
  | [] =>
    match callers with
    | [] => exact .ended forceMax f w
    | c :: callers => exact .returned c callers forceMax f w
  | i :: code =>
    by_cases hi : ∃ name, i = .load name
    · obtain ⟨name, rfl⟩ := hi
      exact .read callers forceMax name code f w
    · have hload : ∀ name, i ≠ .load name := fun name heq => hi ⟨name, heq⟩
      rw [m.next_of_ne_load callers forceMax hload code f w]
      cases hstep : m.step (fun _ => pure .nothing) forceMax i f w with
      | ok f' w' => exact .worked callers forceMax code hload hstep
      | error fault w' => exact .failed callers forceMax code hload hstep

/-! ## Entering an expansion -/

/-- What entering an expansion can lead to. -/
inductive Opens (callers : List Caller) (run : Activation) (x : Expansion) (w : World δ γ) :
    Stage × World δ γ → Prop
  /-- As many runs wait as the limit allows. -/
  | refused (hfull : m.limits.maxDepth ≤ callers.length) :
      Opens callers run x w (.failed callers ⟨.nestingLimit m.limits.maxDepth, none⟩, w)
  /-- The expansion does not compile. -/
  | malformed {fault : Fault} (hroom : callers.length < m.limits.maxDepth)
      (hcompile : x.compile m.code = .error fault) :
      Opens callers run x w (.failed (⟨x, run⟩ :: callers) fault, x.prepared w)
  /-- The program of the expansion is spoiled. -/
  | spoiled {p : Program} {fault : Fault} (hroom : callers.length < m.limits.maxDepth)
      (hcompile : x.compile m.code = .ok p) (hfault : p.fault? = some fault) :
      Opens callers run x w (.failed (⟨x, run⟩ :: callers) fault, x.prepared w)
  /-- The run of the expansion is started. -/
  | started {p : Program} (hroom : callers.length < m.limits.maxDepth)
      (hcompile : x.compile m.code = .ok p) (hfault : p.fault? = none) :
      Opens callers run x w
        (.running (⟨x, run⟩ :: callers) ⟨p.forceMax, p.code.toList, {}⟩, x.prepared w)

omit [DiceSource δ] in
theorem opens_enter (callers : List Caller) (run : Activation) (x : Expansion) (w : World δ γ) :
    m.Opens callers run x w (m.enter callers run x w) := by
  unfold enter
  by_cases hroom : callers.length < m.limits.maxDepth
  · rw [if_pos hroom]
    dsimp only
    cases hcompile : x.compile m.code with
    | error fault => exact .malformed hroom hcompile
    | ok p =>
      dsimp only
      cases hfault : p.fault? with
      | some fault => exact .spoiled hroom hcompile hfault
      | none => exact .started hroom hcompile hfault
  · rw [if_neg hroom]
    exact .refused (Nat.le_of_not_lt hroom)

/-! ## The limit -/

section Limit

variable {m}

omit [DiceSource δ] in
theorem cause?_enter_iff {callers : List Caller} {run : Activation} {x : Expansion}
    {w : World δ γ} {limit : Nat} :
    (m.enter callers run x w).1.cause? = some (.nestingLimit limit) ↔
      limit = m.limits.maxDepth ∧ m.limits.maxDepth ≤ callers.length := by
  have hopens := m.opens_enter callers run x w
  generalize m.enter callers run x w = s at hopens ⊢
  -- where there is room, what fails does so for another cause
  have hother : ∀ {fault : Fault}, fault.cause.NotNesting →
      callers.length < m.limits.maxDepth →
      (some fault.cause = some (.nestingLimit limit) ↔
        limit = m.limits.maxDepth ∧ m.limits.maxDepth ≤ callers.length) := fun hcause hroom =>
    ⟨fun h => absurd (Option.some.inj h) (hcause limit),
      fun h => absurd h.2 (Nat.not_le_of_lt hroom)⟩
  cases hopens with
  | refused hfull =>
    rw [Stage.cause?_failed]
    constructor
    · intro h
      obtain rfl := Cause.nestingLimit.inj (Option.some.inj h)
      exact ⟨rfl, hfull⟩
    · rintro ⟨rfl, -⟩
      rfl
  | malformed hroom hcompile =>
    rw [Stage.cause?_failed]
    exact hother (Expansion.notNesting_of_compile hcompile) hroom
  | spoiled hroom _ hfault =>
    rw [Stage.cause?_failed]
    exact hother (Program.notNesting_of_fault? hfault) hroom
  | started hroom =>
    exact ⟨fun h => (nomatch h), fun h => absurd h.2 (Nat.not_le_of_lt hroom)⟩

omit [DiceSource δ] in
theorem cause?_deliver_iff {callers : List Caller} {run : Activation} {name : String}
    {meaning : Meaning} {w : World δ γ} {limit : Nat} :
    (m.deliver callers run name meaning w).1.cause? = some (.nestingLimit limit) ↔
      limit = m.limits.maxDepth ∧ m.limits.maxDepth ≤ callers.length ∧
        ∃ x, meaning = .expansion x := by
  cases meaning with
  | value v => exact ⟨fun h => (nomatch h), fun ⟨_, _, x, hx⟩ => nomatch hx⟩
  | expansion x =>
    rw [show m.deliver callers run name (.expansion x) w = m.enter callers run x w from rfl,
      cause?_enter_iff]
    exact ⟨fun ⟨hlimit, hfull⟩ => ⟨hlimit, hfull, x, rfl⟩, fun ⟨hlimit, hfull, _⟩ =>
      ⟨hlimit, hfull⟩⟩

/-- A step fails for the limit exactly if it reads an expansion where as many runs wait as the limit
allows. -/
theorem cause?_next_iff {callers : List Caller} (h : callers.length ≤ m.limits.maxDepth)
    {run : Activation} {w : World δ γ} {limit : Nat} :
    (m.next (.running callers run, w)).1.cause? = some (.nestingLimit limit) ↔
      limit = m.limits.maxDepth ∧ callers.length = m.limits.maxDepth ∧ ∃ x, run.Reads w x := by
  have hmoves := m.moves_next callers run w
  generalize m.next (.running callers run, w) = s at hmoves ⊢
  cases hmoves with
  | ended forceMax f =>
    constructor
    · exact fun hcause => nomatch hcause
    · rintro ⟨-, -, x, name, code, hcode, -⟩
      exact nomatch hcode
  | returned c callers forceMax f =>
    -- one run less waits once the value of the expansion is given back
    have hroom : callers.length < m.limits.maxDepth := h
    constructor
    · intro hcause
      have hfull := (cause?_deliver_iff.mp hcause).2.1
      exact absurd hfull (Nat.not_le_of_lt hroom)
    · rintro ⟨-, -, x, name, code, hcode, -⟩
      exact nomatch hcode
  | read _ forceMax name code f =>
    rw [cause?_deliver_iff]
    constructor
    · rintro ⟨hlimit, hfull, x, hx⟩
      exact ⟨hlimit, Nat.le_antisymm h hfull, x, name, code, rfl, hx⟩
    · rintro ⟨hlimit, hfull, x, name', code', hcode, hx⟩
      obtain rfl := Instruction.load.inj (List.cons.inj hcode).1
      exact ⟨hlimit, Nat.le_of_eq hfull.symm, x, hx⟩
  | worked _ _ _ hload =>
    constructor
    · exact fun hcause => nomatch hcause
    · rintro ⟨-, -, x, name, code, hcode, -⟩
      exact absurd (List.cons.inj hcode).1 (hload name)
  | failed _ forceMax _ hload hstep =>
    have hnot := (m.failsAsInstruction_step forceMax _ _ _ _ _ hstep).notNesting
    rw [Stage.cause?_failed]
    constructor
    · exact fun hcause => absurd (Option.some.inj hcause) (hnot limit)
    · rintro ⟨-, -, x, name, code, hcode, -⟩
      exact absurd (List.cons.inj hcode).1 (hload name)

/-- Where fewer runs wait than the limit allows, reading an expansion starts its run, unless its
source is no program that can be run. -/
theorem next_of_reads {callers : List Caller} (hroom : callers.length < m.limits.maxDepth)
    {run : Activation} {w : World δ γ} {x : Expansion} (h : run.Reads w x) :
    (∃ waiting p, x.compile m.code = .ok p ∧ (m.next (.running callers run, w)).1 =
        .running (⟨x, waiting⟩ :: callers) ⟨p.forceMax, p.code.toList, {}⟩) ∨
      ∃ cause, (m.next (.running callers run, w)).1.cause? = some cause ∧ cause.NotNesting := by
  obtain ⟨forceMax, code, f⟩ := run
  obtain ⟨name, code, rfl, hx⟩ := h
  have hnext : (m.next (.running callers ⟨forceMax, .load name :: code, f⟩, w)).1 =
      (m.enter callers ⟨forceMax, code, f⟩ x (meaning name w).2).1 := by
    show (m.deliver callers ⟨forceMax, code, f⟩ name (meaning name w).1 (meaning name w).2).1 = _
    rw [hx]
    rfl
  rw [hnext]
  have hopens := m.opens_enter callers ⟨forceMax, code, f⟩ x (meaning name w).2
  generalize m.enter callers ⟨forceMax, code, f⟩ x (meaning name w).2 = s at hopens ⊢
  cases hopens with
  | refused hfull => exact absurd hfull (Nat.not_le_of_lt hroom)
  | @malformed fault _ hcompile =>
    exact .inr ⟨fault.cause, Stage.cause?_failed _ _, Expansion.notNesting_of_compile hcompile⟩
  | @spoiled p fault _ _ hfault =>
    exact .inr ⟨fault.cause, Stage.cause?_failed _ _, Program.notNesting_of_fault? hfault⟩
  | @started p _ hcompile => exact .inl ⟨_, p, hcompile, rfl⟩

end Limit

end Machine

end DiceBot
