import DiceBot.Proofs.Machine.Moves

/-!
# Termination

Names may stand for computed values and templates that read each other in any circle, and a run may
change the variables that it is an expansion of. What bounds an evaluation all the same are the
instructions that are left, each of them weighed with the levels that are left where it stands
(`Machine.stepsLeft`): an expansion has as many instructions as fit into a program, and they weigh
less than the one that has read it. Every step makes this number smaller
(`Machine.stepsLeft_next_lt`), so an evaluation comes to its outcome within a number of steps that
depends on the size of its program and the limits alone (`Machine.evaluation_terminates`).
-/

namespace DiceBot

variable {δ γ : Type} [DiceSource δ] [Variables γ]

namespace Machine

variable (m : Machine)

/-! ## Steps left -/

theorem length_le_of_compile {x : Expansion} {p : Program} (h : x.compile m.code = .ok p) :
    p.code.toList.length ≤ m.code.capacity := by
  obtain ⟨e, -, rfl⟩ := Expansion.exists_of_compile_eq_ok h
  have hsize := (e.program m.code).code_size_le
  have hcapacity : (e.program m.code).capacity = m.code.capacity :=
    Program.capacity_emitAll (Program.empty m.code.capacity) _
  rw [Array.length_toList]
  omega

/-- The steps that an instruction may take with the given number of levels left. It may read a
template that comes to a computed value, so there may be two expansions, of which each is run and
gives its value back. -/
def stepsPerInstruction : Nat → Nat
  | 0 => 1
  | levels + 1 => 2 * (m.code.capacity * stepsPerInstruction levels + 1) + 1

/-- The steps that an expansion may take, entered with the given number of levels left. -/
def stepsPerExpansion : Nat → Nat
  | 0 => 0
  | levels + 1 => m.code.capacity * m.stepsPerInstruction levels + 1

/-- The steps that may follow once an expansion has come to its value. -/
def stepsAfter (levels : Nat) : Expansion → Nat
  | .computed _ _ _ => 0
  | .template _ _ => m.stepsPerExpansion levels

def levelsLeft (callers : List Caller) : Nat := m.limits.maxDepth - callers.length

/-- The steps that may still be taken once the run of the first caller's expansion has ended, or the
whole evaluation if there is no caller. -/
def stepsOfCallers : List Caller → Nat
  | [] => 1
  | c :: callers =>
      1 + m.stepsAfter (m.levelsLeft callers) c.expansion +
        c.run.code.length * m.stepsPerInstruction (m.levelsLeft callers) + stepsOfCallers callers

/-- The steps that may still be taken. -/
def stepsLeft : Stage → Nat
  | .running callers run =>
      run.code.length * m.stepsPerInstruction (m.levelsLeft callers) + m.stepsOfCallers callers
  | .finished _ => 0

theorem stepsPerInstruction_eq (levels : Nat) :
    m.stepsPerInstruction levels = 2 * m.stepsPerExpansion levels + 1 := by
  cases levels with
  | zero => rfl
  | succ levels => rfl

omit [DiceSource δ] in
/-- What an expansion may take, and what the run that has read it may take after it. -/
theorem stepsLeft_enter_le (callers : List Caller) (run : Activation) (x : Expansion)
    (w : World δ γ) :
    m.stepsLeft (m.enter callers run x w).1 ≤
      m.stepsPerExpansion (m.levelsLeft callers) + m.stepsAfter (m.levelsLeft callers) x +
        run.code.length * m.stepsPerInstruction (m.levelsLeft callers) +
        m.stepsOfCallers callers := by
  have hopens := m.opens_enter callers run x w
  generalize m.enter callers run x w = s at hopens ⊢
  cases hopens with
  | refused | malformed | spoiled => exact Nat.zero_le _
  | started hroom hcompile =>
    -- the run of the expansion has one level less, and its instructions fit into a program
    obtain ⟨levels, hlevels⟩ : ∃ levels, m.levelsLeft callers = levels + 1 :=
      ⟨m.levelsLeft callers - 1, by unfold levelsLeft; omega⟩
    have hinner : m.levelsLeft (⟨x, run⟩ :: callers) = levels := by
      unfold levelsLeft at hlevels ⊢
      rw [List.length_cons]
      omega
    have hlength := Nat.mul_le_mul_right (m.stepsPerInstruction levels)
      (m.length_le_of_compile hcompile)
    rw [stepsLeft, stepsOfCallers, hinner, hlevels, stepsPerExpansion]
    dsimp only
    omega

omit [DiceSource δ] in
/-- What a run reads leaves fewer steps than the instruction that reads it. -/
theorem stepsLeft_deliver_lt (callers : List Caller) (run : Activation) (name : String)
    (meaning : Meaning) (w : World δ γ) :
    m.stepsLeft (m.deliver callers run name meaning w).1 <
      (run.code.length + 1) * m.stepsPerInstruction (m.levelsLeft callers) +
        m.stepsOfCallers callers := by
  have hcost := m.stepsPerInstruction_eq (m.levelsLeft callers)
  rw [Nat.succ_mul]
  match meaning with
  | .value v =>
    show run.code.length * m.stepsPerInstruction (m.levelsLeft callers) +
      m.stepsOfCallers callers < _
    omega
  | .expansion x =>
    have henter := m.stepsLeft_enter_le callers run x w
    have hafter : m.stepsAfter (m.levelsLeft callers) x ≤
        m.stepsPerExpansion (m.levelsLeft callers) := by
      cases x with
      | computed name base source => exact Nat.zero_le _
      | template name text => exact Nat.le_refl _
    show m.stepsLeft (m.enter callers run x w).1 < _
    omega

omit [DiceSource δ] in
/-- The value of an expansion leaves fewer steps than its caller had. -/
theorem stepsLeft_deliver_ofResult_lt (callers : List Caller) (c : Caller) (v : Value)
    (w : World δ γ) :
    m.stepsLeft (m.deliver callers c.run c.expansion.name (.ofResult v c.expansion) w).1 <
      m.stepsOfCallers (c :: callers) := by
  obtain ⟨x, run⟩ := c
  rw [stepsOfCallers]
  dsimp only
  cases hmeaning : Meaning.ofResult v x with
  | value v' =>
    show run.code.length * m.stepsPerInstruction (m.levelsLeft callers) +
      m.stepsOfCallers callers < _
    omega
  | expansion y =>
    -- a template has come to a computed value, which comes to its value for good
    match x, v with
    | .template name text, .computed base source =>
      obtain rfl := Meaning.expansion.inj hmeaning
      have henter := m.stepsLeft_enter_le callers run (.computed name base source) w
      show m.stepsLeft (m.enter callers run (.computed name base source) w).1 < _
      simp only [stepsAfter] at henter ⊢
      omega

theorem stepsLeft_next_lt (callers : List Caller) (run : Activation) (w : World δ γ) :
    m.stepsLeft (m.next (.running callers run, w)).1 < m.stepsLeft (.running callers run) := by
  -- no instruction takes less than one step, also where no levels are left
  have hcost := m.stepsPerInstruction_eq (m.levelsLeft callers)
  have hmoves := m.moves_next callers run w
  generalize m.next (.running callers run, w) = s at hmoves ⊢
  cases hmoves with
  | ended forceMax f =>
    show 0 < 0 * m.stepsPerInstruction (m.levelsLeft []) + 1
    omega
  | returned c callers forceMax f =>
    have hresult := m.stepsLeft_deliver_ofResult_lt callers c f.result w
    exact Nat.lt_of_lt_of_le hresult (Nat.le_add_left _ _)
  | read _ forceMax name code f =>
    exact m.stepsLeft_deliver_lt callers ⟨forceMax, code, f⟩ name _ _
  | worked _ _ code =>
    show code.length * m.stepsPerInstruction (m.levelsLeft callers) + m.stepsOfCallers callers <
      (code.length + 1) * m.stepsPerInstruction (m.levelsLeft callers) + m.stepsOfCallers callers
    rw [Nat.succ_mul]
    omega
  | failed _ _ code =>
    show 0 < (code.length + 1) * m.stepsPerInstruction (m.levelsLeft callers) +
      m.stepsOfCallers callers
    rw [Nat.succ_mul]
    omega

theorem exists_finished (s : Stage × World δ γ) :
    ∃ n ≤ m.stepsLeft s.1, ∃ outcome w, m.next^[n] s = (.finished outcome, w) := by
  -- on the number of steps left, of which every step takes at least one
  induction hleft : m.stepsLeft s.1 using Nat.strongRecOn generalizing s with
  | _ left ih =>
    obtain ⟨⟨callers, run⟩ | outcome, w⟩ := s
    · have hlt : m.stepsLeft (m.next (.running callers run, w)).1 < left :=
        hleft ▸ m.stepsLeft_next_lt callers run w
      obtain ⟨n, hn, outcome, w', hfinished⟩ := ih _ hlt _ rfl
      exact ⟨n + 1, by omega, outcome, w', hfinished⟩
    · exact ⟨0, Nat.zero_le _, outcome, w, rfl⟩

theorem iterate_next_finished (n : Nat) (outcome : Except Fault Evaluation) (w : World δ γ) :
    m.next^[n] (.finished outcome, w) = (.finished outcome, w) :=
  Function.iterate_fixed rfl n

/-- The steps end in one stage. -/
theorem finished_unique {s : Stage × World δ γ} {n k : Nat}
    {outcome outcome' : Except Fault Evaluation} {w w' : World δ γ}
    (h : m.next^[n] s = (.finished outcome, w)) (h' : m.next^[k] s = (.finished outcome', w')) :
    (Stage.finished outcome, w) = (Stage.finished outcome', w') := by
  rcases Nat.le_total n k with hle | hle
  · rw [← h', ← Nat.sub_add_cancel hle, Function.iterate_add_apply, h, iterate_next_finished]
  · rw [← h, ← Nat.sub_add_cancel hle, Function.iterate_add_apply, h', iterate_next_finished]

omit [DiceSource δ] [Variables γ] in
theorem exists_ended_eq (outcome : EStateM.Result Fault (World δ γ) Evaluation) :
    ∃ result w, ended outcome = (.finished result, w) := by
  cases outcome with
  | ok e w => exact ⟨.ok e, w, rfl⟩
  | error fault w => exact ⟨.error fault, w, rfl⟩

theorem exists_iterate_eq_ended (p : Program) (w : World δ γ) :
    ∃ n ≤ p.size * m.stepsPerInstruction m.limits.maxDepth + 1,
      m.next^[n] (.start p, { w with charged := 0 }) = ended (m.evaluate p w) := by
  have hstart : m.stepsLeft (.start p) ≤
      p.size * m.stepsPerInstruction m.limits.maxDepth + 1 := by
    unfold Stage.start
    cases p.fault? with
    | some fault => exact Nat.zero_le _
    | none => exact Nat.le_of_eq rfl
  -- the bounded number of steps leads to an end, and so do those that simulate the evaluation
  obtain ⟨n, hn, outcome, w', hfinished⟩ :=
    m.exists_finished (.start p, { w with charged := 0 })
  obtain ⟨k, hk⟩ := m.leadsTo_evaluate p w
  obtain ⟨result, v, hended⟩ := exists_ended_eq (m.evaluate p w)
  rw [hended] at hk ⊢
  exact ⟨n, Nat.le_trans hn hstart, hfinished.trans (m.finished_unique hfinished hk)⟩

/-! ## Depth -/

section Depth

/-- No more runs wait than the limit allows. -/
def WithinDepth : Stage → Prop
  | .running callers _ => callers.length ≤ m.limits.maxDepth
  | .finished _ => True

variable {m}

omit [DiceSource δ] in
theorem withinDepth_enter (callers : List Caller) (run : Activation) (x : Expansion)
    (w : World δ γ) : m.WithinDepth (m.enter callers run x w).1 := by
  have hopens := m.opens_enter callers run x w
  generalize m.enter callers run x w = s at hopens ⊢
  cases hopens with
  | refused | malformed | spoiled => trivial
  | started hroom => exact hroom

omit [DiceSource δ] in
theorem withinDepth_deliver {callers : List Caller} (h : callers.length ≤ m.limits.maxDepth)
    (run : Activation) (name : String) (meaning : Meaning) (w : World δ γ) :
    m.WithinDepth (m.deliver callers run name meaning w).1 := by
  cases meaning with
  | value v => exact h
  | expansion x => exact withinDepth_enter callers run x w

theorem withinDepth_next {s : Stage × World δ γ} (h : m.WithinDepth s.1) :
    m.WithinDepth (m.next s).1 := by
  obtain ⟨⟨callers, run⟩ | outcome, w⟩ := s
  · have hmoves := m.moves_next callers run w
    generalize m.next (.running callers run, w) = s at hmoves ⊢
    cases hmoves with
    | ended => trivial
    | returned c callers => exact withinDepth_deliver (Nat.le_of_succ_le h) _ _ _ _
    | read => exact withinDepth_deliver h _ _ _ _
    | worked => exact h
    | failed => trivial
  · trivial

theorem withinDepth_iterate {s : Stage × World δ γ} (h : m.WithinDepth s.1) (n : Nat) :
    m.WithinDepth (m.next^[n] s).1 := by
  induction n generalizing s with
  | zero => exact h
  | succ n ih => exact ih (withinDepth_next h)

theorem withinDepth_start (p : Program) : m.WithinDepth (.start p) := by
  unfold Stage.start
  cases p.fault? with
  | some fault => trivial
  | none => exact Nat.zero_le _

end Depth

/-- Every evaluation ends, after a number of steps that is bounded by the size of its program and
the limits. On the way no more runs wait than the limit allows; a step fails for the limit exactly
if it reads an expansion where as many wait, and where fewer do, it starts the run of the expansion
or fails for another cause. -/
theorem evaluation_terminates (m : Machine) (p : Program) (w : World δ γ) :
    (∃ n ≤ p.size * m.stepsPerInstruction m.limits.maxDepth + 1,
      m.next^[n] (.start p, { w with charged := 0 }) = ended (m.evaluate p w)) ∧
    ∀ n callers run v,
      m.next^[n] (.start p, { w with charged := 0 }) = (.running callers run, v) →
      callers.length ≤ m.limits.maxDepth ∧
      (∀ limit, (m.next (.running callers run, v)).1.cause? = some (.nestingLimit limit) ↔
        limit = m.limits.maxDepth ∧ callers.length = m.limits.maxDepth ∧ ∃ x, run.Reads v x) ∧
      (callers.length < m.limits.maxDepth → ∀ x, run.Reads v x →
        (∃ waiting p, x.compile m.code = .ok p ∧ (m.next (.running callers run, v)).1 =
            .running (⟨x, waiting⟩ :: callers) ⟨p.forceMax, p.code.toList, {}⟩) ∨
          ∃ cause, (m.next (.running callers run, v)).1.cause? = some cause ∧
            cause.NotNesting) := by
  refine ⟨m.exists_iterate_eq_ended p w, fun n callers run v hstage => ?_⟩
  have hwithin : m.WithinDepth (m.next^[n] (.start p, { w with charged := 0 })).1 :=
    withinDepth_iterate (withinDepth_start p) n
  rw [hstage] at hwithin
  exact ⟨hwithin, fun limit => cause?_next_iff hwithin, fun hroom x => next_of_reads hroom⟩

/-- A variable that stands for itself. Its expansion is run once, and then the limit is reached. -/
theorem evaluation_terminates_circle :
    let m : Machine := { limits := { maxDepth := 1 } }
    let p : Program := (Program.empty 2).emitAll [.load "a", .halt]
    let x : Expansion := .computed "a" .nothing "a"
    let w : World ScriptedDice VariableMap :=
      ⟨⟨[]⟩, (∅ : VariableMap).insert "a" (.computed .nothing "a"), 0⟩
    let inner : Stage := .running [⟨x, ⟨false, [.halt], {}⟩⟩] ⟨false, [.load "a", .halt], {}⟩
    m.next^[1] (.start p, { w with charged := 0 }) = (inner, x.prepared w) ∧
      (m.next (inner, x.prepared w)).1.cause? = some (.nestingLimit 1) := by
  intro m p x w inner
  have hstage : m.next^[1] (.start p, { w with charged := 0 }) = (inner, x.prepared w) := rfl
  obtain ⟨-, hstages⟩ := evaluation_terminates m p w
  obtain ⟨-, hlimit, -⟩ := hstages 1 _ _ _ hstage
  exact ⟨hstage, (hlimit 1).mpr ⟨rfl, rfl, x, "a", [.halt], rfl, rfl⟩⟩

end Machine

end DiceBot
