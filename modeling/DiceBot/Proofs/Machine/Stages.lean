import DiceBot.Proofs.Machine.ForcedDice
import Mathlib.Logic.Function.Iterate

/-!
# Evaluation stage by stage

An evaluation cut into single steps. A stage (`Stage`) is the run that is being carried out together
with the runs that wait for it; each of them waits at an instruction that reads a name, for the
value of the expansion that the name stands for. A step (`Machine.next`) carries out one
instruction, starts the run of an expansion, or gives the value of a run back to the one that waits.

Nothing in a stage says how many levels are left. A run is started if the runs that wait are fewer
than the limit, and that is all that keeps steps from going on for ever.

The steps lead to what an evaluation is defined to be (`Machine.leadsTo_evaluate`).
-/

namespace DiceBot

/-- A run under way: the instructions left, and what they work on. -/
structure Activation where
  forceMax : Bool
  code : List Instruction
  frame : Frame := {}

/-- A run that waits for the value of an expansion. -/
structure Caller where
  expansion : Expansion
  run : Activation

/-- How far an evaluation has come. The caller that has waited shortest comes first. -/
inductive Stage where
  | running (callers : List Caller) (run : Activation)
  | finished (outcome : Except Fault Evaluation)

/-- What a name stands for. -/
inductive Meaning where
  | value (v : Value)
  | expansion (x : Expansion)

namespace Expansion

def name : Expansion → String
  | .computed name _ _ => name
  | .template name _ => name

/-- The base of a computed value is assigned before its source is compiled. -/
def prepared {δ γ : Type} [Variables γ] (w : World δ γ) : Expansion → World δ γ
  | .computed _ base _ => { w with vars := Variables.set w.vars baseVariable base }
  | .template _ _ => w

theorem prepare_eq_ok {δ γ : Type} [Variables γ] (x : Expansion) (w : World δ γ) :
    x.prepare w = .ok () (x.prepared w) := by
  cases x with
  | computed name base source => rfl
  | template name text => rfl

end Expansion

namespace Meaning

/-- A computed value stands for an expansion, and any other value for itself. -/
def ofValue (name : String) : Value → Meaning
  | .computed base source => .expansion (.computed name base source)
  | v => .value v

/-- The value of an expansion in place of the name. What a template comes to may be a computed value
again; what a computed value comes to is left as it is. -/
def ofResult (v : Value) : Expansion → Meaning
  | .computed _ _ _ => .value v
  | .template name _ => ofValue name v

end Meaning

/-- The run goes on with the value of the name that it has read. -/
def Activation.push (run : Activation) (name : String) (v : Value) : Activation :=
  let trace := match v with
    | .int n => run.frame.trace.note (.variable name n)
    | _ => run.frame.trace
  { run with frame := ⟨v :: run.frame.stack, trace⟩ }

namespace Stage

/-- A fault ends all runs. On its way out it passes the expansions that are waited for. -/
def failed (callers : List Caller) (fault : Fault) : Stage :=
  .finished (.error (callers.foldl (fun fault c => fault.via c.expansion.frame) fault))

/-- The stage in which the evaluation of a program starts. -/
def start (p : Program) : Stage :=
  match p.fault? with
  | some fault => failed [] fault
  | none => .running [] ⟨p.forceMax, p.code.toList, {}⟩

def cause? : Stage → Option Cause
  | .finished (.error fault) => some fault.cause
  | _ => none

/-- The expansions that a fault passes are no part of its cause. -/
@[simp] theorem cause?_failed (callers : List Caller) (fault : Fault) :
    (failed callers fault).cause? = some fault.cause := by
  induction callers generalizing fault with
  | nil => rfl
  | cons c callers ih => exact ih (fault.via c.expansion.frame)

end Stage

namespace Machine

variable {δ γ : Type} [DiceSource δ] [Variables γ]

/-! ## Steps -/

/-- What a name stands for, and the surroundings after a template for it has been drawn. -/
def meaning (name : String) (w : World δ γ) : Meaning × World δ γ :=
  match Variables.get? w.vars name with
  | some v => (.ofValue name v, w)
  | none =>
      match Variables.legacy? w.vars name with
      | some n => (.value (.int n), w)
      | none =>
          match Variables.template? w.vars name with
          | (some text, vars) => (.expansion (.template name text), { w with vars })
          | (none, vars) => (.value (.text (undefinedText name)), { w with vars })

/-- Starts the run of an expansion for the run that has read it, unless too many runs wait
already. -/
def enter (m : Machine) (callers : List Caller) (run : Activation) (x : Expansion)
    (w : World δ γ) : Stage × World δ γ :=
  if callers.length < m.limits.maxDepth then
    -- the base stays assigned also if the source does not compile
    let w := x.prepared w
    match x.compile m.code with
    | .error fault => (.failed (⟨x, run⟩ :: callers) fault, w)
    | .ok p =>
        match p.fault? with
        | some fault => (.failed (⟨x, run⟩ :: callers) fault, w)
        | none => (.running (⟨x, run⟩ :: callers) ⟨p.forceMax, p.code.toList, {}⟩, w)
  else (.failed callers ⟨.nestingLimit m.limits.maxDepth, none⟩, w)

/-- Gives a run what it reads. -/
def deliver (m : Machine) (callers : List Caller) (run : Activation) (name : String) :
    Meaning → World δ γ → Stage × World δ γ
  | .value v, w => (.running callers (run.push name v), w)
  | .expansion x, w => m.enter callers run x w

/-- Goes on with the result of a computation; a fault ends the runs that wait. -/
def proceed {α : Type} (callers : List Caller) (rest : α → World δ γ → Stage × World δ γ) :
    EStateM.Result Fault (World δ γ) α → Stage × World δ γ
  | .ok a w => rest a w
  | .error fault w => (.failed callers fault, w)

/-- One step of an evaluation. -/
def next (m : Machine) : Stage × World δ γ → Stage × World δ γ
  | (.finished outcome, w) => (.finished outcome, w)
  | (.running callers run, w) =>
      match run.code with
      | .load name :: code =>
          -- the value goes on the stack at once, or when the run of the expansion has ended
          let (meaning, w) := meaning name w
          m.deliver callers { run with code } name meaning w
      | i :: code =>
          proceed callers (fun frame w => (.running callers { run with code, frame }, w))
            (m.step (fun _ => pure .nothing) run.forceMax i run.frame w)
      | [] =>
          match callers with
          | [] => (.finished (.ok ⟨run.frame.result, run.frame.trace⟩), w)
          | c :: callers =>
              m.deliver callers c.run c.expansion.name (.ofResult run.frame.result c.expansion) w

theorem next_of_ne_load (m : Machine) (callers : List Caller) (forceMax : Bool)
    {i : Instruction} (hi : ∀ name, i ≠ .load name) (code : List Instruction) (f : Frame)
    (w : World δ γ) :
    m.next (.running callers ⟨forceMax, i :: code, f⟩, w) =
      proceed callers (fun f w => (.running callers ⟨forceMax, code, f⟩, w))
        (m.step (fun _ => pure .nothing) forceMax i f w) := by
  cases i with
  | load name => exact absurd rfl (hi name)
  | _ => rfl

/-- The second stage is reached from the first one in some number of steps. -/
def LeadsTo (m : Machine) (s t : Stage × World δ γ) : Prop := ∃ n, m.next^[n] s = t

/-- The stage after an evaluation. -/
def ended : EStateM.Result Fault (World δ γ) Evaluation → Stage × World δ γ :=
  proceed [] fun e w => (.finished (.ok e), w)

omit [DiceSource δ] [Variables γ] in
theorem proceed_map {α β : Type} (callers : List Caller)
    (rest : β → World δ γ → Stage × World δ γ) (g : α → β) (x : Eval δ γ α) (w : World δ γ) :
    proceed callers rest ((g <$> x) w) = proceed callers (fun a => rest (g a)) (x w) := by
  cases hx : x w with
  | ok a w' => simp only [Functor.map, EStateM.map, hx, proceed]
  | error fault w' => simp only [Functor.map, EStateM.map, hx, proceed]

omit [DiceSource δ] [Variables γ] in
theorem proceed_inFrame {α : Type} (callers : List Caller) (run : Activation)
    (rest : α → World δ γ → Stage × World δ γ) (x : Expansion) (y : Eval δ γ α)
    (w : World δ γ) :
    proceed callers rest (Eval.inFrame x.frame y w) =
      proceed (⟨x, run⟩ :: callers) rest (y w) := by
  cases hy : y w with
  | ok a w' => simp only [Eval.inFrame, hy, proceed]
  | error fault w' =>
    simp only [Eval.inFrame, hy, proceed]
    rfl

namespace LeadsTo

variable {m : Machine} {s t u : Stage × World δ γ}

protected theorem refl (m : Machine) (s : Stage × World δ γ) : m.LeadsTo s s := ⟨0, rfl⟩

theorem trans (h : m.LeadsTo s t) (h' : m.LeadsTo t u) : m.LeadsTo s u := by
  obtain ⟨n, rfl⟩ := h
  obtain ⟨k, rfl⟩ := h'
  exact ⟨k + n, Function.iterate_add_apply _ k n s⟩

theorem of_next (h : m.LeadsTo (m.next s) t) : m.LeadsTo s t := by
  obtain ⟨n, rfl⟩ := h
  exact ⟨n + 1, rfl⟩

protected theorem bind {α β : Type} {callers : List Caller} {x : Eval δ γ α}
    {f : α → Eval δ γ β} {middle : α → World δ γ → Stage × World δ γ}
    {rest : β → World δ γ → Stage × World δ γ} {w : World δ γ}
    (h : m.LeadsTo s (proceed callers middle (x w)))
    (h' : ∀ a w', m.LeadsTo (middle a w') (proceed callers rest (f a w'))) :
    m.LeadsTo s (proceed callers rest ((x >>= f) w)) := by
  cases hx : x w with
  | ok a w' =>
    rw [hx] at h
    rw [Eval.bind_of_ok hx]
    exact h.trans (h' a w')
  | error fault w' =>
    rw [hx] at h
    rw [Eval.bind_of_error hx]
    exact h

end LeadsTo

/-! ## Reading a name -/

omit [DiceSource δ] in
theorem name_of_meaning {name : String} {w : World δ γ} {x : Expansion}
    (h : (meaning name w).1 = .expansion x) : x.name = name := by
  unfold meaning at h
  cases hget : Variables.get? w.vars name with
  | some v =>
    rw [hget] at h
    cases v with
    | computed base source => rw [← Meaning.expansion.inj h]; rfl
    | _ => exact nomatch h
  | none =>
    rw [hget] at h
    cases hlegacy : Variables.legacy? w.vars name with
    | some n =>
      rw [hlegacy] at h
      exact nomatch h
    | none =>
      rw [hlegacy] at h
      rcases htemplate : Variables.template? w.vars name with ⟨_ | text, vars⟩
      · rw [htemplate] at h
        exact nomatch h
      · rw [htemplate] at h
        rw [← Meaning.expansion.inj h]
        rfl

def valueOf (expand : Expansion → Eval δ γ Value) : Meaning → Eval δ γ Value
  | .value v => pure v
  | .expansion x => do
      let v ← expand x
      match Meaning.ofResult v x with
      | .value v => pure v
      | .expansion y => expand y

omit [DiceSource δ] [Variables γ] in
theorem valueOf_ofValue (expand : Expansion → Eval δ γ Value) (name : String) (v : Value) :
    valueOf expand (.ofValue name v) = settle expand name v := by
  cases v with
  | computed base source => exact bind_pure (expand (.computed name base source))
  | _ => rfl

omit [DiceSource δ] in
theorem resolve_eq_valueOf (expand : Expansion → Eval δ γ Value) (name : String)
    (w : World δ γ) :
    resolve expand name w = valueOf expand (meaning name w).1 (meaning name w).2 := by
  rw [resolve_eq]
  unfold meaning
  cases hget : Variables.get? w.vars name with
  | some v =>
    have hlookUp : lookUp expand name w = .ok v w := by simp only [lookUp, hget]
    rw [Eval.bind_of_ok hlookUp, ← valueOf_ofValue]
  | none =>
    cases hlegacy : Variables.legacy? w.vars name with
    | some n =>
      have hlookUp : lookUp expand name w = .ok (.int n) w := by simp only [lookUp, hget, hlegacy]
      rw [Eval.bind_of_ok hlookUp]
      rfl
    | none =>
      rcases htemplate : Variables.template? w.vars name with ⟨_ | text, vars⟩
      · have hlookUp : lookUp expand name w = .ok (.text (undefinedText name)) { w with vars } := by
          simp only [lookUp, hget, hlegacy, htemplate]
        rw [Eval.bind_of_ok hlookUp]
        rfl
      · have hlookUp : lookUp expand name w = expand (.template name text) { w with vars } := by
          simp only [lookUp, hget, hlegacy, htemplate]
        rw [Eval.bind_eq_bind hlookUp]
        -- what the template comes to is evaluated if it is a computed value
        refine congrFun (?_ : (_ >>= _ : Eval δ γ Value) = _ >>= _) _
        refine bind_congr fun v => ?_
        cases v <;> rfl

/-! ## Steps lead to the outcome -/

/-- Entering an expansion with the given number of levels left leads to its value. -/
def Simulates (δ γ : Type) [DiceSource δ] [Variables γ] (m : Machine) (levels : Nat) : Prop :=
  ∀ (callers : List Caller) (run : Activation) (x : Expansion) (w : World δ γ),
    callers.length + levels = m.limits.maxDepth →
    m.LeadsTo (m.enter callers run x w)
      (proceed callers (fun v => m.deliver callers run x.name (.ofResult v x))
        (m.expand levels x w))

section Runs

variable {m : Machine} {levels : Nat} (h : Simulates δ γ m levels) {callers : List Caller}
variable (hdepth : callers.length + levels = m.limits.maxDepth)

include h hdepth

theorem Simulates.computed (run : Activation) (name : String) (base : Value) (source : String)
    (w : World δ γ) :
    m.LeadsTo (m.enter callers run (.computed name base source) w)
      (proceed callers (fun v w' => (.running callers (run.push name v), w'))
        (m.expand levels (.computed name base source) w)) :=
  h callers run (.computed name base source) w hdepth

theorem Simulates.deliver (run : Activation) {name : String} {meaning : Meaning}
    (hname : ∀ x, meaning = .expansion x → x.name = name) (w : World δ γ) :
    m.LeadsTo (m.deliver callers run name meaning w)
      (proceed callers (fun v w' => (.running callers (run.push name v), w'))
        (valueOf (m.expand levels) meaning w)) := by
  match meaning with
  | .value v => exact .refl m _
  | .expansion (.computed name' base source) =>
    -- what a computed value comes to is not looked at again
    obtain rfl : name' = name := hname _ rfl
    have hvalue : valueOf (m.expand levels : Expansion → Eval δ γ Value)
        (.expansion (.computed name' base source)) =
          m.expand levels (.computed name' base source) := bind_pure _
    rw [hvalue]
    exact h.computed hdepth run name' base source w
  | .expansion (.template name' text) =>
    -- and what a template comes to is, so that there may be a second expansion
    obtain rfl : name' = name := hname _ rfl
    refine .bind (h callers run (.template name' text) w hdepth) fun v w' => ?_
    cases v with
    | computed base source => exact h.computed hdepth run name' base source w'
    | _ => exact .refl m _

theorem Simulates.step (forceMax : Bool) (i : Instruction) (code : List Instruction) (f : Frame)
    (w : World δ γ) :
    m.LeadsTo (.running callers ⟨forceMax, i :: code, f⟩, w)
      (proceed callers (fun f w' => (.running callers ⟨forceMax, code, f⟩, w'))
        (m.step (resolve (m.expand levels)) forceMax i f w)) := by
  apply LeadsTo.of_next
  by_cases hi : ∃ name, i = .load name
  · -- the step that reads a name may be the first one of many
    obtain ⟨name, rfl⟩ := hi
    let run : Activation := ⟨forceMax, code, f⟩
    have hread := h.deliver hdepth run
      (fun x (hx : (meaning name w).1 = .expansion x) => name_of_meaning hx) (meaning name w).2
    rw [← resolve_eq_valueOf] at hread
    have hstep : m.step (resolve (m.expand levels)) forceMax (.load name) f w =
        ((fun v => (run.push name v).frame) <$> resolve (m.expand levels) name) w := rfl
    rw [hstep, proceed_map]
    exact hread
  · have hload : ∀ name, i ≠ .load name := fun name heq => hi ⟨name, heq⟩
    let nothing : String → Eval δ γ Value := fun _ => pure .nothing
    rw [m.next_of_ne_load callers forceMax hload code f w,
      m.step_congr_load (resolve (m.expand levels)) nothing forceMax hload f]
    exact .refl m _

theorem Simulates.runCode (forceMax : Bool) (code : List Instruction) (f : Frame)
    (w : World δ γ) :
    m.LeadsTo (.running callers ⟨forceMax, code, f⟩, w)
      (proceed callers (fun f w' => (.running callers ⟨forceMax, [], f⟩, w'))
        (m.runCode (resolve (m.expand levels)) forceMax code f w)) := by
  induction code generalizing f w with
  | nil => exact .refl m _
  | cons i code ih => exact (h.step hdepth forceMax i code f w).bind ih

end Runs

theorem simulates_zero (m : Machine) : Simulates δ γ m 0 := by
  intro callers run x w hdepth
  have hfull : ¬callers.length < m.limits.maxDepth := by omega
  unfold enter
  rw [if_neg hfull]
  exact .refl m _

theorem evaluateExpansion_eq (m : Machine) (load : String → Eval δ γ Value) {x : Expansion}
    {p : Program} (hcompile : x.compile m.code = .ok p) :
    m.evaluateExpansion load x = Evaluation.value <$> m.runProgram load p := by
  unfold evaluateExpansion
  rw [hcompile]
  rfl

/-- The run of an expansion has one level less than the run that waits for it. -/
theorem Simulates.succ {m : Machine} {levels : Nat} (h : Simulates δ γ m levels) :
    Simulates δ γ m (levels + 1) := by
  intro callers run x w hdepth
  let inner : List Caller := ⟨x, run⟩ :: callers
  have hinner : inner.length + levels = m.limits.maxDepth := by
    rw [List.length_cons]
    omega
  have hroom : callers.length < m.limits.maxDepth := by omega
  rw [expand_succ, Eval.bind_of_ok (x.prepare_eq_ok w), proceed_inFrame callers run]
  unfold enter
  rw [if_pos hroom]
  dsimp only
  cases hcompile : x.compile m.code with
  | error fault =>
    unfold evaluateExpansion
    rw [hcompile]
    exact .refl m _
  | ok p =>
    rw [m.evaluateExpansion_eq _ hcompile, proceed_map]
    unfold runProgram
    dsimp only
    cases p.fault? with
    | some fault => exact .refl m _
    | none =>
      -- the run of the expansion, and then the step that gives its value back
      have hrun := h.runCode hinner p.forceMax p.code.toList {} (x.prepared w)
      exact hrun.bind fun f w' => .of_next (.refl m _)

theorem simulates (m : Machine) (levels : Nat) : Simulates δ γ m levels := by
  induction levels with
  | zero => exact simulates_zero m
  | succ levels ih => exact ih.succ

/-- The steps from the start of a program lead to the outcome of its evaluation. -/
theorem leadsTo_evaluate (m : Machine) (p : Program) (w : World δ γ) :
    m.LeadsTo (.start p, { w with charged := 0 }) (ended (m.evaluate p w)) := by
  have hevaluate : m.evaluate p w = m.runProgram m.load p { w with charged := 0 } := rfl
  rw [hevaluate]
  unfold Stage.start runProgram ended
  cases p.fault? with
  | some fault => exact .refl m _
  | none =>
    have hdepth : ([] : List Caller).length + m.limits.maxDepth = m.limits.maxDepth :=
      Nat.zero_add _
    have hsimulates : Simulates δ γ m m.limits.maxDepth := simulates m _
    have hrun := hsimulates.runCode hdepth p.forceMax p.code.toList {} { w with charged := 0 }
    exact hrun.bind fun f w' => .of_next (.refl m _)

end Machine

end DiceBot
