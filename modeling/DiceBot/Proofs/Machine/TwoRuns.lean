import DiceBot.Proofs.Machine.Expansion

/-!
# Two runs side by side

What a machine does is compared with what it does in other surroundings, perhaps with dice and
variables of another kind. `Eval.Alike lost R x y` says that from surroundings related by `R` the
computations `x` and `y` have the same result or the same fault and leave related surroundings
again, unless `x` gets lost on its way; and once lost, always lost.

There is one rule for each way in which a computation is put together, and from them one lemma for
each level of the machine: an instruction (`Mirrors.step`), a run (`Mirrors.runCode`,
`Mirrors.runProgram`), the reading of a name (`Mirrors.resolve`) and an expansion
(`Mirrors.expand`). Nothing is asked of the code that is run: it need not come from a source.
-/

namespace DiceBot

namespace Eval

variable {δ γ δ' γ' α β : Type}

/-- The surroundings that a computation leaves, whether it succeeds or fails. -/
def after (x : Eval δ γ α) (w : World δ γ) : World δ γ :=
  match x w with
  | .ok _ w' => w'
  | .error _ w' => w'

/-- Two outcomes with the same result or the same fault, in related surroundings. -/
inductive SameOutcome (R : World δ γ → World δ' γ' → Prop) :
    EStateM.Result Fault (World δ γ) α → EStateM.Result Fault (World δ' γ') α → Prop
  | ok {a : α} {w : World δ γ} {v : World δ' γ'} (h : R w v) : SameOutcome R (.ok a w) (.ok a v)
  | error {fault : Fault} {w : World δ γ} {v : World δ' γ'} (h : R w v) :
      SameOutcome R (.error fault w) (.error fault v)

theorem SameOutcome.mono {R R' : World δ γ → World δ' γ' → Prop}
    {outcome : EStateM.Result Fault (World δ γ) α} {outcome' : EStateM.Result Fault (World δ' γ') α}
    (h : SameOutcome R outcome outcome') (hR : ∀ w v, R w v → R' w v) :
    SameOutcome R' outcome outcome' := by
  cases h with
  | ok h => exact .ok (hR _ _ h)
  | error h => exact .error (hR _ _ h)

/-- Two outcomes that are both the same as a third one are the same. -/
theorem SameOutcome.common {δ'' γ'' : Type} {R : World δ γ → World δ' γ' → Prop}
    {R' : World δ γ → World δ'' γ'' → Prop} {R'' : World δ' γ' → World δ'' γ'' → Prop}
    {outcome : EStateM.Result Fault (World δ γ) α}
    {outcome' : EStateM.Result Fault (World δ' γ') α}
    {outcome'' : EStateM.Result Fault (World δ'' γ'') α}
    (h : SameOutcome R outcome outcome') (h' : SameOutcome R' outcome outcome'')
    (hR : ∀ w v v', R w v → R' w v' → R'' v v') : SameOutcome R'' outcome' outcome'' := by
  cases h with
  | ok h =>
    cases h' with
    | ok h' => exact .ok (hR _ _ _ h h')
  | error h =>
    cases h' with
    | error h' => exact .error (hR _ _ _ h h')

/-- From related surroundings the computations have the same outcome, unless the first one gets
lost. -/
structure Alike (lost : World δ γ → Prop) (R : World δ γ → World δ' γ' → Prop) (x : Eval δ γ α)
    (y : Eval δ' γ' α) : Prop where
  stays_lost : ∀ w, lost w → lost (after x w)
  run : ∀ w v, R w v → lost (after x w) ∨ SameOutcome R (x w) (y v)

section After

variable {x : Eval δ γ α} {f : α → Eval δ γ β} {w w' : World δ γ}

theorem after_of_ok {a : α} (h : x w = .ok a w') : after x w = w' := by
  rw [after, h]

theorem after_of_error {fault : Fault} (h : x w = .error fault w') : after x w = w' := by
  rw [after, h]

theorem after_congr {x' : Eval δ γ α} (h : x w = x' w) : after x w = after x' w := by
  rw [after, after, h]

theorem after_bind_of_ok {a : α} (h : x w = .ok a w') : after (x >>= f) w = after (f a) w' := by
  rw [after, bind_of_ok h, after]

theorem after_bind_of_error {fault : Fault} (h : x w = .error fault w') :
    after (x >>= f) w = w' := by
  rw [after, bind_of_error h]

/-- What is made of a result changes nothing. -/
theorem after_bind_pure (x : Eval δ γ α) (g : α → β) (w : World δ γ) :
    after (x >>= fun a => pure (g a)) w = after x w := by
  cases hx : x w with
  | ok a w' => rw [after_bind_of_ok hx, after_of_ok hx]; rfl
  | error fault w' => rw [after_bind_of_error hx, after_of_error hx]

theorem after_inFrame (frame : String) (x : Eval δ γ α) (w : World δ γ) :
    after (inFrame frame x) w = after x w := by
  cases hx : x w with
  | ok a w' => simp only [after, inFrame, hx]
  | error fault w' => simp only [after, inFrame, hx]

end After

namespace Alike

variable {lost : World δ γ → Prop} {R : World δ γ → World δ' γ' → Prop}
variable {x : Eval δ γ α} {y : Eval δ' γ' α}

protected theorem pure (a : α) : Alike lost R (pure a) (pure a) where
  stays_lost _ hw := hw
  run _ _ h := .inr (.ok h)

protected theorem throw (fault : Fault) :
    Alike lost R (throw fault : Eval δ γ α) (throw fault : Eval δ' γ' α) where
  stays_lost _ hw := hw
  run _ _ h := .inr (.error h)

protected theorem fail (cause : Cause) :
    Alike lost R (Eval.fail cause : Eval δ γ α) (Eval.fail cause : Eval δ' γ' α) := .throw _

/-- What follows needs to be alike only for a result that there is. -/
protected theorem ofExcept_bind {result : Except Fault α} {f : α → Eval δ γ β}
    {g : α → Eval δ' γ' β} (hfg : ∀ a, result = .ok a → Alike lost R (f a) (g a)) :
    Alike lost R (Eval.ofExcept result >>= f) (Eval.ofExcept result >>= g) := by
  cases result with
  | ok a => exact hfg a rfl
  | error fault => exact .throw fault

protected theorem ofCause (result : Except Cause α) :
    Alike lost R (Eval.ofCause result) (Eval.ofCause result) := by
  cases result with
  | ok a => exact .pure a
  | error cause => exact .fail cause

/-- The second parts run alike from wherever the first parts have led. -/
protected theorem bind {f : α → Eval δ γ β} {g : α → Eval δ' γ' β} (h : Alike lost R x y)
    (hfg : ∀ a, Alike lost R (f a) (g a)) : Alike lost R (x >>= f) (y >>= g) where
  stays_lost w hw := by
    have hlost := h.stays_lost w hw
    cases hx : x w with
    | ok a w' =>
      rw [after_of_ok hx] at hlost
      rw [after_bind_of_ok hx]
      exact (hfg a).stays_lost w' hlost
    | error fault w' =>
      rw [after_of_error hx] at hlost
      rwa [after_bind_of_error hx]
  run w v hR := by
    rcases h.run w v hR with hlost | hsame
    · -- what the first part has lost, the second one does not find again
      cases hx : x w with
      | ok a w' =>
        rw [after_of_ok hx] at hlost
        rw [after_bind_of_ok hx]
        exact .inl ((hfg a).stays_lost w' hlost)
      | error fault w' =>
        rw [after_of_error hx] at hlost
        rw [after_bind_of_error hx]
        exact .inl hlost
    · generalize hx : x w = outcome at hsame
      generalize hy : y v = outcome' at hsame
      cases hsame with
      | ok hR' =>
        rw [after_bind_of_ok hx, bind_of_ok hx, bind_of_ok hy]
        exact (hfg _).run _ _ hR'
      | error hR' =>
        rw [bind_of_error hx, bind_of_error hy]
        exact .inr (.error hR')

/-- The computations may look at what the relation makes the same in both surroundings. -/
protected theorem read {κ : Type} {c : World δ γ → κ} {c' : World δ' γ' → κ}
    {f : κ → Eval δ γ α} {g : κ → Eval δ' γ' α} (hc : ∀ w v, R w v → c w = c' v)
    (hfg : ∀ k, Alike lost R (f k) (g k)) :
    Alike lost R (get >>= fun w => f (c w)) (get >>= fun v => g (c' v)) where
  stays_lost w hw := (hfg (c w)).stays_lost w hw
  run w v hR := by
    rw [get_bind, get_bind, ← hc w v hR]
    exact (hfg (c w)).run w v hR

/-- A frame is added to the faults of both. -/
protected theorem inFrame (frame : String) (h : Alike lost R x y) :
    Alike lost R (Eval.inFrame frame x) (Eval.inFrame frame y) where
  stays_lost w hw := by
    rw [after_inFrame]
    exact h.stays_lost w hw
  run w v hR := by
    rw [after_inFrame]
    refine (h.run w v hR).imp_right fun hsame => ?_
    unfold Eval.inFrame
    generalize x w = outcome at hsame ⊢
    generalize y v = outcome' at hsame ⊢
    cases hsame with
    | ok hR' => exact .ok hR'
    | error hR' => exact .error hR'

/-- The surroundings after two runs that did not get lost are related. -/
theorem related_after (h : Alike lost R x y) {w : World δ γ} {v : World δ' γ'} (hR : R w v)
    (hlost : ¬lost (after x w)) : R (after x w) (after y v) := by
  have hsame := (h.run w v hR).resolve_left hlost
  unfold after
  generalize x w = outcome at hsame ⊢
  generalize y v = outcome' at hsame ⊢
  cases hsame with
  | ok hR' => exact hR'
  | error hR' => exact hR'

end Alike

end Eval

open Eval (Alike)

variable {δ γ δ' γ' : Type} [Variables γ] [Variables γ']

namespace Eval

/-- Picks a template for a name. -/
def pick (name : String) : Eval δ γ (Option String) := fun w =>
  let (text, vars) := Variables.template? w.vars name
  .ok text { w with vars }

end Eval

namespace Expansion

/-- The program of an expansion rolls its dice as usual. -/
theorem forceMax_of_compile {settings : CodeSettings} {x : Expansion} {p : Program}
    (h : x.compile settings = .ok p) : p.forceMax = false := by
  obtain ⟨e, -, rfl⟩ := exists_of_compile_eq_ok h
  exact e.forceMax_program settings

end Expansion

namespace Machine

section LookUp

variable (expand : Expansion → Eval δ γ Value) (name : String)

/-- What a name stands for if nothing is stored under it. -/
def fillPicked : Eval δ γ Value := do
  match ← Eval.pick name with
  | some text => expand (.template name text)
  | none => return .text (undefinedText name)

/-- What a name stands for, given the variable and the older record under it. -/
def standsFor : Option Value × Option Int64 → Eval δ γ Value
  | (some value, _) => pure value
  | (none, some n) => pure (.int n)
  | (none, none) => fillPicked expand name

/-- A name is looked up by what is stored under it. -/
theorem lookUp_eq : lookUp expand name =
    get >>= fun w => standsFor expand name
      (Variables.get? w.vars name, Variables.legacy? w.vars name) := by
  funext w
  rw [Eval.get_bind]
  unfold lookUp
  cases Variables.get? w.vars name with
  | some value => rfl
  | none =>
    cases Variables.legacy? w.vars name with
    | some n => rfl
    | none =>
      have hpick : Eval.pick name w = .ok (Variables.template? w.vars name).1
          { w with vars := (Variables.template? w.vars name).2 } := rfl
      rw [standsFor, fillPicked, Eval.bind_of_ok hpick]
      dsimp only
      rcases Variables.template? w.vars name with ⟨_ | text, vars⟩
      · rfl
      · rfl

end LookUp

/-- A die is rolled alike if rolls are alike. -/
theorem alike_step_die {lost : World δ γ → Prop} {R : World δ γ → World δ' γ' → Prop}
    [DiceSource δ] [DiceSource δ'] {m : Machine} (load : String → Eval δ γ Value)
    (load' : String → Eval δ' γ' Value) {forceMax : Bool}
    (hroll : ∀ count sides,
      Alike lost R (m.roll forceMax count sides) (m.roll forceMax count sides)) (f : Frame) :
    Alike lost R (m.step load forceMax .die f) (m.step load' forceMax .die f) := by
  obtain ⟨stack, trace⟩ := f
  match stack with
  | [] => exact .fail _
  | a :: stack =>
    refine (Alike.ofCause (a.operand "d")).bind fun sides => ?_
    exact (hroll 1 sides).bind fun face => .pure _

/-- Whatever is done to the variables in one of two related surroundings is done in the other. -/
structure Mirrors (lost : World δ γ → Prop) (R : World δ γ → World δ' γ' → Prop) : Prop where
  get? : ∀ w v, R w v → ∀ name, Variables.get? w.vars name = Variables.get? v.vars name
  legacy? : ∀ w v, R w v → ∀ name, Variables.legacy? w.vars name = Variables.legacy? v.vars name
  pick : ∀ name, Alike lost R (Eval.pick name) (Eval.pick name)
  assign : ∀ name value, Alike lost R (Eval.assign name value) (Eval.assign name value)

namespace Mirrors

/-- Surroundings with the same variables, where the dice and the charge may be related in any
way. -/
theorem of_same_vars {lost : World δ γ → Prop} {R : World δ γ → World δ' γ → Prop}
    (hvars : ∀ w v, R w v → w.vars = v.vars)
    (hlost : ∀ w vars, lost w → lost { w with vars })
    (hR : ∀ w v vars, R w v → R { w with vars } { v with vars }) : Mirrors lost R where
  get? w v h name := by rw [hvars w v h]
  legacy? w v h name := by rw [hvars w v h]
  pick name := by
    refine ⟨fun w hw => hlost w _ hw, fun w v h => .inr ?_⟩
    unfold Eval.pick
    rw [← hvars w v h]
    exact .ok (hR w v _ h)
  assign name value := by
    refine ⟨fun w hw => hlost w _ hw, fun w v h => .inr ?_⟩
    show Eval.SameOutcome R (.ok () { w with vars := Variables.set w.vars name value })
      (.ok () { v with vars := Variables.set v.vars name value })
    rw [← hvars w v h]
    exact .ok (hR w v _ h)

variable {lost : World δ γ → Prop} {R : World δ γ → World δ' γ' → Prop}

/-! ### Reading names -/

section Names

variable {expand : Expansion → Eval δ γ Value} {expand' : Expansion → Eval δ' γ' Value}

theorem fillPicked (h : Mirrors lost R) (hexpand : ∀ x, Alike lost R (expand x) (expand' x))
    (name : String) :
    Alike lost R (Machine.fillPicked expand name) (Machine.fillPicked expand' name) := by
  refine (h.pick name).bind fun text? => ?_
  cases text? with
  | some text => exact hexpand _
  | none => exact .pure _

theorem standsFor (h : Mirrors lost R) (hexpand : ∀ x, Alike lost R (expand x) (expand' x))
    (name : String) (stored : Option Value × Option Int64) :
    Alike lost R (Machine.standsFor expand name stored)
      (Machine.standsFor expand' name stored) := by
  match stored with
  | (some value, _) => exact .pure value
  | (none, some n) => exact .pure (Value.int n)
  | (none, none) => exact h.fillPicked hexpand name

theorem lookUp (h : Mirrors lost R) (hexpand : ∀ x, Alike lost R (expand x) (expand' x))
    (name : String) :
    Alike lost R (Machine.lookUp expand name) (Machine.lookUp expand' name) := by
  rw [lookUp_eq, lookUp_eq]
  refine .read (fun w v hR => ?_) (h.standsFor hexpand name)
  rw [h.get? w v hR, h.legacy? w v hR]

theorem resolve (h : Mirrors lost R) (hexpand : ∀ x, Alike lost R (expand x) (expand' x))
    (name : String) :
    Alike lost R (Machine.resolve expand name) (Machine.resolve expand' name) := by
  rw [resolve_eq, resolve_eq]
  refine (h.lookUp hexpand name).bind fun value => ?_
  cases value with
  | computed base source => exact hexpand _
  | _ => exact .pure _

end Names

theorem prepare (h : Mirrors lost R) (x : Expansion) : Alike lost R x.prepare x.prepare := by
  cases x with
  | computed name base source => exact h.assign baseVariable base
  | template name text => exact .pure ()

/-! ### Runs -/

variable [DiceSource δ] [DiceSource δ'] {m : Machine}
variable {load : String → Eval δ γ Value} {load' : String → Eval δ' γ' Value} {forceMax : Bool}

/-- An instruction either works on the stack alone, or it assigns, reads a name or rolls dice. -/
theorem step (h : Mirrors lost R) (hload : ∀ name, Alike lost R (load name) (load' name))
    (hroll : ∀ count sides,
      Alike lost R (m.roll forceMax count sides) (m.roll forceMax count sides))
    (i : Instruction) (f : Frame) :
    Alike lost R (m.step load forceMax i f) (m.step load' forceMax i f) := by
  obtain ⟨stack, trace⟩ := f
  unfold Machine.step
  -- the operands are checked alike, and what is left to do is alike by hypothesis
  cases i with
  | int | text | markLeft | halt => exact .pure _
  | swap =>
    match stack with
    | [] | [_] => exact .fail _
    | _ :: _ :: _ => exact .pure _
  | negate =>
    match stack with
    | [] => exact .fail _
    | a :: stack =>
      refine (Alike.ofCause (a.operand "-")).bind fun x => ?_
      cases Checked.neg? x with
      | some n => exact .pure _
      | none => exact .fail _
  | binary op =>
    match stack with
    | [] | [_] => exact .fail _
    | b :: a :: stack =>
      refine (Alike.ofCause (a.operand op.symbol)).bind fun x => ?_
      refine (Alike.ofCause (b.operand op.symbol)).bind fun y => ?_
      exact (Alike.ofCause (op.apply x y)).bind fun n => .pure _
  | die => exact alike_step_die load load' hroll ⟨stack, trace⟩
  | dice =>
    match stack with
    | [] | [_] => exact .fail _
    | b :: a :: stack =>
      refine (Alike.ofCause (a.operand "d")).bind fun count => ?_
      refine (Alike.ofCause (b.operand "d")).bind fun sides => ?_
      exact (hroll count sides).bind fun sum => .pure _
  | load name => exact (hload name).bind fun value => .pure _
  | fill template placeholders =>
    dsimp only
    split
    · exact .fail _
    · exact .pure _
  | store =>
    match stack with
    | [] | [_] => exact .fail _
    | value :: .text name :: stack => exact (h.assign name value).bind fun _ => .pure _
    | _ :: .nothing :: _ | _ :: .int _ :: _ | _ :: .bool _ :: _ | _ :: .expression _ :: _
    | _ :: .computed _ _ :: _ => exact .fail _

theorem runCode (h : Mirrors lost R) (hload : ∀ name, Alike lost R (load name) (load' name))
    (hroll : ∀ count sides,
      Alike lost R (m.roll forceMax count sides) (m.roll forceMax count sides))
    (code : List Instruction) (f : Frame) :
    Alike lost R (m.runCode load forceMax code f) (m.runCode load' forceMax code f) := by
  induction code generalizing f with
  | nil => exact .pure f
  | cons i code ih => exact (h.step hload hroll i f).bind ih

theorem runProgram (h : Mirrors lost R) {p : Program}
    (hload : ∀ name, Alike lost R (load name) (load' name))
    (hroll : ∀ count sides,
      Alike lost R (m.roll p.forceMax count sides) (m.roll p.forceMax count sides)) :
    Alike lost R (m.runProgram load p) (m.runProgram load' p) := by
  unfold Machine.runProgram
  cases p.fault? with
  | some fault => exact .throw fault
  | none => exact (h.runCode hload hroll _ _).bind fun f => .pure _

/-! ### Expansions -/

/-- What is expanded has been compiled, so its dice are not forced. -/
theorem expand (h : Mirrors lost R)
    (hroll : ∀ count sides, Alike lost R (m.roll false count sides) (m.roll false count sides))
    (levels : Nat) (x : Expansion) : Alike lost R (m.expand levels x) (m.expand levels x) := by
  -- by induction on the levels: the names read inside have one level less
  induction levels generalizing x with
  | zero => exact .fail _
  | succ levels ih =>
    rw [expand_succ, expand_succ]
    refine (h.prepare x).bind fun _ => .inFrame x.frame ?_
    refine .ofExcept_bind fun p hp => ?_
    have hload : ∀ name, Alike lost R (Machine.resolve (m.expand levels) name)
        (Machine.resolve (m.expand levels) name) := h.resolve ih
    have hforce : p.forceMax = false := x.forceMax_of_compile hp
    rw [← hforce] at hroll
    exact (h.runProgram hload hroll).bind fun result => .pure result.value

/-- Outside all expansions. -/
theorem runProgram_load (h : Mirrors lost R)
    (hroll : ∀ forceMax count sides,
      Alike lost R (m.roll forceMax count sides) (m.roll forceMax count sides)) (p : Program) :
    Alike lost R (m.runProgram m.load p) (m.runProgram m.load p) :=
  h.runProgram (h.resolve (h.expand (hroll false) m.limits.maxDepth)) (hroll p.forceMax)

end Mirrors

end Machine

end DiceBot
