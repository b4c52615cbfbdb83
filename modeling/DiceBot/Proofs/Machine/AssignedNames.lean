import DiceBot.Proofs.Code.Targets
import DiceBot.Proofs.Machine.Effects
import DiceBot.Proofs.Machine.Frames
import DiceBot.Proofs.Machine.StackSafety

/-!
# Names that are not assigned

An evaluation changes no variables but those that are assigned to in its source, or in a source that
it comes to expand, and `$tVal`, which is changed by expanding computed values
(`Machine.evaluate_frame`). Which sources these are shows only when the evaluation is carried out
(`Machine.Expands`).

The run that is carried out, and all runs that wait, are confined: the texts that their code has put
on the stack are still where the marks of the code say, so that an assignment finds the name from
the code under its value. This is kept by every step (`Machine.contained_next`), as long as the
expansions that are entered assign to allowed names only. With it goes any property of the variables
that assignments to allowed names keep (`Insulated`).
-/

namespace DiceBot

open Eval (Ensures Respects after)

variable {δ γ : Type} [DiceSource δ] [Variables γ]

/-- A property of the variables that is kept when an allowed name is assigned to, and when a
template is drawn. -/
structure Insulated (P : γ → Prop) (allowed : String → Prop) : Prop where
  assign : ∀ vars name value, allowed name → P vars → P (Variables.set vars name value)
  draw : ∀ vars name, P vars → P (Variables.template? vars name).2

variable {P : γ → Prop} {allowed : String → Prop}

namespace Machine

/-! ## Instructions -/

/-- Only an assignment changes variables. -/
theorem respects_step_of_ne_store (m : Machine) (forceMax : Bool) {i : Instruction}
    (hi : i ≠ .store) (f : Frame) :
    Respects (fun w : World δ γ => P w.vars)
      (m.step (fun _ => pure .nothing) forceMax i f) := by
  obtain ⟨stack, trace⟩ := f
  -- all but an assignment work on the stack and the dice
  have hroll : ∀ count sides, Respects (fun w : World δ γ => P w.vars)
      (m.roll forceMax count sides) :=
    m.ensures_roll_of_vars (fun _ _ => trivial) forceMax
  match i, stack with
  | .int _, _ | .text _, _ | .load _, _ | .markLeft, _ | .halt, _ | .swap, _ :: _ :: _ =>
    exact .pure trivial
  | .swap, [] | .swap, [_] | .negate, [] | .binary _, [] | .binary _, [_] | .die, [] | .dice, []
  | .dice, [_] => exact .fail trivial
  | .negate, a :: stack =>
    refine (Eval.respects_ofCause (a.operand "-")).bind fun x _ => ?_
    cases Checked.neg? x with
    | some n => exact .pure trivial
    | none => exact .fail trivial
  | .binary op, b :: a :: stack =>
    refine (Eval.respects_ofCause (a.operand op.symbol)).bind fun x _ => ?_
    refine (Eval.respects_ofCause (b.operand op.symbol)).bind fun y _ => ?_
    exact (Eval.respects_ofCause (op.apply x y)).bind fun n _ => .pure trivial
  | .die, a :: stack =>
    refine (Eval.respects_ofCause (a.operand "d")).bind fun sides _ => ?_
    exact (hroll 1 sides).bind fun face _ => .pure trivial
  | .dice, b :: a :: stack =>
    refine (Eval.respects_ofCause (a.operand "d")).bind fun count _ => ?_
    refine (Eval.respects_ofCause (b.operand "d")).bind fun sides _ => ?_
    exact (hroll count sides).bind fun sum _ => .pure trivial
  | .fill template placeholders, stack =>
    by_cases hshort : stack.length < placeholders.length
    · simp only [step, if_pos hshort]
      exact .fail trivial
    · simp only [step, if_neg hshort]
      exact .pure trivial
  | .store, _ => exact absurd rfl hi

/-- An instruction of confined code keeps the property: if it is an assignment, the name that lies
under the value is an allowed one. -/
theorem respects_step_of_confined (m : Machine) (h : Insulated P allowed) (forceMax : Bool)
    {shape : List (Option String)} {i : Instruction} {code : List Instruction} {f : Frame}
    (hcode : Code.Confined allowed shape (i :: code))
    (hstack : List.Forall₂ Value.Fits shape f.stack) :
    Respects (fun w : World δ γ => P w.vars) (m.step (fun _ => pure .nothing) forceMax i f) := by
  by_cases hi : i = .store
  · subst hi
    obtain ⟨value, name, rest, rfl, hname⟩ := hcode.exists_of_store
    obtain ⟨stack, trace⟩ := f
    obtain _ | ⟨-, _ | ⟨htarget, -⟩⟩ := hstack
    obtain rfl := htarget name rfl
    exact (Ensures.modify fun w hw => h.assign w.vars name _ hname hw).bind fun _ _ => .pure trivial
  · exact m.respects_step_of_ne_store forceMax hi f

/-- An accepted instruction has the effect on the stack that is told from the marks. -/
theorem fits_of_step (m : Machine) {forceMax : Bool} {shape : List (Option String)}
    {i : Instruction} (haccepts : i.accepts shape = true) {f f' : Frame} {w w' : World δ γ}
    (hstack : List.Forall₂ Value.Fits shape f.stack)
    (hstep : m.step (fun _ => pure .nothing) forceMax i f w = .ok f' w') :
    List.Forall₂ Value.Fits (i.effect i.mark shape) f'.stack := by
  have hkeeps : m.Keeps (fun _ : World δ γ => True) (fun _ => True) :=
    m.keeps_true fun _ _ => trivial
  have hrun : m.runCode (fun _ => pure .nothing) forceMax [i] f w = .ok f' w' := by
    rw [runCode, Eval.bind_of_ok hstep]
    rfl
  have hshape : Code.shapeAfter? shape [i] = some (i.effect i.mark shape) :=
    Code.shapeAfter?_cons_eq_some_iff.mpr ⟨haccepts, rfl⟩
  exact ((hkeeps.runCode_of_shape (fun _ => .pure trivial) hshape hstack).of_ok trivial hrun).2

end Machine

/-! ## Stages -/

/-- The rest of the code finds on the stack what its marks say, and assigns to allowed names
only. -/
def Activation.Confined (allowed : String → Prop) (run : Activation) : Prop :=
  ∃ shape, Code.Confined allowed shape run.code ∧ List.Forall₂ Value.Fits shape run.frame.stack

/-- So it does once the value that the run waits for is on the stack. -/
def Activation.Waiting (allowed : String → Prop) (run : Activation) : Prop :=
  ∃ shape, Code.Confined allowed (none :: shape) run.code ∧
    List.Forall₂ Value.Fits shape run.frame.stack

theorem Activation.Waiting.push {run : Activation} (h : run.Waiting allowed) (name : String)
    (v : Value) : (run.push name v).Confined allowed := by
  obtain ⟨shape, hcode, hstack⟩ := h
  exact ⟨none :: shape, hcode, .cons v.fits_none hstack⟩

/-- The names that are assigned to when an expansion is entered and run. -/
def Expansion.targets : Expansion → List String
  | .computed _ _ source => baseVariable :: sourceTargets source
  | .template _ text => templateTargets text

theorem Expansion.confined_of_compile {settings : CodeSettings} {x : Expansion} {p : Program}
    (hcompile : x.compile settings = .ok p) (hx : ∀ name ∈ x.targets, allowed name)
    (hfits : p.fault? = none) : Code.Confined allowed [] p.code.toList := by
  have htargets : ∀ name ∈ targetsOf x.parsed, name ∈ x.targets := by
    cases x with
    | computed _ base source => exact fun _ => List.mem_cons_of_mem baseVariable
    | template _ text => exact fun _ => id
  rw [x.compile_eq_programOf] at hcompile
  exact CodeSettings.confined_of_programOf (fun _ => Expansion.complete_of_parsed) hcompile
    (fun name hname => hx name (htargets name hname)) hfits

/-- What holds throughout an evaluation that assigns to allowed names only: the run that is carried
out is confined, and those that wait will be. -/
def Stage.Confined (allowed : String → Prop) : Stage → Prop
  | .running callers run => run.Confined allowed ∧ ∀ c ∈ callers, c.run.Waiting allowed
  | .finished _ => True

/-- No run waits, and none will, for no name is read any more. -/
def Stage.ReadsNothing : Stage → Prop
  | .running callers run => callers = [] ∧ ∀ name, .load name ∉ run.code
  | .finished _ => True

namespace Machine

/-- The stage is confined, and the property holds of the variables. -/
def Contained (P : γ → Prop) (allowed : String → Prop) (s : Stage × World δ γ) : Prop :=
  s.1.Confined allowed ∧ P s.2.vars

variable {m : Machine}

section Steps

variable (h : Insulated P allowed) {callers : List Caller}
include h

omit [DiceSource δ] in
theorem contained_enter {run : Activation} {x : Expansion} {w : World δ γ}
    (hcallers : ∀ c ∈ callers, c.run.Waiting allowed) (hrun : run.Waiting allowed)
    (hx : callers.length < m.limits.maxDepth → ∀ name ∈ x.targets, allowed name) (hw : P w.vars) :
    Contained P allowed (m.enter callers run x w) := by
  -- the base is assigned as soon as there is room, whatever the source is
  have hprepared (hroom : callers.length < m.limits.maxDepth) : P (x.prepared w).vars := by
    cases x with
    | computed _ base source =>
      exact h.assign w.vars baseVariable base (hx hroom baseVariable List.mem_cons_self) hw
    | template _ text => exact hw
  have hopens := m.opens_enter callers run x w
  generalize m.enter callers run x w = s at hopens ⊢
  cases hopens with
  | refused => exact ⟨trivial, hw⟩
  | malformed hroom | spoiled hroom => exact ⟨trivial, hprepared hroom⟩
  | @started p hroom hcompile hfits =>
    have hcode := Expansion.confined_of_compile hcompile (hx hroom) hfits
    exact ⟨⟨⟨[], hcode, .nil⟩, List.forall_mem_cons.mpr ⟨hrun, hcallers⟩⟩, hprepared hroom⟩

omit [DiceSource δ] in
theorem contained_deliver {run : Activation} {name : String} {meaning : Meaning} {w : World δ γ}
    (hcallers : ∀ c ∈ callers, c.run.Waiting allowed) (hrun : run.Waiting allowed)
    (hx : ∀ x, meaning = .expansion x → callers.length < m.limits.maxDepth →
      ∀ name ∈ x.targets, allowed name) (hw : P w.vars) :
    Contained P allowed (m.deliver callers run name meaning w) := by
  cases meaning with
  | value v => exact ⟨⟨hrun.push name v, hcallers⟩, hw⟩
  | expansion x => exact contained_enter h hcallers hrun (hx x rfl) hw

omit [DiceSource δ] in
theorem holds_after_meaning (name : String) {w : World δ γ} (hw : P w.vars) :
    P (meaning name w).2.vars := by
  unfold meaning
  cases Variables.get? w.vars name with
  | some v => exact hw
  | none =>
    cases Variables.legacy? w.vars name with
    | some n => exact hw
    | none =>
      have hdraw := h.draw w.vars name hw
      rcases htemplate : Variables.template? w.vars name with ⟨_ | text, vars⟩
      · rw [htemplate] at hdraw
        exact hdraw
      · rw [htemplate] at hdraw
        exact hdraw

/-- A step keeps the property, if an expansion that it enters assigns to allowed names only. -/
theorem contained_next {s : Stage × World δ γ} (hs : Contained P allowed s)
    (hx : ∀ callers x, Enters s callers x → callers.length < m.limits.maxDepth →
      ∀ name ∈ x.targets, allowed name) : Contained P allowed (m.next s) := by
  obtain ⟨⟨callers, run⟩ | outcome, w⟩ := s
  case finished => exact hs
  obtain ⟨⟨⟨shape, hcode, hstack⟩, hcallers⟩, hw⟩ := hs
  have hmoves := m.moves_next callers run w
  generalize m.next (.running callers run, w) = s at hmoves ⊢
  cases hmoves with
  | ended => exact ⟨trivial, hw⟩
  | returned c callers forceMax f =>
    obtain ⟨hc, hcallers⟩ := List.forall_mem_cons.mp hcallers
    exact contained_deliver h hcallers hc (fun x hmeaning => hx callers x (.again hmeaning)) hw
  | read _ forceMax name code f =>
    -- the code behind the read goes on with one value more
    have hrun : Activation.Waiting allowed ⟨forceMax, code, f⟩ := ⟨shape, hcode.tail, hstack⟩
    have hreads (x : Expansion) (hmeaning : (meaning name w).1 = .expansion x) :=
      hx callers x (.read ⟨name, code, rfl, hmeaning⟩)
    exact contained_deliver h hcallers hrun hreads (holds_after_meaning h name hw)
  | worked _ forceMax code hload hstep =>
    have hkept := (m.respects_step_of_confined h forceMax hcode hstack).of_ok hw hstep
    exact ⟨⟨⟨_, hcode.tail, m.fits_of_step hcode.accepts hstack hstep⟩, hcallers⟩, hkept.1⟩
  | failed _ forceMax code hload hstep =>
    have hkept := (m.respects_step_of_confined h forceMax hcode hstack).of_error hw hstep
    exact ⟨trivial, hkept.1⟩

end Steps

/-! ## Evaluations -/

theorem readsNothing_next {s : Stage × World δ γ} (h : s.1.ReadsNothing) :
    (m.next s).1.ReadsNothing := by
  obtain ⟨⟨callers, run⟩ | outcome, w⟩ := s
  case finished => exact h
  obtain ⟨rfl, hrun⟩ := h
  have hmoves := m.moves_next [] run w
  generalize m.next (.running [] run, w) = s at hmoves ⊢
  cases hmoves with
  | ended | failed => trivial
  | read _ _ name => exact absurd List.mem_cons_self (hrun name)
  | worked => exact ⟨rfl, fun name hname => hrun name (List.mem_cons_of_mem _ hname)⟩

/-- The evaluation of a program comes to expand a computed value or a template, for which there is
room. -/
def Expands (m : Machine) (p : Program) (w : World δ γ) (x : Expansion) : Prop :=
  ∃ n callers, Enters (m.next^[n] (.start p, { w with charged := 0 })) callers x ∧
    callers.length < m.limits.maxDepth

/-- A program that reads no names comes to expand nothing. -/
theorem not_expands_of_no_load {p : Program} (hp : ∀ name, .load name ∉ p.code.toList)
    (w : World δ γ) (x : Expansion) : ¬m.Expands p w x := by
  have hstages (n : Nat) : (m.next^[n] (.start p, { w with charged := 0 })).1.ReadsNothing := by
    induction n with
    | zero =>
      show (Stage.start p).ReadsNothing
      unfold Stage.start
      cases p.fault? with
      | some fault => trivial
      | none => exact ⟨rfl, hp⟩
    | succ n ih =>
      rw [Function.iterate_succ_apply']
      exact readsNothing_next ih
  rintro ⟨n, callers, henters, -⟩
  have hstage := hstages n
  generalize m.next^[n] (.start p, { w with charged := 0 }) = s at henters hstage
  cases henters with
  | read hreads =>
    obtain ⟨name, code, hcode, -⟩ := hreads
    exact hstage.2 name (hcode ▸ List.mem_cons_self)
  | again => exact nomatch hstage.1

omit [DiceSource δ] [Variables γ] in
theorem snd_ended (x : Eval δ γ Evaluation) (w : World δ γ) : (ended (x w)).2 = after x w := by
  unfold ended after
  cases x w with
  | ok result w' => rfl
  | error fault w' => rfl

omit [DiceSource δ] [Variables γ] in
theorem contained_start {p : Program} {w : World δ γ}
    (hp : p.fault? = none → Code.Confined allowed [] p.code.toList) (hw : P w.vars) :
    Contained P allowed (.start p, w) := by
  refine ⟨?_, hw⟩
  unfold Stage.start
  cases hfault : p.fault? with
  | some fault => trivial
  | none => exact ⟨⟨[], hp hfault, .nil⟩, fun _ hc => nomatch hc⟩

/-- What is insulated from the assignments of a program, and from those of all that its evaluation
expands, holds after the evaluation if it has held before. -/
theorem after_evaluate_of_insulated (h : Insulated P allowed) {p : Program} {w : World δ γ}
    (hp : p.fault? = none → Code.Confined allowed [] p.code.toList)
    (hx : ∀ x, m.Expands p w x → ∀ name ∈ x.targets, allowed name) (hw : P w.vars) :
    P (after (m.evaluate p) w).vars := by
  have hsteps (n : Nat) : Contained P allowed (m.next^[n] (.start p, { w with charged := 0 })) := by
    induction n with
    | zero => exact contained_start hp hw
    | succ n ih =>
      rw [Function.iterate_succ_apply']
      exact contained_next h ih fun callers x henters hroom => hx x ⟨n, callers, henters, hroom⟩
  obtain ⟨n, hn⟩ := m.leadsTo_evaluate p w
  have hended := (hsteps n).2
  rwa [hn, snd_ended] at hended

end Machine

/-! ## Variables that are not assigned -/

theorem Meaning.eq_of_ofValue {name : String} {v : Value} {x : Expansion}
    (h : ofValue name v = .expansion x) : ∃ base source, x = .computed name base source := by
  cases v with
  | computed base source => exact ⟨base, source, (Meaning.expansion.inj h).symm⟩
  | _ => exact nomatch h

/-- In a map no name stands for a template, so nothing is expanded but computed values. -/
theorem Machine.Expands.eq_computed {m : Machine} {p : Program} {w : World δ VariableMap}
    {x : Expansion} (h : m.Expands p w x) : ∃ name base source, x = .computed name base source := by
  obtain ⟨n, callers, henters, -⟩ := h
  generalize m.next^[n] (.start p, { w with charged := 0 }) = s at henters
  cases henters with
  | @read callers run w x hreads =>
    obtain ⟨name, code, -, hmeaning⟩ := hreads
    unfold Machine.meaning at hmeaning
    cases hget : Variables.get? w.vars name with
    | some v =>
      rw [hget] at hmeaning
      exact ⟨name, Meaning.eq_of_ofValue hmeaning⟩
    | none =>
      rw [hget] at hmeaning
      exact nomatch hmeaning
  | @again c callers forceMax f w x hmeaning =>
    obtain ⟨expansion, run⟩ := c
    cases expansion with
    | computed => exact nomatch hmeaning
    | template name text => exact ⟨name, Meaning.eq_of_ofValue hmeaning⟩

/-- The variable is left as it is by assignments to others. -/
theorem insulated_getElem? (name : String) (value? : Option Value) :
    Insulated (fun vars : VariableMap => vars[name]? = value?) (· ≠ name) where
  assign vars name' value hne h := by
    show (vars.insert name' value)[name]? = value?
    rw [Std.ExtTreeMap.getElem?_insert, if_neg, h]
    exact fun heq => hne (Std.LawfulEqOrd.eq_of_compare heq)
  draw _ _ h := h

namespace Machine

/-- An evaluation changes assigned variables only, whether it succeeds or fails and with any dice. A
variable is as before, present or absent, unless it is `$tVal` or is assigned to in the source or in
the source of a computed value that the evaluation expands. If it expands none, `$tVal` is as before
too unless the source assigns to it. A source that does not compile changes nothing. -/
theorem evaluate_frame (m : Machine) (source : String) (w : World δ VariableMap) :
    (∀ (settings : CodeSettings) (p : Program) (forceMax : Bool), settings.compile source = .ok p →
      let run := p.withForceMax forceMax
      let vars := (after (m.evaluate run) w).vars
      (∀ name, name ≠ baseVariable → name ∉ sourceTargets source →
        (∀ read base text, m.Expands run w (.computed read base text) →
          name ∉ sourceTargets text) → vars[name]? = w.vars[name]?) ∧
      (baseVariable ∉ sourceTargets source →
        (∀ read base text, ¬m.Expands run w (.computed read base text)) →
          vars[baseVariable]? = w.vars[baseVariable]?)) ∧
    ∀ fault, m.code.compile source = .error fault →
      m.evaluateSource source w = .error fault w := by
  refine ⟨fun settings p forceMax hp => ?_, fun fault hfault => ?_⟩
  · intro run vars
    have hsource {name : String} (hname : name ∉ sourceTargets source) (hfits : run.fault? = none) :
        Code.Confined (· ≠ name) [] run.code.toList := by
      have hcode : Code.Confined (· ≠ name) [] p.code.toList :=
        CodeSettings.confined_of_programOf (fun _ => Expr.complete_of_parse) hp
          (fun target htarget => ne_of_mem_of_not_mem htarget hname) hfits
      exact hcode
    refine ⟨fun name hbase hname hexpanded => ?_, fun hname hexpanded => ?_⟩
    · refine after_evaluate_of_insulated (insulated_getElem? name _) (hsource hname) ?_ rfl
      intro x hx target htarget
      obtain ⟨read, base, text, rfl⟩ := hx.eq_computed
      rcases List.mem_cons.mp htarget with rfl | htarget
      · exact hbase.symm
      · exact ne_of_mem_of_not_mem htarget (hexpanded read base text hx)
    · refine after_evaluate_of_insulated (insulated_getElem? baseVariable _) (hsource hname) ?_ rfl
      intro x hx
      obtain ⟨read, base, text, rfl⟩ := hx.eq_computed
      exact absurd hx (hexpanded read base text)
  · rw [evaluateSource, hfault]
    rfl

/-- Dice that are assigned to one variable leave another one, and `$tVal`, which is absent. -/
theorem evaluate_frame_dice :
    let vars : VariableMap := (∅ : VariableMap).insert "y" (.int 1)
    let w : World ScriptedDice VariableMap := ⟨⟨[3, 5]⟩, vars, 0⟩
    ∃ p, ({} : CodeSettings).compile "x=2d6" = .ok p ∧
      (after (({} : Machine).evaluate (p.withForceMax false)) w).vars["y"]? = some (.int 1) ∧
      (after (({} : Machine).evaluate (p.withForceMax false)) w).vars[baseVariable]? = none := by
  intro vars w
  obtain ⟨p, hp, hcode⟩ : ∃ p, ({} : CodeSettings).compile "x=2d6" = .ok p ∧
      p.code.toList = [.text "x", .int 2, .int 6, .dice, .store, .halt] := ⟨_, rfl, rfl⟩
  have hexpands (x : Expansion) : ¬({} : Machine).Expands (p.withForceMax false) w x := by
    refine not_expands_of_no_load (fun name hname => ?_) w x
    have hload : .load name ∈ p.code.toList := hname
    simp [hcode] at hload
  have htargets : sourceTargets "x=2d6" = ["x"] := rfl
  obtain ⟨hother, hbase⟩ := (evaluate_frame {} "x=2d6" w).1 {} p false hp
  refine ⟨p, hp, ?_, ?_⟩
  · exact hother "y" (by decide) (by rw [htargets]; decide) fun _ _ _ h => absurd h (hexpands _)
  · exact hbase (by rw [htargets]; decide) fun _ _ _ => hexpands _

end Machine

end DiceBot
