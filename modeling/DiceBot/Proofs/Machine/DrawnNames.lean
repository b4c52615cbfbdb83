import DiceBot.Proofs.Machine.Roll

/-!
# Drawn names

The names that an evaluation draws templates for (`Machine.drawn`) are told by a log on its
variables (`Logged`), which changes nothing else. No other templates have a part in the evaluation:
with variables that are used alike as long as only these names are drawn (`Variables.Alike`) it has
the same outcome (`Machine.sameOutcome_evaluate_of_drawn`).
-/

namespace DiceBot

open Eval (Alike SameOutcome after)

variable {δ γ γ' : Type}

/-! ## Logs -/

/-- Variables with the names that templates were drawn for since the log began. -/
structure Logged (γ : Type) where
  vars : γ
  drawn : List String := []

instance [Variables γ] : Variables (Logged γ) where
  get? logged name := Variables.get? logged.vars name
  set logged name value := { logged with vars := Variables.set logged.vars name value }
  erase logged name :=
    let (value?, vars) := Variables.erase logged.vars name
    (value?, { logged with vars })
  legacy? logged name := Variables.legacy? logged.vars name
  template? logged name :=
    let (text?, vars) := Variables.template? logged.vars name
    (text?, ⟨vars, logged.drawn ++ [name]⟩)

/-- The surroundings with a log that begins now. -/
def World.logged (w : World δ γ) : World δ (Logged γ) := ⟨w.dice, { vars := w.vars }, w.charged⟩

/-! ## Variables used alike -/

section Alike

variable [Variables γ] [Variables γ']

/-- Variables related by `V` are read and written alike, and as long as templates are drawn for
allowed names only, they are drawn alike too. -/
structure Variables.Alike (allowed : String → Prop) (V : γ → γ' → Prop) : Prop where
  get? : ∀ {vars vars'}, V vars vars' → ∀ name, get? vars name = get? vars' name
  legacy? : ∀ {vars vars'}, V vars vars' → ∀ name, legacy? vars name = legacy? vars' name
  set : ∀ {vars vars'}, V vars vars' → ∀ name value, V (set vars name value) (set vars' name value)
  template? : ∀ {vars vars'}, V vars vars' → ∀ name, allowed name →
    (template? vars name).1 = (template? vars' name).1 ∧
      V (template? vars name).2 (template? vars' name).2

theorem Variables.alike_eq (allowed : String → Prop) :
    Variables.Alike allowed (Eq : γ → γ → Prop) where
  get? h _ := h ▸ rfl
  legacy? h _ := h ▸ rfl
  set h _ _ := h ▸ rfl
  template? h _ _ := h ▸ ⟨rfl, rfl⟩

end Alike

namespace Machine

/-- Surroundings that differ in the variables alone, which are related by `V`. -/
structure SameButVars (V : γ → γ' → Prop) (w : World δ γ) (v : World δ γ') : Prop where
  dice : w.dice = v.dice
  vars : V w.vars v.vars
  charged : w.charged = v.charged

variable [Variables γ] [Variables γ'] {allowed : String → Prop} {V : γ → γ' → Prop}

/-- The first run keeps a log, and it is lost once the log has a name that is not allowed. -/
theorem mirrors_logged (hV : Variables.Alike allowed V) :
    Mirrors (fun w : World δ (Logged γ) => ∃ name ∈ w.vars.drawn, ¬allowed name)
      (SameButVars fun logged vars => V logged.vars vars) where
  get? _ _ h := hV.get? h.vars
  legacy? _ _ h := hV.legacy? h.vars
  pick name := by
    refine ⟨fun w hlost => ?_, fun w v h => ?_⟩
    · obtain ⟨other, hother, hnot⟩ := hlost
      exact ⟨other, List.mem_append_left _ hother, hnot⟩
    by_cases hname : allowed name
    · obtain ⟨htext, hvars⟩ := hV.template? h.vars name hname
      have hpick : Eval.pick name v = .ok (Variables.template? w.vars.vars name).1
          { v with vars := (Variables.template? v.vars name).2 } := by
        rw [htext]
        rfl
      rw [hpick]
      exact .inr (.ok ⟨h.dice, hvars, h.charged⟩)
    · exact .inl ⟨name, List.mem_append_right _ List.mem_cons_self, hname⟩
  assign name value :=
    ⟨fun _ => id, fun _ _ h => .inr (.ok ⟨h.dice, hV.set h.vars name value, h.charged⟩)⟩

variable [DiceSource δ] (m : Machine) (p : Program)

/-- The names that an evaluation draws templates for, in the order of the draws. -/
def drawn (w : World δ γ) : List String := (after (m.evaluate p) w.logged).vars.drawn

theorem sameOutcome_evaluate_logged (hV : Variables.Alike allowed V) {w : World δ γ}
    {v : World δ γ'} (h : SameButVars V w v) (hdrawn : ∀ name ∈ m.drawn p w, allowed name) :
    SameOutcome (SameButVars fun logged vars => V logged.vars vars) (m.evaluate p w.logged)
      (m.evaluate p v) := by
  have hrun := (mirrors_logged (δ := δ) hV).runProgram_load (m := m)
    (fun _ _ _ => alike_roll_of_same_dice (fun _ _ _ => id) (fun _ _ h => h.dice)
      (fun _ _ h => h.charged) fun _ _ _ _ h => ⟨rfl, h.vars, rfl⟩) p
  refine (hrun.run { w.logged with charged := 0 } { v with charged := 0 }
    ⟨h.dice, h.vars, rfl⟩).resolve_left ?_
  rintro ⟨name, hname, hnot⟩
  exact hnot (hdrawn name hname)

/-- An evaluation that draws allowed names only has the same outcome with variables that are used
alike for these. -/
theorem sameOutcome_evaluate_of_drawn (hV : Variables.Alike allowed V) {w : World δ γ}
    {v : World δ γ'} (h : SameButVars V w v) (hdrawn : ∀ name ∈ m.drawn p w, allowed name) :
    SameOutcome (SameButVars V) (m.evaluate p w) (m.evaluate p v) := by
  -- the log makes no difference, neither beside the run that it is kept of nor beside the other one
  have hself := m.sameOutcome_evaluate_logged p (Variables.alike_eq fun _ => True)
    (w := w) ⟨rfl, rfl, rfl⟩ fun _ _ => trivial
  have hother := m.sameOutcome_evaluate_logged p hV h hdrawn
  refine hself.common hother fun logged w' v' hw hv => ?_
  exact ⟨hw.dice.symm.trans hv.dice, hw.vars ▸ hv.vars, hw.charged.symm.trans hv.charged⟩

end Machine

end DiceBot
