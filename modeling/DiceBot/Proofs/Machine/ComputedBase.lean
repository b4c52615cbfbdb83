import DiceBot.Memory.Scoped
import DiceBot.Proofs.Machine.Roll

/-!
# The base of a computed value

While the expression of a computed value is evaluated its base is to be found in `$tVal`. There is
one such variable for all evaluations, and nothing restores it after a computed value inside the
expression has put its own base there. So what is read from `$tVal` is the value that was last
assigned to it, by whatever was evaluated in the meantime, and the base if nothing was
(`Machine.base_until_assigned`).

The last assignment is told by a watch on the variables (`Watched`), which changes nothing else.
-/

namespace DiceBot

open Eval (Alike SameOutcome after)

variable {δ γ : Type}

/-! ## The variable of the base -/

/-- Variables in which `$tVal` holds what was last assigned to it, whatever else is assigned or
drawn. -/
class LawfulBase (γ : Type) [Variables γ] : Prop where
  get?_set_base : ∀ (vars : γ) (value : Value),
    Variables.get? (Variables.set vars baseVariable value) baseVariable = some value
  get?_set_of_ne : ∀ (vars : γ) (name : String) (value : Value), name ≠ baseVariable →
    Variables.get? (Variables.set vars name value) baseVariable = Variables.get? vars baseVariable
  get?_template : ∀ (vars : γ) (name : String),
    Variables.get? (Variables.template? vars name).2 baseVariable =
      Variables.get? vars baseVariable

instance : LawfulBase VariableMap where
  get?_set_base vars value := Std.ExtTreeMap.getElem?_insert_self
  get?_set_of_ne vars name value hne := by
    show (vars.insert name value)[baseVariable]? = vars[baseVariable]?
    rw [Std.ExtTreeMap.getElem?_insert, if_neg]
    exact fun heq => hne (Std.LawfulEqOrd.eq_of_compare heq)
  get?_template _ _ := rfl

namespace Scoped

/-- No alias leads to `$tVal`, and none away from it. -/
theorem get?_baseVariable (s : Scoped) : s.get? baseVariable = s.transient[baseVariable]? := rfl

/-- Only an assignment to `$tVal` itself has an effect on it. -/
theorem get?_set_baseVariable (s : Scoped) (name : String) (value : Value) :
    (s.set name value).get? baseVariable =
      if name = baseVariable then some value else s.get? baseVariable := by
  rw [get?_baseVariable, get?_baseVariable]
  by_cases hname : name = baseVariable
  · subst hname
    exact Std.ExtTreeMap.getElem?_insert_self
  rw [if_neg hname]
  unfold Scoped.set Aliases.resolve
  cases Tier.ofName name with
  | transient =>
    show (s.transient.insert name value)[baseVariable]? = s.transient[baseVariable]?
    rw [Std.ExtTreeMap.getElem?_insert, if_neg]
    exact fun heq => hname (Std.LawfulEqOrd.eq_of_compare heq)
  | player | group | seat => rfl

end Scoped

instance : LawfulBase Scoped where
  get?_set_base s value := (s.get?_set_baseVariable baseVariable value).trans (if_pos rfl)
  get?_set_of_ne s name value hne := (s.get?_set_baseVariable name value).trans (if_neg hne)
  get?_template _ _ := rfl

/-! ## Watched variables -/

/-- Variables with the value that was last assigned to `$tVal` since the watch began. -/
structure Watched (γ : Type) where
  vars : γ
  assigned? : Option Value := none

instance [Variables γ] : Variables (Watched γ) where
  get? watched name := Variables.get? watched.vars name
  set watched name value :=
    ⟨Variables.set watched.vars name value,
      if name = baseVariable then some value else watched.assigned?⟩
  erase watched name :=
    let (value?, vars) := Variables.erase watched.vars name
    (value?, { watched with vars })
  legacy? watched name := Variables.legacy? watched.vars name
  template? watched name :=
    let (text?, vars) := Variables.template? watched.vars name
    (text?, { watched with vars })

namespace World

/-- The surroundings with a watch that begins now. -/
def watched (w : World δ γ) : World δ (Watched γ) := ⟨w.dice, { vars := w.vars }, w.charged⟩

/-- The surroundings without the watch. -/
def unwatched (w : World δ (Watched γ)) : World δ γ := ⟨w.dice, w.vars.vars, w.charged⟩

end World

namespace Machine

variable [Variables γ]

/-- A watched run and the same run without the watch, while `$tVal` holds what the watch says, and
`base` if it says nothing. -/
structure Holds (base : Value) (w : World δ (Watched γ)) (v : World δ γ) : Prop where
  unwatched : w.unwatched = v
  held : Variables.get? w.vars.vars baseVariable = some (w.vars.assigned?.getD base)

theorem mirrors_holds [LawfulBase γ] (base : Value) :
    Mirrors (fun _ => False) (Holds (δ := δ) (γ := γ) base) where
  get? w v h name := congrArg (fun v : World δ γ => Variables.get? v.vars name) h.unwatched
  legacy? w v h name := congrArg (fun v : World δ γ => Variables.legacy? v.vars name) h.unwatched
  pick name := by
    refine ⟨fun _ => id, fun w v h => .inr ?_⟩
    obtain rfl := h.unwatched
    exact .ok ⟨rfl, (LawfulBase.get?_template w.vars.vars name).trans h.held⟩
  assign name value := by
    refine ⟨fun _ => id, fun w v h => .inr ?_⟩
    obtain rfl := h.unwatched
    refine .ok ⟨rfl, ?_⟩
    show Variables.get? (Variables.set w.vars.vars name value) baseVariable =
      some ((if name = baseVariable then some value else w.vars.assigned?).getD base)
    by_cases hname : name = baseVariable
    · rw [if_pos hname, hname]
      exact LawfulBase.get?_set_base w.vars.vars value
    · rw [if_neg hname, LawfulBase.get?_set_of_ne w.vars.vars name value hname]
      exact h.held

/-- What a variable holds is what is read from it, unless it is evaluated. -/
theorem resolve_of_get? (expand : Expansion → Eval δ γ Value) {name : String} {value : Value}
    (hplain : value.isComputed = false) {w : World δ γ}
    (hget : Variables.get? w.vars name = some value) : resolve expand name w = .ok value w := by
  have hlookUp : lookUp expand name w = .ok value w := by simp only [lookUp, hget]
  rw [resolve_eq, Eval.bind_of_ok hlookUp]
  cases value with
  | computed base source => cases hplain
  | _ => rfl

variable [DiceSource δ]

/-- A roll has nothing to do with variables. -/
theorem alike_roll_holds (m : Machine) (base : Value) (forceMax : Bool) (count sides : Int64) :
    Alike (fun _ => False) (Holds (δ := δ) (γ := γ) base) (m.roll forceMax count sides)
      (m.roll forceMax count sides) :=
  alike_roll_of_same_dice (fun _ _ _ => id) (fun _ _ h => congrArg World.dice h.unwatched)
    (fun _ _ h => congrArg World.charged h.unwatched)
    fun _ _ _ _ h => ⟨by rw [← h.unwatched]; rfl, h.held⟩

/-- The expression of a computed value starts with the base in `$tVal`. From then on its
instructions read from there, wherever they do so and however deep the computed value was met, the
value that was last assigned to it: the base as long as neither the expression nor anything that it
expands has assigned one. The watch that shows this changes nothing else. -/
theorem base_until_assigned [LawfulBase γ] (m : Machine) (levels : Nat) (name : String)
    (base : Value) {source : String} {p : Program} (hp : m.code.compile source = .ok p)
    (w : World δ γ) :
    let start : World δ γ := { w with vars := Variables.set w.vars baseVariable base }
    m.expand (levels + 1) (.computed name base source) w =
      Eval.inFrame (Expansion.computed name base source).frame
        (Evaluation.value <$> m.runProgram (resolve (m.expand levels)) p) start ∧
    SameOutcome (fun w' v => w'.unwatched = v)
      (m.runProgram (resolve (m.expand levels)) p start.watched)
      (m.runProgram (resolve (m.expand levels)) p start) ∧
    ∀ before rest f w', p.code.toList = before ++ .load baseVariable :: rest →
      m.runCode (resolve (m.expand levels)) p.forceMax before {} start.watched = .ok f w' →
      (w'.vars.assigned? = none → base.isComputed = false →
        resolve (m.expand levels) baseVariable w' = .ok base w') ∧
      ∀ value, w'.vars.assigned? = some value → value.isComputed = false →
        resolve (m.expand levels) baseVariable w' = .ok value w' := by
  intro start
  -- the run with the watch is compared with the run without it
  have hmirrors := mirrors_holds (δ := δ) (γ := γ) base
  have hload : ∀ name, Alike (fun _ => False) (Holds (δ := δ) (γ := γ) base)
      (resolve (m.expand levels) name) (resolve (m.expand levels) name) :=
    hmirrors.resolve (hmirrors.expand (m.alike_roll_holds base false) levels)
  have hstart : Holds base start.watched start :=
    ⟨rfl, LawfulBase.get?_set_base w.vars base⟩
  refine ⟨?_, ?_, fun before rest f w' hcode hbefore => ?_⟩
  · have hexpansion : m.evaluateExpansion (resolve (m.expand levels))
        (.computed name base source) =
          (Evaluation.value <$> m.runProgram (resolve (m.expand levels)) p : Eval δ γ Value) := by
      unfold evaluateExpansion
      rw [show (Expansion.computed name base source).compile m.code = .ok p from hp]
      rfl
    rw [expand_succ, hexpansion]
    rfl
  · have hrun := hmirrors.runProgram hload (m.alike_roll_holds base p.forceMax) (p := p)
    exact ((hrun.run _ _ hstart).resolve_left id).mono fun _ _ h => h.unwatched
  · have hrun := hmirrors.runCode hload (m.alike_roll_holds base p.forceMax) before {}
    have hheld := (hrun.related_after hstart id).held
    rw [Eval.after_of_ok hbefore] at hheld
    refine ⟨fun hnone hplain => resolve_of_get? _ hplain ?_,
      fun value hsome hplain => resolve_of_get? _ hplain ?_⟩
    · rwa [hnone] at hheld
    · rwa [hsome] at hheld

/-- A variable is read before the base is, and leaves it where it was. -/
theorem base_until_assigned_bonus :
    let w : World ScriptedDice VariableMap :=
      ⟨⟨[]⟩, (∅ : VariableMap).insert "bonus" (.int 3), 0⟩
    let start : World ScriptedDice VariableMap :=
      { w with vars := Variables.set w.vars baseVariable (.int 2) }
    resolve (({} : Machine).expand 7) baseVariable start.watched = .ok (.int 2) start.watched := by
  intro w start
  have hp : ({} : Machine).code.compile "bonus+$tVal" = .ok _ := rfl
  have hreads := (base_until_assigned {} 7 "hp" (.int 2) hp w).2.2
  exact (hreads [.load "bonus", .markLeft] [.binary .add, .halt] _ _ rfl rfl).1 rfl rfl

/-- The base of a computed value that the expression reads replaces its own. -/
theorem not_base_of_nested :
    ¬∀ (base : Int64) (source : String) (p : Program) (before rest : List Instruction)
        (vars : VariableMap) (f : Frame) (w : World ScriptedDice VariableMap),
      ({} : Machine).code.compile source = .ok p →
      p.code.toList = before ++ .load baseVariable :: rest → Instruction.store ∉ before →
      ({} : Machine).runCode (resolve (({} : Machine).expand 7)) p.forceMax before {}
        ⟨⟨[]⟩, Variables.set vars baseVariable (.int base), 0⟩ = .ok f w →
      resolve (({} : Machine).expand 7) baseVariable w = .ok (.int base) w := by
  intro hbase
  let vars : VariableMap := (∅ : VariableMap).insert "b" (.computed (.int 2) "$tVal")
  -- the surroundings after `b` has been read, which has put its own base into `$tVal`
  let w : World ScriptedDice VariableMap :=
    ⟨⟨[]⟩, Variables.set (Variables.set vars baseVariable (.int 1)) baseVariable (.int 2), 0⟩
  have hread := hbase 1 "b+$tVal" _ [.load "b", .markLeft] [.binary .add, .halt] vars
    ⟨[.int 2], { left := [.variable "b" 2] }⟩ w rfl rfl (by simp) rfl
  have hnested : resolve (({} : Machine).expand 7) baseVariable w = .ok (.int 2) w := rfl
  rw [hnested] at hread
  exact absurd (EStateM.Result.ok.inj hread).1 (by decide)

end Machine

end DiceBot
