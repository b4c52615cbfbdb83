import DiceBot.Proofs.Machine.ComputedBase
import DiceBot.Proofs.Machine.Preservation
import DiceBot.Proofs.Machine.TreeEvaluation

/-!
# What expressions can do

What an expression does to the surroundings can be told from what stands in it. If the steps of an
evaluation that a test on expressions lets through keep a property of the surroundings
(`Machine.Permits`), then so does an expression all of whose parts pass the test, and it comes to a
value that is no computed value (`Machine.Permits.plain_value`). Two tests matter most:

* `Expr.assignsOnly`: assignments go to allowed names only. An evaluation runs the expression of its
  own source and those of the sources that it expands, which are texts of templates and sources of
  computed values that it reads. A property of the variables that is kept by what these assign, and
  by the bases put in `$tVal` (`Machine.Confines`), is kept by every evaluation
  (`Machine.Confines.evaluate`).
* `Expr.readsOnly`: nothing is assigned, no dice are rolled, and only some variables are read. Where
  these hold plain values nothing is changed (`Expr.respects_evaluate_of_readsOnly`).

An expression without variables may roll dice but changes no variables
(`Expr.respects_evaluate_of_rollsAllowed`).
-/

namespace DiceBot

open Eval (Ensures)

/-! ## Tests on expressions -/

namespace Expr

mutual

/-- The expression and all expressions in it pass a test. -/
def every (test : Expr → Bool) (e : Expr) : Bool :=
  test e && match e with
    | .int _ | .usualSides | .text _ | .variable _ => true
    | .template _ parts => everyPart test parts
    | .negate e | .die e | .assign _ e | .update _ _ e => every test e
    | .binary _ left right | .dice left right => every test left && every test right

/-- All of the expressions and all expressions in them pass a test. -/
def everyPart (test : Expr → Bool) : List Expr → Bool
  | [] => true
  | e :: es => every test e && everyPart test es

end

mutual

theorem every_of_forall {test : Expr → Bool} (h : ∀ e, test e = true) :
    (e : Expr) → every test e = true
  | .int _ | .usualSides | .text _ | .variable _ => by simp [every, h]
  | .template _ parts => by simp [every, h, everyPart_of_forall h parts]
  | .negate e | .die e | .assign _ e | .update _ _ e => by simp [every, h, every_of_forall h e]
  | .binary _ left right | .dice left right => by
    simp [every, h, every_of_forall h left, every_of_forall h right]

theorem everyPart_of_forall {test : Expr → Bool} (h : ∀ e, test e = true) :
    (es : List Expr) → everyPart test es = true
  | [] => by rw [everyPart]
  | e :: es => by rw [everyPart, every_of_forall h e, everyPart_of_forall h es]; rfl

end

/-- If a source has a tree, that passes a test. -/
def treePasses {ε : Type} (test : Expr → Bool) : Except ε Expr → Bool
  | .ok e => test e
  | .error _ => true

theorem treePasses_of_ok {ε : Type} {test : Expr → Bool} {tree : Except ε Expr} {e : Expr}
    (h : treePasses test tree = true) (htree : tree = .ok e) : test e = true := by
  rwa [htree] at h

theorem treePasses_mapError {ε ε' : Type} (test : Expr → Bool) (f : ε → ε')
    (tree : Except ε Expr) : treePasses test (tree.mapError f) = treePasses test tree := by
  cases tree <;> rfl

theorem treePasses_of_forall {ε : Type} {test : Expr → Bool} (h : ∀ e, test e = true)
    (tree : Except ε Expr) : treePasses test tree = true := by
  cases tree with
  | ok e => exact h e
  | error fault => rfl

end Expr

variable {δ γ : Type}

/-! ## Operations on values -/

/-- The computation keeps the property, and its result is no computed value. -/
abbrev Eval.Plain (I : World δ γ → Prop) : Eval δ γ Value → Prop :=
  Ensures I (fun _ => True) (fun v => v.isComputed = false)

/-- The computation keeps the property. -/
abbrev Eval.Respects {α : Type} (I : World δ γ → Prop) : Eval δ γ α → Prop :=
  Ensures I (fun _ => True) (fun _ => True)

/-- What a computation keeps holds of the surroundings that it leaves. -/
theorem Eval.Ensures.holds_after {α : Type} {I : World δ γ → Prop} {E : Cause → Prop}
    {Q : α → Prop} {x : Eval δ γ α} (h : Ensures I E Q x) {w : World δ γ} (hw : I w) :
    I (Eval.after x w) := by
  cases hrun : x w with
  | ok a w' =>
    rw [Eval.after_of_ok hrun]
    exact (h.of_ok hw hrun).1
  | error fault w' =>
    rw [Eval.after_of_error hrun]
    exact (h.of_error hw hrun).1

open Eval (Plain Respects)

section Operations

variable {I : World δ γ → Prop}

theorem Eval.respects_ofCause {α : Type} (result : Except Cause α) :
    Respects I (Eval.ofCause result : Eval δ γ α) :=
  .ofCause (fun _ _ => trivial) fun _ _ => trivial

namespace Value

theorem plain_negated (v : Value) : Plain I v.negated := by
  refine (Eval.respects_ofCause (v.operand "-")).bind fun x _ => ?_
  cases Checked.neg? x with
  | some n => exact .pure rfl
  | none => exact .fail trivial

theorem plain_combined (op : Operator) (a b : Value) : Plain I (combined op a b) :=
  (Eval.respects_ofCause (a.operand op.symbol)).bind fun x _ =>
    (Eval.respects_ofCause (b.operand op.symbol)).bind fun y _ =>
      (Eval.respects_ofCause (op.apply x y)).bind fun _ _ => .pure rfl

variable [DiceSource δ] {m : Machine} {forceMax : Bool}

theorem plain_rolledDie (hroll : ∀ sides, Respects I (m.roll forceMax 1 sides)) (sides : Value) :
    Plain I (sides.rolledDie m forceMax) :=
  (Eval.respects_ofCause (sides.operand "d")).bind fun n _ => (hroll n).bind fun _ _ => .pure rfl

theorem plain_rolledDice (hroll : ∀ count sides, Respects I (m.roll forceMax count sides))
    (count sides : Value) : Plain I (count.rolledDice m forceMax sides) :=
  (Eval.respects_ofCause (count.operand "d")).bind fun k _ =>
    (Eval.respects_ofCause (sides.operand "d")).bind fun n _ =>
      (hroll k n).bind fun _ _ => .pure rfl

end Value

end Operations

variable [Variables γ]

/-! ## Expressions that pass a test -/

section Permits

variable [DiceSource δ]

/-- The steps that expressions take if they pass the test keep a property of the surroundings. -/
structure Machine.Permits (m : Machine) (load : String → Eval δ γ Value) (forceMax : Bool)
    (I : World δ γ → Prop) (test : Expr → Bool) : Prop where
  read : ∀ name, test (.variable name) = true → Plain I (load name)
  die : ∀ e, test (.die e) = true → ∀ sides, Respects I (m.roll forceMax 1 sides)
  dice : ∀ e e', test (.dice e e') = true → ∀ count sides, Respects I (m.roll forceMax count sides)
  assign : ∀ name e, test (.assign name e) = true → ∀ value, value.isComputed = false →
    Respects I (Eval.assign name value)
  update : ∀ op name e, test (.update op name e) = true → Plain I (load name) ∧
    ∀ value, value.isComputed = false → Respects I (Eval.assign name value)

namespace Machine.Permits

variable {m : Machine} {load : String → Eval δ γ Value} {forceMax : Bool} {usual : Int64}
variable {I : World δ γ → Prop} {test : Expr → Bool}

mutual

/-- An expression all of whose parts pass the test keeps the property and comes to a plain value. -/
theorem plain_value (h : m.Permits load forceMax I test) (e : Expr) (he : e.every test = true) :
    Plain I (e.value m load usual forceMax) := by
  -- each case uses what is permitted at its node, and the induction hypothesis below it
  match e with
  | .int _ | .usualSides | .text _ => exact .pure rfl
  | .variable name =>
    simp only [Expr.every, Bool.and_true] at he
    exact h.read name he
  | .template s parts =>
    simp only [Expr.every, Bool.and_eq_true] at he
    exact (h.respects_values parts he.2).bind fun _ _ => .pure rfl
  | .negate e =>
    simp only [Expr.every, Bool.and_eq_true] at he
    exact (h.plain_value e he.2).bind fun v _ => v.plain_negated
  | .binary op left right =>
    simp only [Expr.every, Bool.and_eq_true] at he
    exact (h.plain_value left he.2.1).bind fun a _ => (h.plain_value right he.2.2).bind fun b _ =>
      Value.plain_combined op a b
  | .die sides =>
    simp only [Expr.every, Bool.and_eq_true] at he
    exact (h.plain_value sides he.2).bind fun v _ => v.plain_rolledDie (h.die sides he.1)
  | .dice count sides =>
    simp only [Expr.every, Bool.and_eq_true] at he
    exact (h.plain_value count he.2.1).bind fun c _ => (h.plain_value sides he.2.2).bind fun v _ =>
      c.plain_rolledDice (h.dice count sides he.1) v
  | .assign name e =>
    simp only [Expr.every, Bool.and_eq_true] at he
    exact (h.plain_value e he.2).bind fun v hv =>
      (h.assign name e he.1 v hv).bind fun _ _ => .pure hv
  | .update op name e =>
    simp only [Expr.every, Bool.and_eq_true] at he
    obtain ⟨hread, hassign⟩ := h.update op name e he.1
    exact hread.bind fun old _ => (h.plain_value e he.2).bind fun b _ =>
      (Value.plain_combined op old b).bind fun v hv => (hassign v hv).bind fun _ _ => .pure hv

theorem respects_values (h : m.Permits load forceMax I test) (es : List Expr)
    (hes : Expr.everyPart test es = true) : Respects I (Expr.values m load usual forceMax es) := by
  match es with
  | [] => exact .pure trivial
  | e :: es =>
    simp only [Expr.everyPart, Bool.and_eq_true] at hes
    exact (h.plain_value e hes.1).bind fun v _ => (h.respects_values es hes.2).bind fun vs _ =>
      .pure trivial

end

theorem plain_valueWithin (h : m.Permits load false I test) {e : Expr} (he : e.every test = true) :
    Plain I (m.valueWithin load e) := by
  unfold valueWithin
  split
  · exact h.plain_value e he
  · exact .fail trivial

/-- So it does when its program is evaluated. -/
theorem plain_evaluate (h : m.Permits m.load false I test)
    (hcharged : ∀ w, I w → I { w with charged := 0 }) {e : Expr} (hcomplete : e.Complete)
    (he : e.every test = true) :
    Ensures I (fun _ => True) (fun result => result.value.isComputed = false)
      (m.evaluate (e.program m.code)) := by
  have hstart : Respects I (modify fun w => { w with charged := 0 }) := .modify hcharged
  refine hstart.bind fun _ _ => ?_
  refine (Ensures.map_iff (f := Evaluation.value) (R := fun v => v.isComputed = false)).mp ?_
  rw [map_value_runProgram_program hcomplete]
  exact h.plain_valueWithin he

end Machine.Permits

end Permits

/-! ## Names that are assigned -/

namespace Expr

/-- If the expression is an assignment, it is one to an allowed name. -/
def assignsAllowed (allowed : String → Bool) : Expr → Bool
  | .assign name _ | .update _ name _ => allowed name
  | _ => true

/-- The expression assigns to allowed names only. -/
def assignsOnly (allowed : String → Bool) : Expr → Bool := every (assignsAllowed allowed)

/-- Where all names are allowed an expression assigns to allowed names. -/
theorem assignsOnly_of_forall {allowed : String → Bool} (h : ∀ name, allowed name = true)
    (e : Expr) : e.assignsOnly allowed = true :=
  every_of_forall (fun e => by cases e <;> simp [assignsAllowed, h]) e

end Expr

/-- The sources that are evaluated when the value is read assign to allowed names only. -/
def Value.assignsOnly (allowed : String → Bool) : Value → Bool
  | .computed base source =>
      Expr.treePasses (·.assignsOnly allowed) (Expr.parse source) && base.assignsOnly allowed
  | _ => true

/-- The placeholders of a template assign to allowed names only. -/
def templateAssignsOnly (allowed : String → Bool) (text : String) : Bool :=
  Expr.treePasses (·.assignsOnly allowed) (Expr.parseTemplate text)

theorem Value.assignsOnly_of_plain {allowed : String → Bool} {value : Value}
    (h : value.isComputed = false) : value.assignsOnly allowed = true := by
  cases value with
  | computed base source => exact nomatch h
  | _ => rfl

theorem Value.assignsOnly_of_forall {allowed : String → Bool} (h : ∀ name, allowed name = true)
    (value : Value) : value.assignsOnly allowed = true := by
  induction value with
  | computed base source ih =>
    rw [assignsOnly, ih, Expr.treePasses_of_forall (Expr.assignsOnly_of_forall h)]
    rfl
  | _ => rfl

/-- The sources of the expansion assign to allowed names only. -/
def Expansion.assignsOnly (allowed : String → Bool) : Expansion → Bool
  | .computed _ base source => (Value.computed base source).assignsOnly allowed
  | .template _ text => templateAssignsOnly allowed text

theorem Expansion.assignsOnly_of_tree {allowed : String → Bool} {x : Expansion} {e : Expr}
    (h : x.assignsOnly allowed = true) (htree : x.tree = .ok e) : e.assignsOnly allowed = true := by
  cases x with
  | computed name base source =>
    exact Expr.treePasses_of_ok (Bool.and_eq_true_iff.mp h).1 (ok_of_mapError htree)
  | template name text => exact Expr.treePasses_of_ok h (ok_of_mapError htree)

/-- A property of the variables, kept by assignments of plain values to allowed names, of bases to
`$tVal`, and by drawing templates. It sees to it that what can be read or drawn assigns to allowed
names only. -/
structure Machine.Confines (P : γ → Prop) (allowed : String → Bool) : Prop where
  stored : ∀ vars name value, P vars → Variables.get? vars name = some value →
    value.assignsOnly allowed = true
  drawn : ∀ vars name text, P vars → (Variables.template? vars name).1 = some text →
    templateAssignsOnly allowed text = true
  draw : ∀ vars name, P vars → P (Variables.template? vars name).2
  assign : ∀ vars name value, P vars → allowed name = true → value.isComputed = false →
    P (Variables.set vars name value)
  base : ∀ vars value, P vars → value.assignsOnly allowed = true →
    P (Variables.set vars baseVariable value)

namespace Machine.Confines

variable {P : γ → Prop} {allowed : String → Bool} {m : Machine}

theorem permits [DiceSource δ] (h : Confines P allowed) {load : String → Eval δ γ Value}
    {forceMax : Bool} (hload : ∀ name, Plain (fun w => P w.vars) (load name)) :
    m.Permits load forceMax (fun w => P w.vars) (Expr.assignsAllowed allowed) where
  read name _ := hload name
  die _ _ sides := m.ensures_roll_of_vars (fun _ _ => trivial) forceMax 1 sides
  dice _ _ _ count sides := m.ensures_roll_of_vars (fun _ _ => trivial) forceMax count sides
  assign name _ hname value hvalue := .modify fun w hw => h.assign w.vars name value hw hname hvalue
  update _ name _ hname :=
    ⟨hload name, fun value hvalue => .modify fun w hw => h.assign w.vars name value hw hname hvalue⟩

section Resolve

variable {expand : Expansion → Eval δ γ Value}

theorem ensures_lookUp (h : Confines P allowed)
    (hexpand : ∀ x, x.assignsOnly allowed = true → Plain (fun w => P w.vars) (expand x))
    (name : String) :
    Ensures (fun w => P w.vars) (fun _ => True) (fun v => v.assignsOnly allowed = true)
      (Machine.lookUp expand name) := by
  intro w hw
  unfold Machine.lookUp
  cases hget : Variables.get? w.vars name with
  | some value => exact ⟨hw, h.stored w.vars name value hw hget⟩
  | none =>
    cases Variables.legacy? w.vars name with
    | some n => exact ⟨hw, rfl⟩
    | none =>
      have hdraw := h.draw w.vars name hw
      have hdrawn := h.drawn w.vars name
      rcases htemplate : Variables.template? w.vars name with ⟨_ | text, vars⟩
      · rw [htemplate] at hdraw
        exact ⟨hdraw, rfl⟩
      · rw [htemplate] at hdraw hdrawn
        have hplain := hexpand (.template name text) (hdrawn text hw rfl)
        exact hplain.mono (fun _ => id) (fun _ => Value.assignsOnly_of_plain) _ hdraw

omit [Variables γ] in
theorem plain_settle
    (hexpand : ∀ x, x.assignsOnly allowed = true → Plain (fun w => P w.vars) (expand x))
    (name : String) {value : Value} (hvalue : value.assignsOnly allowed = true) :
    Plain (fun w => P w.vars) (Machine.settle expand name value) := by
  cases value with
  | computed base source => exact hexpand _ hvalue
  | _ => exact .pure rfl

theorem plain_resolve (h : Confines P allowed)
    (hexpand : ∀ x, x.assignsOnly allowed = true → Plain (fun w => P w.vars) (expand x))
    (name : String) :
    Plain (fun w => P w.vars) (Machine.resolve expand name) := by
  rw [resolve_eq]
  exact (h.ensures_lookUp hexpand name).bind fun _ hvalue => plain_settle hexpand name hvalue

end Resolve

theorem respects_prepare (h : Confines P allowed) {x : Expansion}
    (hx : x.assignsOnly allowed = true) : Respects (fun w : World δ γ => P w.vars) x.prepare := by
  cases x with
  | computed name base source =>
    exact .modify fun w hw => h.base w.vars base hw (Bool.and_eq_true_iff.mp hx).2
  | template name text => exact .pure trivial

variable [DiceSource δ]

/-- By induction on the levels: the names that are read inside have one level less. -/
theorem plain_expandTree (h : Confines P allowed) (levels : Nat) (x : Expansion)
    (hx : x.assignsOnly allowed = true) :
    Plain (fun w => P w.vars) (m.expandTree levels x : Eval δ γ Value) := by
  induction levels generalizing x with
  | zero => exact .fail trivial
  | succ levels ih =>
    rw [expandTree]
    refine (h.respects_prepare hx).bind fun _ _ => .inFrame ?_
    have htree : Ensures (fun w : World δ γ => P w.vars) (fun _ => True)
        (fun e : Expr => e.assignsOnly allowed = true) (Eval.ofExcept x.tree) :=
      .ofExcept (fun e he => Expansion.assignsOnly_of_tree hx he) fun _ _ => trivial
    exact htree.bind fun e he => (h.permits (h.plain_resolve ih)).plain_valueWithin he

theorem plain_load (h : Confines P allowed) (name : String) :
    Plain (fun w => P w.vars) (m.load name : Eval δ γ Value) := by
  rw [Machine.load, expand_eq_expandTree]
  exact h.plain_resolve (h.plain_expandTree m.limits.maxDepth) name

/-- An evaluation keeps the property and comes to a plain value. -/
theorem evaluate (h : Confines P allowed) {e : Expr} (hcomplete : e.Complete)
    (he : e.assignsOnly allowed = true) :
    Ensures (fun w : World δ γ => P w.vars) (fun _ => True)
      (fun result => result.value.isComputed = false) (m.evaluate (e.program m.code)) :=
  (h.permits h.plain_load).plain_evaluate (fun _ => id) hcomplete he

end Machine.Confines

/-! ## Reading or rolling alone -/

namespace Expr

/-- If the expression does anything to its surroundings, it reads one of the variables. -/
def readsAllowed (names : List String) : Expr → Bool
  | .variable name => names.contains name
  | .die _ | .dice _ _ | .assign _ _ | .update _ _ _ => false
  | _ => true

/-- The expression reads no other variables, and does nothing else to its surroundings. -/
def readsOnly (names : List String) : Expr → Bool := every (readsAllowed names)

variable [DiceSource δ] {m : Machine} {names : List String} {w : World δ γ}

/-- What is kept where the variables are read is kept by expressions that do nothing else. -/
theorem permits_readsAllowed {I : World δ γ → Prop} {load : String → Eval δ γ Value}
    (h : ∀ name ∈ names, Plain I (load name)) (forceMax : Bool) :
    m.Permits load forceMax I (readsAllowed names) where
  read name hname := h name (by simpa [readsAllowed] using hname)
  die _ h := nomatch h
  dice _ _ h := nomatch h
  assign _ _ h := nomatch h
  update _ _ _ h := nomatch h

/-- Where a variable holds a plain value, reading it changes nothing. -/
theorem plain_load_of_get? {name : String} {value : Value} {vars : γ}
    (hplain : value.isComputed = false) (hget : Variables.get? vars name = some value) (dice : δ) :
    Plain (fun v : World δ γ => v.dice = dice ∧ v.vars = vars) (m.load name) := by
  rintro v ⟨hdice, hvars⟩
  rw [← hvars] at hget
  rw [Machine.load, Machine.resolve_of_get? _ hplain hget]
  exact ⟨⟨hdice, hvars⟩, hplain⟩

/-- The evaluation of an expression that reads plain variables alone changes nothing. -/
theorem respects_evaluate_of_readsOnly {e : Expr} (hcomplete : e.Complete)
    (he : e.readsOnly names = true) (h : ∀ name ∈ names, ∃ value,
      Variables.get? w.vars name = some value ∧ value.isComputed = false) :
    Respects (fun v : World δ γ => v.dice = w.dice ∧ v.vars = w.vars)
      (m.evaluate (e.program m.code)) := by
  have hread : ∀ name ∈ names,
      Plain (fun v : World δ γ => v.dice = w.dice ∧ v.vars = w.vars) (m.load name) := by
    intro name hname
    obtain ⟨value, hget, hplain⟩ := h name hname
    exact plain_load_of_get? hplain hget w.dice
  exact ((permits_readsAllowed hread false).plain_evaluate (fun _ => id) hcomplete he).mono
    (fun _ => id) fun _ _ => trivial

/-- The expansion of a source that reads nothing keeps what is kept before it is evaluated. -/
theorem plain_expandTree_of_readsNothing {I : World δ γ → Prop} {x : Expansion}
    (hprepare : Respects I x.prepare) (hx : treePasses (·.readsOnly []) x.tree = true)
    (levels : Nat) : Plain I (m.expandTree levels x) := by
  cases levels with
  | zero => exact .fail trivial
  | succ levels =>
    rw [Machine.expandTree]
    refine hprepare.bind fun _ _ => .inFrame ?_
    have htree : Ensures I (fun _ => True) (fun e : Expr => e.readsOnly [] = true)
        (Eval.ofExcept x.tree) :=
      .ofExcept (fun e he => treePasses_of_ok hx he) fun _ _ => trivial
    have hread : ∀ name ∈ ([] : List String),
        Plain I (Machine.resolve (m.expandTree levels) name) :=
      fun _ hname => absurd hname List.not_mem_nil
    exact htree.bind fun e he => (permits_readsAllowed hread false).plain_valueWithin he

/-- Reading a name keeps a property if no computed value is stored under it, and drawing a template
of the name and filling that keeps the property. -/
theorem plain_load_of_draw {I : World δ γ → Prop} {name : String}
    (hstored : ∀ w value, I w → Variables.get? w.vars name = some value → value.isComputed = false)
    (hdraw : ∀ w, I w → I { w with vars := (Variables.template? w.vars name).2 })
    (hdrawn : ∀ w text, I w → (Variables.template? w.vars name).1 = some text →
      treePasses (·.readsOnly []) (parseTemplate text) = true) :
    Plain I (m.load name) := by
  have hlookUp : Plain I (Machine.lookUp (m.expandTree m.limits.maxDepth) name) := by
    intro w hw
    unfold Machine.lookUp
    cases hget : Variables.get? w.vars name with
    | some value => exact ⟨hw, hstored w value hw hget⟩
    | none =>
      cases Variables.legacy? w.vars name with
      | some n => exact ⟨hw, rfl⟩
      | none =>
        have hdraw := hdraw w hw
        have hdrawn := hdrawn w
        rcases htemplate : Variables.template? w.vars name with ⟨_ | text, vars⟩
        · rw [htemplate] at hdraw
          exact ⟨hdraw, rfl⟩
        · rw [htemplate] at hdraw hdrawn
          have htree : treePasses (·.readsOnly []) (Expansion.template name text).tree = true :=
            (treePasses_mapError _ _ _).trans (hdrawn text hw rfl)
          exact plain_expandTree_of_readsNothing (.pure trivial) htree _ _ hdraw
  rw [Machine.load, Machine.expand_eq_expandTree, Machine.resolve_eq]
  refine hlookUp.bind fun value hvalue => ?_
  cases value with
  | computed base source => cases hvalue
  | _ => exact .pure rfl

/-- If the expression does anything to its surroundings, it rolls dice. -/
def rollsAllowed : Expr → Bool
  | .variable _ | .assign _ _ | .update _ _ _ => false
  | _ => true

/-- The evaluation of an expression without variables changes none. -/
theorem respects_evaluate_of_rollsAllowed {e : Expr} (hcomplete : e.Complete)
    (he : e.every rollsAllowed = true) (vars : γ) :
    Respects (fun v : World δ γ => v.vars = vars) (m.evaluate (e.program m.code)) := by
  have hroll : ∀ count sides, Respects (fun v : World δ γ => v.vars = vars)
      (m.roll false count sides) := fun count sides =>
    m.ensures_roll_of_vars (P := (· = vars)) (fun _ _ => trivial) false count sides
  have hpermits : m.Permits m.load false (fun v : World δ γ => v.vars = vars) rollsAllowed :=
    ⟨nofun, fun _ _ => hroll 1, fun _ _ _ => hroll, nofun, nofun⟩
  exact (hpermits.plain_evaluate (fun _ => id) hcomplete he).mono (fun _ => id) fun _ _ => trivial

end Expr

end DiceBot
