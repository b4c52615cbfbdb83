import DiceBot.Proofs.Code.Emission
import DiceBot.Proofs.Machine.Eval

/-!
# Expansions

An expansion in its parts: what is read from its source (`Expansion.parsed`), what happens before
its frame is entered (`Expansion.prepare`), and what happens inside it (`Machine.evaluateExpansion`).
Induction on the levels of `Machine.expand` goes through `Machine.expand_succ`.

Reading a name in its parts: finding what the name stands for (`Machine.lookUp`), and evaluating
that if it is a computed value (`Machine.settle`).
-/

namespace DiceBot

variable {δ γ : Type} [Variables γ]

namespace Expansion

/-- Before a computed value is evaluated its base is assigned. -/
def prepare : Expansion → Eval δ γ Unit
  | .computed _ base _ => Eval.assign baseVariable base
  | .template _ _ => pure ()

/-- The text that an expansion is compiled from. -/
def source : Expansion → String
  | .computed _ _ source => source
  | .template _ text => text

/-- What is read from that text. -/
def parsed : Expansion → Except SyntaxFault Expr
  | .computed _ _ source => Expr.parse source
  | .template _ text => Expr.parseTemplate text

/-- The tree of an expansion. -/
def tree (x : Expansion) : Except Fault Expr := x.parsed.mapError (·.toFault x.source)

theorem compile_eq_programOf (settings : CodeSettings) (x : Expansion) :
    x.compile settings = settings.programOf x.source x.parsed := by
  cases x with
  | computed | template => rfl

/-- An expansion is compiled to the program of its tree. -/
theorem compile_eq (settings : CodeSettings) (x : Expansion) :
    x.compile settings = x.tree.map (·.program settings) := by
  rw [compile_eq_programOf, tree]
  cases x.parsed with
  | ok | error => rfl

theorem ok_of_mapError {ε ε' α : Type} {f : ε → ε'} {result : Except ε α} {a : α}
    (h : result.mapError f = .ok a) : result = .ok a := by
  cases result with
  | ok b => exact congrArg Except.ok (Except.ok.inj h)
  | error fault => exact nomatch h

theorem complete_of_parsed {x : Expansion} {e : Expr} (h : x.parsed = .ok e) : e.Complete := by
  cases x with
  | computed name base source => exact Expr.complete_of_parse h
  | template name text => exact Expr.complete_of_parseTemplate h

/-- The tree of an expansion is complete. -/
theorem complete_of_tree {x : Expansion} {e : Expr} (h : x.tree = .ok e) : e.Complete :=
  complete_of_parsed (ok_of_mapError h)

/-- What an expansion is compiled to is the program of a complete tree. -/
theorem exists_of_compile_eq_ok {settings : CodeSettings} {x : Expansion} {p : Program}
    (h : x.compile settings = .ok p) : ∃ e : Expr, e.Complete ∧ p = e.program settings := by
  rw [x.compile_eq_programOf] at h
  obtain ⟨e, hparsed, hprogram⟩ := CodeSettings.programOf_eq_ok_iff.mp h
  exact ⟨e, complete_of_parsed hparsed, hprogram⟩

/-- An expansion that does not compile is refused with the syntax fault of its text. -/
theorem exists_of_compile_eq_error {settings : CodeSettings} {x : Expansion} {fault : Fault}
    (h : x.compile settings = .error fault) :
    ∃ syntaxFault : SyntaxFault, fault = syntaxFault.toFault x.source := by
  rw [x.compile_eq_programOf] at h
  obtain ⟨syntaxFault, -, hfault⟩ := CodeSettings.programOf_eq_error_iff.mp h
  exact ⟨syntaxFault, hfault⟩

theorem malformed_of_compile {settings : CodeSettings} {x : Expansion} {fault : Fault}
    (h : x.compile settings = .error fault) :
    ∃ message offset, fault.cause = .malformed message offset := by
  obtain ⟨syntaxFault, rfl⟩ := exists_of_compile_eq_error h
  exact ⟨_, _, rfl⟩

end Expansion

namespace Machine

section Resolve

variable (expand : Expansion → Eval δ γ Value) (name : String)

/-- What a name stands for: a variable, an older record, a filled template, or a text that says
there is nothing. -/
def lookUp : Eval δ γ Value := fun w =>
  match Variables.get? w.vars name with
  | some value => .ok value w
  | none =>
      match Variables.legacy? w.vars name with
      | some n => .ok (.int n) w
      | none =>
          match Variables.template? w.vars name with
          | (some text, vars) => expand (.template name text) { w with vars }
          | (none, vars) => .ok (.text (undefinedText name)) { w with vars }

/-- Evaluates a computed value; any other value is left as it is. -/
def settle : Value → Eval δ γ Value
  | .computed base source => expand (.computed name base source)
  | value => pure value

theorem resolve_eq : resolve expand name = lookUp expand name >>= settle expand name := by
  funext w
  unfold resolve
  rw [Eval.get_bind]
  cases hget : Variables.get? w.vars name with
  | some value =>
    have hlookUp : lookUp expand name w = (pure value : Eval δ γ Value) w := by
      simp only [lookUp, hget]
      rfl
    rw [Eval.bind_eq_bind hlookUp]
    cases value <;> rfl
  | none =>
    -- the variables are read again for each further kind of record
    dsimp only
    rw [Eval.get_bind]
    cases hlegacy : Variables.legacy? w.vars name with
    | some n =>
      have hlookUp : lookUp expand name w = (pure (.int n) : Eval δ γ Value) w := by
        simp only [lookUp, hget, hlegacy]
        rfl
      rw [Eval.bind_eq_bind hlookUp]
      rfl
    | none =>
      dsimp only
      rw [Eval.get_bind]
      rcases htemplate : Variables.template? w.vars name with ⟨_ | text, vars⟩
      · have hlookUp : lookUp expand name w =
            (pure (.text (undefinedText name)) : Eval δ γ Value) { w with vars } := by
          simp only [lookUp, hget, hlegacy, htemplate]
          rfl
        rw [Eval.bind_eq_bind hlookUp]
        rfl
      · have hlookUp : lookUp expand name w = expand (.template name text) { w with vars } := by
          simp only [lookUp, hget, hlegacy, htemplate]
        rw [Eval.bind_eq_bind hlookUp]
        dsimp only
        rw [Eval.modify_bind]
        refine congrFun (?_ : (_ >>= _ : Eval δ γ Value) = _ >>= _) _
        exact bind_congr fun value => by cases value <;> rfl

end Resolve

variable [DiceSource δ]

/-- Compiles the source of an expansion and runs it. -/
def evaluateExpansion (m : Machine) (load : String → Eval δ γ Value) (x : Expansion) :
    Eval δ γ Value := do
  let p ← Eval.ofExcept (x.compile m.code)
  let result ← m.runProgram load p
  return result.value

theorem expand_succ (m : Machine) (levels : Nat) (x : Expansion) :
    (m.expand (levels + 1) x : Eval δ γ Value) = (do
      x.prepare
      Eval.inFrame x.frame (m.evaluateExpansion (resolve (m.expand levels)) x)) := by
  cases x <;> rfl

end Machine

end DiceBot
