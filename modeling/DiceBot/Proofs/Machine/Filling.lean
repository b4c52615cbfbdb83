import DiceBot.Proofs.Expr.Holes
import DiceBot.Proofs.Machine.TreeEvaluation

/-!
# Filling templates

A template is filled by looking for its placeholders in its text, one after the other, and putting
in the values. What comes of it depends on the positions of the placeholders only
(`substitution_is_positional`): the text that is put in is never looked through, and no placeholder
is found in a place where it does not stand.
-/

namespace DiceBot

variable {δ γ : Type} [DiceSource δ] [Variables γ]

/-- The literals of a template with values between them. -/
def filledText (literals : List (List Char)) (values : List Value) : String :=
  String.ofList (Pattern.splice literals (values.map (·.display.toList)))

namespace Expr

/-- The value of a template: its literals with the values of its placeholders between them. -/
theorem value_template {s : String} {parts : List Expr} (hcomplete : (template s parts).Complete)
    {literals : List (List Char)} (hcut : Hole.Cut 0 s.toList literals (Hole.ofTemplate s))
    (m : Machine) (load : String → Eval δ γ Value) (usual : Int64) (forceMax : Bool) :
    (template s parts).value m load usual forceMax =
      (fun vs => .text (filledText literals vs)) <$> values m load usual forceMax parts := by
  rw [value, map_eq_pure_bind]
  refine Eval.bind_congr_of_ok fun w vs w' hvs => ?_
  have hlength : vs.length = (Hole.ofTemplate s).length := by
    rw [length_of_values hvs, hcomplete.1, placeholderTexts, List.length_map]
  rw [Value.filled, placeholderTexts, hcut.fillTemplate_eq hlength, filledText]

end Expr

namespace Machine

/-- Substitution is positional. The placeholders of a template cut it into literals, one more than
there are placeholders, which hold no placeholders themselves, so blank and unclosed braces are
ordinary text. Looking for the placeholders one after the other finds each at the byte at which it
stands. If the placeholders all compile, the code of the template puts one text on the stack and
leaves what is below as it is: the literals with the values of the placeholders between them,
whatever these are. So does the program of a whole text that is taken as a template. -/
theorem substitution_is_positional (s : String) :
    ∃ literals : List (List Char),
      literals.length = (Hole.ofTemplate s).length + 1 ∧
      s.toList = Pattern.splice literals ((Hole.ofTemplate s).map (·.text.toList)) ∧
      (∀ literal ∈ literals, Hole.ofTemplate (String.ofList literal) = []) ∧
      (∀ hole ∈ Hole.ofTemplate s, Hole.Filled hole.inner) ∧
      Hole.foundAt (placeholderTexts s) 0 s.toList = (Hole.ofTemplate s).map Hole.offset ∧
      (∀ (levels start : Nat) (parts : List Expr),
        Expr.parts (Expr.rules levels) start (Hole.ofTemplate s) = .ok parts →
        parts.length = (Hole.ofTemplate s).length ∧
        ∀ (m : Machine) (load : String → Eval δ γ Value) (usual : Int64) (forceMax : Bool)
            (f : Frame),
          Frame.stack <$> m.runCode load forceMax ((Expr.template s parts).code usual) f =
            (fun values => .text (filledText literals values) :: f.stack) <$>
              Expr.values m load usual forceMax parts) ∧
      ∀ (settings : CodeSettings) (p : Program), settings.compileTemplate s = .ok p →
        p.fault? = none →
        ∃ parts, Expr.parts (Expr.rules Expr.maxNesting) 0 (Hole.ofTemplate s) = .ok parts ∧
          ∀ (m : Machine) (forceMax : Bool) (w : World δ γ),
            (Evaluation.value <$> m.evaluate (p.withForceMax forceMax) : Eval δ γ Value) w =
              ((fun values => .text (filledText literals values)) <$>
                Expr.values m m.load settings.usualSides forceMax parts : Eval δ γ Value)
                { w with charged := 0 } := by
  obtain ⟨literals, hcut⟩ := Hole.exists_cut 0 s.toList
  refine ⟨literals, hcut.length_literals, hcut.eq_splice, ?_, hcut.filled, hcut.foundAt_eq, ?_, ?_⟩
  · intro literal hliteral
    rw [Hole.ofTemplate, String.toList_ofList]
    exact hcut.scan_literals literal hliteral
  · intro levels start parts hparts
    have hcomplete := Expr.complete_of_parts hparts
    refine ⟨by simpa [placeholderTexts] using hcomplete.1, fun m load usual forceMax f => ?_⟩
    -- the stack does not depend on the trace, and the code does to it what the tree says
    rw [map_stack_runCode, Expr.runStack_code m load usual forceMax _ hcomplete,
      Expr.value_template hcomplete hcut, Functor.map_map]
  · intro settings p hp hfits
    obtain ⟨e, htree, rfl⟩ := CodeSettings.programOf_eq_ok_iff.mp hp
    obtain ⟨parts, hparts, rfl⟩ := Expr.parseTemplate_eq_ok_iff.mp htree
    refine ⟨parts, hparts, fun m forceMax w => ?_⟩
    have hcomplete := Expr.complete_of_parts hparts
    rw [Program.fault?_eq_none_iff] at hfits
    rw [evaluate, map_bind, Eval.modify_bind, map_value_runProgram_code
      (p := ((Expr.template s parts).program settings).withForceMax forceMax) hcomplete hfits
      (Expr.toList_code_program hfits)]
    exact congrFun (Expr.value_template hcomplete hcut m m.load _ _) _

/-- A value that looks like another placeholder, and braces that are none. -/
theorem substitution_is_positional_braces :
    let w : World ScriptedDice VariableMap :=
      ⟨⟨[]⟩, ((∅ : VariableMap).insert "a" (.text "\x7bb\x7d")).insert "b" (.int 1), 0⟩
    ∃ (p : Program) (literals : List (List Char)) (parts : List Expr),
      ({} : CodeSettings).compileTemplate "\x7ba\x7d\x7b \x7d\x7bb\x7d\x7ba" = .ok p ∧
      literals.length = 3 ∧
      (Evaluation.value <$> ({} : Machine).evaluate (p.withForceMax false) :
          Eval ScriptedDice VariableMap Value) w =
        ((fun values => .text (filledText literals values)) <$>
          Expr.values {} ({} : Machine).load 100 false parts :
          Eval ScriptedDice VariableMap Value) w := by
  intro w
  obtain ⟨literals, hlength, -, -, -, -, -, hwhole⟩ :=
    substitution_is_positional (δ := ScriptedDice) (γ := VariableMap)
      "\x7ba\x7d\x7b \x7d\x7bb\x7d\x7ba"
  obtain ⟨parts, -, hvalue⟩ := hwhole {} _ rfl rfl
  exact ⟨_, literals, parts, rfl, hlength, hvalue {} false w⟩

/-- What is put in is not looked through. -/
example : fillTemplate [("\x7ba\x7d", .text "\x7bb\x7d"), ("\x7bb\x7d", .int 1)]
    "\x7ba\x7d-\x7bb\x7d".toList = "\x7bb\x7d-1".toList := by
  decide +kernel

end Machine

end DiceBot
