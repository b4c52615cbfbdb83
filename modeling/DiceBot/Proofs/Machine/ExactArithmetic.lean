import DiceBot.Proofs.Expr.Formulas
import DiceBot.Proofs.Machine.TreeEvaluation

/-!
# Exact arithmetic

A source of plain arithmetic either evaluates to the exact value of its formula, or it fails with
what is wrong with the operation that is the first, in the order of evaluation, with which something
is wrong (`Machine.evaluate_arithmetic`). The checked operators are right on operands that are exact
(`Sign.apply_operator`), and all operands up to the first fault are; by induction on the formula
(`Formula.value_tree`).
-/

namespace DiceBot

/-! ## Operators on exact operands -/

theorem inRange_iff {n : Int} :
    InRange n ↔ -9223372036854775808 ≤ n ∧ n ≤ 9223372036854775807 := by
  rw [InRange, Int64.toInt_minValue, Int64.toInt_maxValue]
  rfl

theorem toInt_ofInt_of_inRange {n : Int} (h : InRange n) : (Int64.ofInt n).toInt = n := by
  rw [inRange_iff] at h
  exact Int64.toInt_ofInt_of_le (by omega) (by omega)

/-- A checked result is the exact one if that is in range. -/
theorem Checked.ofInt?_eq (n : Int) :
    Checked.ofInt? n = if InRange n then some (Int64.ofInt n) else none := rfl

/-- The quotient of integers of 64 bits is one, unless it is the opposite of the least of them. -/
theorem inRange_tdiv_iff {a b : Int} (ha : InRange a) (hb : b ≠ 0) :
    InRange (a.tdiv b) ↔ ¬(a = Int64.minValue.toInt ∧ b = -1) := by
  have hmin : Int64.minValue.toInt = -9223372036854775808 := rfl
  rw [inRange_iff] at ha ⊢
  by_cases hone : b.natAbs = 1
  · rcases Int.natAbs_eq_iff.mp hone with rfl | rfl
    · rw [Int.natCast_one, Int.tdiv_one]
      omega
    · rw [Int.natCast_one, Int.tdiv_neg, Int.tdiv_one]
      omega
  · have hhalf : (a.tdiv b).natAbs ≤ a.natAbs / 2 := by
      rw [Int.natAbs_tdiv]
      exact Nat.div_le_div_left (by omega) (by omega)
    omega

/-- The checked remainder exists if there is a quotient. -/
theorem mod?_eq {a b : Int64} (hb : b.toInt ≠ 0) :
    Checked.mod? a b =
      if a.toInt = Int64.minValue.toInt ∧ b.toInt = -1 then none
      else Checked.ofInt? (a.toInt.tmod b.toInt) := by
  rw [Checked.mod?, Checked.div?, Checked.ofInt?_eq]
  have hrange := inRange_tdiv_iff (inRange_toInt a) hb
  by_cases hleast : a.toInt = Int64.minValue.toInt ∧ b.toInt = -1
  · rw [if_pos hleast, if_neg fun h => hrange.mp h hleast]
    rfl
  · rw [if_neg hleast, if_pos (hrange.mpr hleast)]
    rfl

namespace Sign

/-- An operation that is possible is at fault only if its result is out of range, and so is a
checked operation. -/
theorem orOverflow_exact (sign : Sign) {a b : Int} (h : sign.Possible a b) :
    sign.operator.orOverflow (Checked.ofInt? (sign.exact a b)) =
      (sign.fault? a b).elim (.ok (Int64.ofInt (sign.exact a b))) .error := by
  have hdivisor : ¬((sign = .div ∨ sign = .mod) ∧ b = 0) := by
    rintro ⟨rfl | rfl, hzero⟩
    · exact h hzero
    · exact h.1 hzero
  rw [Checked.ofInt?_eq, fault?, if_neg hdivisor]
  by_cases hrange : InRange (sign.exact a b)
  · rw [if_pos hrange, if_pos ⟨hrange, h⟩]
    rfl
  · rw [if_neg hrange, if_neg fun hboth => hrange hboth.1]
    rfl

/-- Nothing can be divided by zero. -/
theorem fault?_of_zero {sign : Sign} {a : Int} (h : sign = .div ∨ sign = .mod) :
    sign.fault? a 0 = some (.divisionByZero sign.operator.symbol) := by
  have hpossible : ¬sign.Possible a 0 := by
    rcases h with rfl | rfl
    · exact fun hne => hne rfl
    · exact fun hne => hne.1 rfl
  rw [fault?, if_neg fun hboth => hpossible hboth.2, if_pos ⟨h, rfl⟩]

/-- An operator on integers of 64 bits gives the exact result, or says what is wrong with it. -/
theorem apply_operator (sign : Sign) (a b : Int64) :
    sign.operator.apply a b =
      (sign.fault? a.toInt b.toInt).elim (.ok (Int64.ofInt (sign.exact a.toInt b.toInt)))
        .error := by
  have hzero (h : ¬b = 0) : b.toInt ≠ 0 := fun heq => h (Int64.toInt_inj.mp heq)
  cases sign with
  | add => exact orOverflow_exact .add trivial
  | sub => exact orOverflow_exact .sub trivial
  | mul => exact orOverflow_exact .mul trivial
  | div =>
    by_cases hb : b = 0
    · subst hb
      rw [Int64.toInt_zero, fault?_of_zero (.inl rfl)]
      rfl
    · exact (if_neg hb).trans (orOverflow_exact .div (hzero hb))
  | mod =>
    by_cases hb : b = 0
    · subst hb
      rw [Int64.toInt_zero, fault?_of_zero (.inr rfl)]
      rfl
    · refine (if_neg hb).trans ?_
      rw [mod?_eq (hzero hb)]
      split
      · next hleast =>
        rw [hleast.1, hleast.2]
        rfl
      · next hleast => exact orOverflow_exact .mod ⟨hzero hb, hleast⟩

end Sign

/-! ## Values of formulas -/

namespace Formula

variable {δ γ : Type}

/-- The value of a regular formula is an integer of 64 bits. -/
theorem toInt_ofInt_exact {f : Formula} (h : f.firstFault? = none) :
    (Int64.ofInt f.exact).toInt = f.exact :=
  toInt_ofInt_of_inRange ((firstFault?_eq_none_iff.mp h).inRange f f.self_mem_parts)

theorem negated_int (n : Int64) :
    (Value.int n).negated =
      (if InRange (-n.toInt) then pure (.int (Int64.ofInt (-n.toInt)))
        else Eval.fail (.arithmeticOverflow "-") : Eval δ γ Value) := by
  have hoperand : (Value.int n).operand "-" = .ok n := rfl
  have hneg : Checked.neg? n = if InRange (-n.toInt) then some (Int64.ofInt (-n.toInt)) else none :=
    rfl
  rw [Value.negated, hoperand, Eval.ofCause, pure_bind, hneg]
  by_cases h : InRange (-n.toInt)
  · rw [if_pos h, if_pos h]
  · rw [if_neg h, if_neg h]

theorem combined_int (sign : Sign) (a b : Int64) :
    Value.combined sign.operator (.int a) (.int b) =
      ((sign.fault? a.toInt b.toInt).elim
        (pure (.int (Int64.ofInt (sign.exact a.toInt b.toInt)))) Eval.fail : Eval δ γ Value) := by
  have hcombined : Value.combined sign.operator (.int a) (.int b) =
      (Eval.ofCause (sign.operator.apply a b) >>= fun n => pure (.int n) : Eval δ γ Value) := rfl
  rw [hcombined, sign.apply_operator]
  cases sign.fault? a.toInt b.toInt <;> rfl

variable [DiceSource δ] [Variables γ]

/-- A formula has its exact value, unless something is wrong with it. Operands come first, the left
one before the right one, and an operation is only tried on operands that are exact. -/
theorem value_tree (m : Machine) (load : String → Eval δ γ Value) (usual : Int64) (forceMax : Bool)
    (f : Formula) :
    f.tree.value m load usual forceMax =
      f.firstFault?.elim (pure (.int (Int64.ofInt f.exact))) Eval.fail := by
  induction f with
  | int n =>
    rw [firstFault?_int, exact, Int64.ofInt_toInt]
    rfl
  | opposite f ih =>
    rw [tree, Expr.value, ih, firstFault?_opposite, exact]
    cases hf : f.firstFault? with
    | some cause => rfl
    | none =>
      simp only [Option.elim_none, pure_bind, negated_int, toInt_ofInt_exact hf, Option.none_or]
      split <;> rfl
  | joined sign left right ihl ihr =>
    rw [tree, Expr.value, ihl, ihr, firstFault?_joined, exact]
    cases hl : left.firstFault? with
    | some cause => rfl
    | none =>
      cases hr : right.firstFault? with
      | some cause => rfl
      | none =>
        simp only [Option.elim_none, pure_bind, combined_int, toInt_ofInt_exact hl,
          toInt_ofInt_exact hr, Option.none_or]

end Formula

namespace Machine

variable {δ γ : Type} [DiceSource δ] [Variables γ]

/-- Evaluation of plain arithmetic is exact. A source without other tokens than those of plain
arithmetic, if it compiles without spoiling its program, is a formula. It evaluates to an integer
exactly if the formula is regular, and then to its exact value. Otherwise it fails, with what is
wrong with the first operation, in the order of evaluation, with which something is wrong: a
division by zero or an overflow. -/
theorem evaluate_arithmetic (m : Machine) (settings : CodeSettings) {source : String} {p : Program}
    (hsource : ∀ k ∈ sentence source.toList, k.isArithmetic = true)
    (hp : settings.compile source = .ok p) (hfits : p.fault? = none) (forceMax : Bool)
    (w : World δ γ) :
    ∃ f : Formula, Grammar.Derives 64 .expression (sentence source.toList) f.tree ∧
      (∀ v, (∃ trace w', m.evaluate (p.withForceMax forceMax) w = .ok ⟨.int v, trace⟩ w') ↔
        f.Regular ∧ v.toInt = f.exact) ∧
      (¬f.Regular → ∃ cause, f.firstFault? = some cause ∧
        m.evaluate (p.withForceMax forceMax) w = .error ⟨cause, none⟩ { w with charged := 0 }) := by
  obtain ⟨e, hparse, rfl⟩ := CodeSettings.programOf_eq_ok_iff.mp hp
  have hderives := Grammar.parse_eq_ok_iff.mp hparse
  obtain ⟨f, rfl⟩ := hderives.exists_formula nofun hsource
  refine ⟨f, hderives, ?_⟩
  rw [Program.fault?_eq_none_iff] at hfits
  -- the value of the program is that of the tree, and the tree is told by its first fault
  have hrun :
      (Evaluation.value <$> m.runProgram m.load ((f.tree.program settings).withForceMax forceMax) :
        Eval δ γ Value) = f.firstFault?.elim (pure (.int (Int64.ofInt f.exact))) Eval.fail := by
    rw [← f.value_tree m m.load settings.usualSides forceMax]
    exact map_value_runProgram_code (Expr.complete_of_parse hparse) hfits
      (Expr.toList_code_program hfits)
  have hevaluate :
      (Evaluation.value <$> m.evaluate ((f.tree.program settings).withForceMax forceMax) :
        Eval δ γ Value) w =
        (f.firstFault?.elim (pure (.int (Int64.ofInt f.exact))) Eval.fail : Eval δ γ Value)
          { w with charged := 0 } := by
    rw [evaluate, map_bind, Eval.modify_bind, hrun]
  rw [← Formula.firstFault?_eq_none_iff]
  cases hfault : f.firstFault? with
  | none =>
    rw [hfault] at hevaluate
    obtain ⟨⟨value, trace⟩, hok, hvalue⟩ := Eval.ok_of_map hevaluate
    obtain rfl : value = .int (Int64.ofInt f.exact) := hvalue
    refine ⟨fun v => ⟨?_, ?_⟩, fun h => absurd rfl h⟩
    · rintro ⟨trace', w', heq⟩
      rw [hok] at heq
      have hv : Int64.ofInt f.exact = v :=
        Value.int.inj (congrArg Evaluation.value (EStateM.Result.ok.inj heq).1)
      rw [← hv]
      exact ⟨rfl, Formula.toInt_ofInt_exact hfault⟩
    · rintro ⟨-, hv⟩
      rw [← hv, Int64.ofInt_toInt] at hok
      exact ⟨trace, _, hok⟩
  | some cause =>
    rw [hfault] at hevaluate
    have herror := Eval.error_of_map hevaluate
    refine ⟨fun v => ⟨?_, fun h => absurd h.1 (Option.some_ne_none cause)⟩,
      fun _ => ⟨cause, rfl, herror⟩⟩
    rintro ⟨trace, w', hok⟩
    rw [herror] at hok
    cases hok

/-- A remainder by zero behind a quotient that is truncated toward zero. -/
theorem evaluate_arithmetic_remainder_by_zero :
    ∃ p, ({} : CodeSettings).compile "-7/2+1%(2-2)" = .ok p ∧ p.fault? = none ∧
      ({} : Machine).evaluate (p.withForceMax false)
          (⟨⟨[]⟩, ∅, 0⟩ : World ScriptedDice VariableMap) =
        .error ⟨.divisionByZero "%", none⟩ ⟨⟨[]⟩, ∅, 0⟩ := by
  have hsource : ∀ k ∈ sentence "-7/2+1%(2-2)".toList, k.isArithmetic = true := by decide
  obtain ⟨p, hp, hfits⟩ :
      ∃ p, ({} : CodeSettings).compile "-7/2+1%(2-2)" = .ok p ∧ p.fault? = none := ⟨_, rfl, rfl⟩
  obtain ⟨f, hf, -, hfails⟩ := evaluate_arithmetic {} {} hsource hp hfits false
    (⟨⟨[]⟩, ∅, 0⟩ : World ScriptedDice VariableMap)
  have hparse : Expr.parse "-7/2+1%(2-2)" = .ok (Formula.tree (.joined .add
      (.joined .div (.opposite (.int 7)) (.int 2))
      (.joined .mod (.int 1) (.joined .sub (.int 2) (.int 2))))) := rfl
  obtain rfl := Formula.tree_injective
    (Except.ok.inj ((Grammar.parse_eq_ok_iff.mpr hf).symm.trans hparse))
  obtain ⟨cause, hcause, herror⟩ := hfails (by rw [← Formula.firstFault?_eq_none_iff]; decide)
  obtain rfl : .divisionByZero "%" = cause := Option.some.inj hcause
  exact ⟨p, hp, hfits, herror⟩

end Machine

end DiceBot
