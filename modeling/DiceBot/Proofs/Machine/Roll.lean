import DiceBot.Proofs.Machine.TwoRuns

/-!
# Rolls

A roll has one of three outcomes: nothing is asked for (`Machine.roll_of_nonpos`), more is asked for
than the budget leaves (`Machine.roll_of_refused`), or the dice are charged and their faces added
(`Machine.roll_of_granted`). Two rolls from surroundings with the same charge are alike if the
granted ones are (`Machine.alike_roll`).

How often a source of dice is asked is told by a tally on it (`Tallied`), which changes nothing
else.
-/

namespace DiceBot

open Eval (Alike SameOutcome)

variable {δ γ δ' γ' : Type}

/-! ## Sums of faces -/

/-- Faces that do not come from the dice make the same sum whatever the dice are. -/
theorem exists_sumFaces_const (face : Int64) (n : Nat) (sum : Int64) :
    ∃ sum?, ∀ {δ : Type} (dice : δ),
      sumFaces (fun dice => (face, dice)) n sum dice = (sum?, dice) := by
  induction n generalizing sum with
  | zero => exact ⟨some sum, fun _ => rfl⟩
  | succ n ih =>
    cases hsum : Checked.add? sum face with
    | none => exact ⟨none, fun dice => by simp only [sumFaces, hsum]⟩
    | some sum' =>
      obtain ⟨sum?, h⟩ := ih sum'
      exact ⟨sum?, fun dice => by simp only [sumFaces, hsum, h]⟩

/-- A source of dice with the number of rolls that it has been asked for. -/
structure Tallied (δ : Type) where
  dice : δ
  rolls : Nat := 0

instance [DiceSource δ] : DiceSource (Tallied δ) where
  roll t sides :=
    let (face, dice) := DiceSource.roll t.dice sides
    (face, ⟨dice, t.rolls + 1⟩)

/-- The surroundings without the tally. -/
def World.untallied (w : World (Tallied δ) γ) : World δ γ := ⟨w.dice.dice, w.vars, w.charged⟩

section Tally

variable [DiceSource δ]

/-- The faces are those of the source, and the tally grows by one for each of them. At least one die
is rolled if there are any to roll, and none after the sum has left its range. -/
theorem exists_sumFaces_tallied (sides : Int64) (n : Nat) (sum : Int64) (t : Tallied δ) :
    ∃ rolled, (rolled ≤ n ∧ (0 < n → 0 < rolled)) ∧
      sumFaces (DiceSource.roll · sides) n sum t =
        ((sumFaces (DiceSource.roll · sides) n sum t.dice).1,
          ⟨(sumFaces (DiceSource.roll · sides) n sum t.dice).2, t.rolls + rolled⟩) := by
  induction n generalizing sum t with
  | zero => exact ⟨0, ⟨Nat.le_refl 0, id⟩, rfl⟩
  | succ n ih =>
    rcases hroll : DiceSource.roll t.dice sides with ⟨face, dice⟩
    have htallied : DiceSource.roll t sides = (face, (⟨dice, t.rolls + 1⟩ : Tallied δ)) :=
      congrArg (fun rolled => (rolled.1, (⟨rolled.2, t.rolls + 1⟩ : Tallied δ))) hroll
    cases hsum : Checked.add? sum face with
    | none =>
      refine ⟨1, ⟨by omega, fun _ => by omega⟩, ?_⟩
      simp only [sumFaces, htallied, hroll, hsum]
    | some sum' =>
      obtain ⟨rolled, ⟨hle, -⟩, heq⟩ := ih sum' ⟨dice, t.rolls + 1⟩
      refine ⟨rolled + 1, ⟨by omega, fun _ => by omega⟩, ?_⟩
      simp only [sumFaces, htallied, hroll, hsum, heq]
      rw [Nat.add_right_comm, Nat.add_assoc]

end Tally

namespace Machine

/-! ## The three outcomes of a roll -/

section Roll

variable [DiceSource δ] (m : Machine) (forceMax : Bool) (count sides : Int64) (w : World δ γ)

/-- The dice that the budget leaves. -/
def left (w : World δ γ) : Nat := m.limits.diceBudget - w.charged

/-- The next face of a die. -/
def nextFace (forceMax : Bool) (sides : Int64) (dice : δ) : Int64 × δ :=
  if forceMax then (max sides 0, dice) else DiceSource.roll dice sides

/-- Charges dice and adds their faces. -/
def rollGranted (forceMax : Bool) (n : Nat) (sides : Int64) : Eval δ γ Int64 := fun w =>
  let (sum?, dice) := sumFaces (nextFace forceMax sides) n 0 w.dice
  match sum? with
  | some sum => .ok sum { w with dice, charged := w.charged + n }
  | none => .error ⟨.arithmeticOverflow "d", none⟩ { w with dice, charged := w.charged + n }

/-- Forced faces are the same with any dice, which they leave as they are. -/
theorem exists_sumFaces_forced (sides : Int64) (n : Nat) (sum : Int64) :
    ∃ sum?, ∀ {δ : Type} [DiceSource δ] (dice : δ),
      sumFaces (nextFace true sides) n sum dice = (sum?, dice) := by
  obtain ⟨sum?, h⟩ := exists_sumFaces_const (max sides 0) n sum
  exact ⟨sum?, fun dice => h dice⟩

/-- A tally does not change the faces. It grows at most by their number, and it does grow if any are
to be rolled. -/
theorem exists_sumFaces_nextFace_tallied (forceMax : Bool) (sides : Int64) (n : Nat) (sum : Int64)
    (t : Tallied δ) :
    ∃ rolled, (rolled ≤ n ∧ (forceMax = false → 0 < n → 0 < rolled)) ∧
      sumFaces (nextFace forceMax sides) n sum t =
        ((sumFaces (nextFace forceMax sides) n sum t.dice).1,
          ⟨(sumFaces (nextFace forceMax sides) n sum t.dice).2, t.rolls + rolled⟩) := by
  cases forceMax with
  | false =>
    obtain ⟨rolled, ⟨hle, hpos⟩, h⟩ := exists_sumFaces_tallied sides n sum t
    exact ⟨rolled, ⟨hle, fun _ => hpos⟩, h⟩
  | true =>
    obtain ⟨sum?, h⟩ := exists_sumFaces_forced sides n sum
    refine ⟨0, ⟨Nat.zero_le n, fun hforce => nomatch hforce⟩, ?_⟩
    rw [h t, h t.dice]
    rfl

variable {m forceMax count sides w}

theorem roll_of_nonpos (h : count ≤ 0) : m.roll forceMax count sides w = .ok 0 w := if_pos h

theorem roll_of_refused (hpos : ¬count ≤ 0) (h : m.left w < count.toInt.toNat) :
    m.roll forceMax count sides w = .error ⟨.diceBudget m.limits.diceBudget, none⟩ w := by
  unfold Machine.roll
  rw [if_neg hpos]
  exact if_pos h

theorem roll_of_granted (hpos : ¬count ≤ 0) (h : ¬m.left w < count.toInt.toNat) :
    m.roll forceMax count sides w = rollGranted forceMax count.toInt.toNat sides w := by
  unfold Machine.roll
  rw [if_neg hpos]
  exact if_neg h

/-- Dice are charged whether or not their sum stays in range. -/
theorem after_rollGranted (forceMax : Bool) (n : Nat) (sides : Int64) (w : World δ γ) :
    Eval.after (rollGranted forceMax n sides) w =
      { w with dice := (sumFaces (nextFace forceMax sides) n 0 w.dice).2
               charged := w.charged + n } := by
  unfold Eval.after rollGranted
  rcases sumFaces (nextFace forceMax sides) n 0 w.dice with ⟨_ | sum, dice⟩
  · rfl
  · rfl

/-- Granted rolls have the same outcome if the faces have the same sum. -/
theorem sameOutcome_rollGranted [DiceSource δ'] {R : World δ γ → World δ' γ' → Prop}
    {n : Nat} {v : World δ' γ'}
    (hsum : (sumFaces (nextFace forceMax sides) n 0 w.dice).1 =
      (sumFaces (nextFace forceMax sides) n 0 v.dice).1)
    (hR : R (Eval.after (rollGranted forceMax n sides) w)
      (Eval.after (rollGranted forceMax n sides) v)) :
    SameOutcome R (rollGranted forceMax n sides w) (rollGranted forceMax n sides v) := by
  rw [after_rollGranted, after_rollGranted] at hR
  unfold rollGranted
  generalize sumFaces (nextFace forceMax sides) n 0 w.dice = faces at hsum hR ⊢
  generalize sumFaces (nextFace forceMax sides) n 0 v.dice = faces' at hsum hR ⊢
  obtain ⟨sum?, dice⟩ := faces
  obtain ⟨sum?', dice'⟩ := faces'
  obtain rfl : sum? = sum?' := hsum
  cases sum? with
  | some sum => exact .ok hR
  | none => exact .error hR

/-- Whether a roll is granted depends on the charge alone. -/
theorem alike_roll [DiceSource δ'] {lost : World δ γ → Prop} {R : World δ γ → World δ' γ' → Prop}
    (hlost : ∀ w n, lost w → lost (Eval.after (rollGranted forceMax n sides) w))
    (hcharged : ∀ w v, R w v → w.charged = v.charged)
    (hgranted : ∀ w v n, R w v → n ≤ m.left w → 0 < n →
      lost (Eval.after (rollGranted forceMax n sides) w) ∨
        SameOutcome R (rollGranted forceMax n sides w) (rollGranted forceMax n sides v)) :
    Alike lost R (m.roll forceMax count sides) (m.roll forceMax count sides) := by
  by_cases hcount : count ≤ 0
  · have hnothing : ∀ {δ γ : Type} [DiceSource δ],
        (m.roll forceMax count sides : Eval δ γ Int64) = pure 0 :=
      funext fun w => roll_of_nonpos hcount
    rw [hnothing, hnothing]
    exact .pure 0
  have hwanted : 0 < count.toInt.toNat := by
    have hpos : 0 < count.toInt := by
      have := Int64.lt_iff_toInt_lt.mp (Int64.not_le.mp hcount)
      simpa using this
    omega
  -- equal charges leave equally much, so both rolls are refused or both are granted
  constructor
  · intro w hw
    by_cases hleft : m.left w < count.toInt.toNat
    · rwa [Eval.after_of_error (roll_of_refused hcount hleft)]
    · rw [Eval.after_congr (roll_of_granted hcount hleft)]
      exact hlost w _ hw
  · intro w v hR
    have hv : m.left w = m.left v := by rw [left, left, hcharged w v hR]
    by_cases hleft : m.left w < count.toInt.toNat
    · rw [roll_of_refused hcount hleft, roll_of_refused hcount (hv ▸ hleft)]
      exact .inr (.error hR)
    · have hw : m.roll forceMax count sides w = rollGranted forceMax count.toInt.toNat sides w :=
        roll_of_granted hcount hleft
      rw [Eval.after_congr hw, hw, roll_of_granted hcount (hv ▸ hleft)]
      exact hgranted w v _ hR (Nat.le_of_not_lt hleft) hwanted

/-- Rolls of the same dice are alike, if what else is related has nothing to do with dice. -/
theorem alike_roll_of_same_dice {lost : World δ γ → Prop} {R : World δ γ → World δ γ' → Prop}
    (hlost : ∀ w dice charged, lost w → lost { w with dice, charged })
    (hdice : ∀ w v, R w v → w.dice = v.dice) (hcharged : ∀ w v, R w v → w.charged = v.charged)
    (hR : ∀ w v dice charged, R w v → R { w with dice, charged } { v with dice, charged }) :
    Alike lost R (m.roll forceMax count sides) (m.roll forceMax count sides) := by
  refine alike_roll (fun w n hw => ?_) hcharged fun w v n h _ _ => .inr ?_
  · rw [after_rollGranted]
    exact hlost w _ _ hw
  · refine sameOutcome_rollGranted (by rw [hdice w v h]) ?_
    rw [after_rollGranted, after_rollGranted, ← hdice w v h, ← hcharged w v h]
    exact hR w v _ _ h

end Roll

end Machine

end DiceBot
