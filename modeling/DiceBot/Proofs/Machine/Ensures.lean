import DiceBot.Proofs.Machine.Eval

/-!
# What a computation ensures

`Eval.Ensures I E Q x` says that `x`, run in surroundings in which `I` holds, leaves surroundings
in which `I` holds, whether it succeeds or fails; its result satisfies `Q`, and the cause of its
fault satisfies `E`. There is one rule for each way in which a computation is put together.
-/

namespace DiceBot

namespace Eval

variable {δ γ α β : Type} {I : World δ γ → Prop} {E E' : Cause → Prop} {Q Q' : α → Prop}
variable {R : β → Prop} {x : Eval δ γ α} {w w' : World δ γ}

/-- The surroundings keep `I`, results satisfy `Q` and causes of faults satisfy `E`. -/
def Ensures (I : World δ γ → Prop) (E : Cause → Prop) (Q : α → Prop) (x : Eval δ γ α) : Prop :=
  ∀ w, I w →
    match x w with
    | .ok a w' => I w' ∧ Q a
    | .error fault w' => I w' ∧ E fault.cause

namespace Ensures

theorem of_ok (h : Ensures I E Q x) (hw : I w) {a : α} (hx : x w = .ok a w') : I w' ∧ Q a := by
  have hrun := h w hw
  rwa [hx] at hrun

theorem of_error (h : Ensures I E Q x) (hw : I w) {fault : Fault} (hx : x w = .error fault w') :
    I w' ∧ E fault.cause := by
  have hrun := h w hw
  rwa [hx] at hrun

protected theorem pure {a : α} (h : Q a) : Ensures I E Q (pure a) := fun _ hw => ⟨hw, h⟩

protected theorem throw {fault : Fault} (h : E fault.cause) : Ensures I E Q (throw fault) :=
  fun _ hw => ⟨hw, h⟩

protected theorem fail {cause : Cause} (h : E cause) : Ensures I E Q (Eval.fail cause) :=
  Ensures.throw h

protected theorem modify {f : World δ γ → World δ γ} (h : ∀ w, I w → I (f w)) :
    Ensures I E (fun _ => True) (modify f) := fun w hw => ⟨h w hw, trivial⟩

/-- What the first part of a sequence ensures of its result the second part may rely on. -/
protected theorem bind {f : α → Eval δ γ β} (hx : Ensures I E Q x)
    (hf : ∀ a, Q a → Ensures I E R (f a)) : Ensures I E R (x >>= f) := by
  intro w hw
  cases hrun : x w with
  | ok a v =>
    obtain ⟨hv, ha⟩ := hx.of_ok hw hrun
    rw [bind_of_ok hrun]
    exact hf a ha v hv
  | error fault v =>
    rw [bind_of_error hrun]
    exact hx.of_error hw hrun

/-- What a function of the result satisfies is what the result satisfies seen through it. -/
theorem map_iff {f : α → β} : Ensures I E R (f <$> x) ↔ Ensures I E (fun a => R (f a)) x := by
  refine forall_congr' fun w => imp_congr_right fun _ => ?_
  cases hrun : x w with
  | ok a v => simp only [Functor.map, EStateM.map, hrun]
  | error fault v => simp only [Functor.map, EStateM.map, hrun]

theorem mono (h : Ensures I E Q x) (hE : ∀ cause, E cause → E' cause) (hQ : ∀ a, Q a → Q' a) :
    Ensures I E' Q' x := by
  intro w hw
  cases hrun : x w with
  | ok a v => exact (h.of_ok hw hrun).imp_right (hQ a)
  | error fault v => exact (h.of_error hw hrun).imp_right (hE fault.cause)

/-- A frame changes the place of a fault and not its cause. -/
protected theorem inFrame {frame : String} (h : Ensures I E Q x) :
    Ensures I E Q (Eval.inFrame frame x) := by
  intro w hw
  cases hrun : x w with
  | ok a v =>
    simp only [Eval.inFrame, hrun]
    exact h.of_ok hw hrun
  | error fault v =>
    have hfault := h.of_error hw hrun
    simp only [Eval.inFrame, hrun]
    exact hfault

protected theorem ofExcept {result : Except Fault α} (hok : ∀ a, result = .ok a → Q a)
    (herror : ∀ fault, result = .error fault → E fault.cause) :
    Ensures I E Q (Eval.ofExcept result) := by
  cases result with
  | ok a => exact .pure (hok a rfl)
  | error fault => exact .throw (herror fault rfl)

protected theorem ofCause {result : Except Cause α} (hok : ∀ a, result = .ok a → Q a)
    (herror : ∀ cause, result = .error cause → E cause) :
    Ensures I E Q (Eval.ofCause result) := by
  cases result with
  | ok a => exact .pure (hok a rfl)
  | error cause => exact .fail (herror cause rfl)

end Ensures

end Eval

end DiceBot
