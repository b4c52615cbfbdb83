import DiceBot.Machine.Run

/-!
# Computations that may fail

How an evaluation in `Eval` is taken apart: where a sequence of two computations comes from when it
succeeds or fails, and what a frame does to a fault.
-/

namespace DiceBot

namespace Eval

variable {δ γ : Type} {α β : Type} {x y : Eval δ γ α} {f g : α → Eval δ γ β}
variable {w w' : World δ γ}

/-- A sequence runs its second part where the first one has left the surroundings. -/
theorem bind_of_ok {a : α} (h : x w = .ok a w') : (x >>= f) w = f a w' := by
  simp only [bind, EStateM.bind, h]

/-- A sequence fails where its first part does. -/
theorem bind_of_error {fault : Fault} (h : x w = .error fault w') :
    (x >>= f) w = .error fault w' := by
  simp only [bind, EStateM.bind, h]

/-- A sequence depends on its first part only through what that does where it is run. -/
theorem bind_eq_bind (h : x w = y w') : (x >>= f) w = (y >>= f) w' := by
  simp only [bind, EStateM.bind, h]

theorem get_bind (f : World δ γ → Eval δ γ α) : (get >>= f) w = f w w := rfl

theorem modify_bind (change : World δ γ → World δ γ) (f : Unit → Eval δ γ α) :
    (modify change >>= f) w = f () (change w) := rfl

/-- A sequence that succeeds has a first part that succeeds. -/
theorem ok_of_bind {b : β} (h : (x >>= f) w = .ok b w') :
    ∃ a v, x w = .ok a v ∧ f a v = .ok b w' := by
  cases hx : x w with
  | ok a v => exact ⟨a, v, rfl, by rwa [bind_of_ok hx] at h⟩
  | error fault v =>
    rw [bind_of_error hx] at h
    exact nomatch h

/-- A sequence that fails does so in its first part or, after that, in its second. -/
theorem error_of_bind {fault : Fault} (h : (x >>= f) w = .error fault w') :
    x w = .error fault w' ∨ ∃ a v, x w = .ok a v ∧ f a v = .error fault w' := by
  cases hx : x w with
  | ok a v => exact .inr ⟨a, v, rfl, by rwa [bind_of_ok hx] at h⟩
  | error fault' v =>
    rw [bind_of_error hx] at h
    obtain ⟨rfl, rfl⟩ : fault' = fault ∧ v = w' := by simpa using h
    exact .inl rfl

/-- A computation whose result is mapped has the outcome that the map is applied to. -/
theorem ok_of_map {f : α → β} {b : β} (h : (f <$> x) w = .ok b w') :
    ∃ a, x w = .ok a w' ∧ f a = b := by
  cases hx : x w with
  | ok a v =>
    obtain ⟨rfl, rfl⟩ : f a = b ∧ v = w' := by
      simpa only [Functor.map, EStateM.map, hx, EStateM.Result.ok.injEq] using h
    exact ⟨a, rfl, rfl⟩
  | error fault v => simp only [Functor.map, EStateM.map, hx, reduceCtorEq] at h

theorem error_of_map {f : α → β} {fault : Fault} (h : (f <$> x) w = .error fault w') :
    x w = .error fault w' := by
  cases hx : x w with
  | ok a v => simp only [Functor.map, EStateM.map, hx, reduceCtorEq] at h
  | error fault' v =>
    simpa only [Functor.map, EStateM.map, hx, EStateM.Result.error.injEq] using h

/-- What follows a computation matters only for the results that the computation can have. -/
theorem bind_congr_of_ok (h : ∀ w a w', x w = .ok a w' → f a = g a) : x >>= f = x >>= g := by
  funext w
  cases hx : x w with
  | ok a w' => rw [bind_of_ok hx, bind_of_ok hx, h w a w' hx]
  | error fault w' => rw [bind_of_error hx, bind_of_error hx]

end Eval

end DiceBot
