import Mathlib.Algebra.Order.Floor.Div
import Mathlib.Logic.Function.Iterate
import Mathlib.Order.Interval.Finset.Nat
import DiceBot.Dice.Uniform

/-!
# Draws are uniform

A draw takes the first number that it accepts, unless too many were refused before it
(`exists_drawBelow_eq`). What makes it fair is a count: as long as the zone ends with a full cycle,
all numbers below the bound are the high halves of equally many accepted numbers (`card_accepted`).
-/

namespace DiceBot

/-- A number is accepted if the low half of its product with the bound lies in the zone. -/
def IsAccepted (size bound zone v : Nat) : Prop := v * bound % size ≤ zone

instance (size bound zone v : Nat) : Decidable (IsAccepted size bound zone v) :=
  inferInstanceAs (Decidable (_ ≤ _))

/-! ## The first number that is accepted -/

section FirstAccepted

variable {σ : Type} (draw : σ → Nat × σ)

/-- The source after some draws. -/
def afterDraws (k : Nat) (s : σ) : σ := (fun s => (draw s).2)^[k] s

/-- The number that is drawn after some others. -/
def nthDrawn (k : Nat) (s : σ) : Nat := (draw (afterDraws draw k s)).1

/-- The number drawn after `k` others is the one that is taken: those before it were refused, and it
is accepted itself unless there is no further redraw. -/
structure TakesNth (size bound zone redraws : Nat) (s : σ) (k : Nat) : Prop where
  le_redraws : k ≤ redraws
  refused : ∀ j < k, ¬IsAccepted size bound zone (nthDrawn draw j s)
  accepted : k < redraws → IsAccepted size bound zone (nthDrawn draw k s)

variable {draw} {size bound zone : Nat}

/-- One more number is refused in front. -/
theorem TakesNth.succ {redraws k : Nat} {s : σ} (hfirst : ¬IsAccepted size bound zone (draw s).1)
    (h : TakesNth draw size bound zone redraws (draw s).2 k) :
    TakesNth draw size bound zone (redraws + 1) s (k + 1) where
  le_redraws := Nat.succ_le_succ h.le_redraws
  refused j hj := by
    cases j with
    | zero => exact hfirst
    | succ j => exact h.refused j (Nat.lt_of_succ_lt_succ hj)
  accepted hlt := h.accepted (Nat.lt_of_succ_lt_succ hlt)

variable (draw size bound zone)

/-- A draw takes one of the numbers of its source and gives the high half of its product with the
bound. -/
theorem exists_drawBelow_eq (redraws : Nat) (s : σ) :
    ∃ k, TakesNth draw size bound zone redraws s k ∧
      drawBelow draw size bound zone redraws s =
        (nthDrawn draw k s * bound / size, afterDraws draw (k + 1) s) := by
  induction redraws generalizing s with
  | zero => exact ⟨0, ⟨Nat.le_refl 0, nofun, nofun⟩, rfl⟩
  | succ redraws ih =>
    rw [drawBelow]
    by_cases hfirst : (draw s).1 * bound % size ≤ zone
    · exact ⟨0, ⟨Nat.zero_le _, nofun, fun _ => hfirst⟩, if_pos hfirst⟩
    · obtain ⟨k, htakes, heq⟩ := ih (draw s).2
      exact ⟨k + 1, htakes.succ hfirst, (if_neg hfirst).trans heq⟩

end FirstAccepted

/-! ## The numbers that are accepted -/

section Count

variable {size bound zone k x v : Nat}

/-- A number is accepted and gives `x` if its product with the bound lies in the first `bound * k`
of the numbers whose high half is `x`. -/
theorem accepted_iff (hzone : zone + 1 = bound * k) (hk : bound * k ≤ size) :
    IsAccepted size bound zone v ∧ v * bound / size = x ↔
      x * size ≤ bound * v ∧ bound * v < x * size + bound * k := by
  have hsize : 0 < size := by omega
  have hparts := Nat.div_add_mod (v * bound) size
  have hmod := Nat.mod_lt (v * bound) hsize
  rw [IsAccepted, Nat.mul_comm bound v]
  constructor
  · rintro ⟨haccepted, rfl⟩
    rw [Nat.mul_comm _ size]
    omega
  · rintro ⟨hle, hlt⟩
    have hhigh : v * bound / size = x := by
      rw [Nat.div_eq_iff hsize]
      omega
    rw [hhigh, Nat.mul_comm size x] at hparts
    exact ⟨by omega, hhigh⟩

/-- What lies below the end of a row of `k` multiples of the bound. -/
theorem lt_ceilDiv_add_iff (hbound : 0 < bound) :
    v < x ⌈/⌉ bound + k ↔ bound * v < x + bound * k := by
  rcases Nat.lt_or_ge v k with hlt | hge
  · have hmul := Nat.mul_lt_mul_of_pos_left hlt hbound
    exact ⟨fun _ => by omega, fun _ => by omega⟩
  · obtain ⟨u, rfl⟩ := Nat.exists_eq_add_of_le hge
    have hceil := ceilDiv_le_iff_le_mul (a := bound) (b := x) (c := u) hbound
    rw [Nat.mul_add]
    omega

/-- Every number below the bound is the high half of equally many accepted numbers. -/
theorem card_accepted (hzone : zone + 1 = bound * k) (hk : bound * k ≤ size) (hx : x < bound) :
    ((Finset.range size).filter fun v =>
      IsAccepted size bound zone v ∧ v * bound / size = x).card = k := by
  have hbound : 0 < bound := Nat.zero_lt_of_lt hx
  -- they are `k` in a row, the first of them at the quotient rounded up
  have hinterval : ((Finset.range size).filter fun v =>
      IsAccepted size bound zone v ∧ v * bound / size = x) =
        Finset.Ico ((x * size) ⌈/⌉ bound) ((x * size) ⌈/⌉ bound + k) := by
    ext v
    rw [Finset.mem_filter, Finset.mem_range, Finset.mem_Ico, accepted_iff hzone hk,
      ceilDiv_le_iff_le_mul hbound, lt_ceilDiv_add_iff hbound]
    refine ⟨And.right, fun h => ⟨?_, h⟩⟩
    have hcycle : (x + 1) * size ≤ bound * size := Nat.mul_le_mul_right size hx
    rw [Nat.succ_mul] at hcycle
    exact Nat.lt_of_mul_lt_mul_left (a := bound) (by omega)
  rw [hinterval, Nat.card_Ico, Nat.add_sub_cancel_left]

end Count

end DiceBot
