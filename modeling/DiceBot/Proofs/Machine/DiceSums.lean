import DiceBot.Dice.Uniform
import DiceBot.Proofs.Machine.Roll

/-!
# Sums of dice

What is expected of a source of dice is said by `LawfulDice`: a die shows a face between 1 and the
number of its sides, or 0 if it has none. Such faces are never negative, so what a sum is on the way
to the whole only grows. Hence it stays in range all the way if the whole is in range, and a sum in
checked steps is missing exactly if it is not (`sumFaces_of_fits`, `sumFaces_of_exceeds`).

A roll within the budget is the sum of the faces that come next (`Machine.roll_eq_sum_of_faces`).
-/

namespace DiceBot

variable {δ γ : Type}

/-! ## Dice that show faces in range -/

/-- Dice with the right faces: from 1 to the number of sides, and 0 if there are no sides. -/
class LawfulDice (δ : Type) [DiceSource δ] : Prop where
  face_mem (dice : δ) {sides : Int64} (h : 0 < sides) :
    1 ≤ (DiceSource.roll dice sides).1 ∧ (DiceSource.roll dice sides).1 ≤ sides
  face_eq_zero (dice : δ) {sides : Int64} (h : sides ≤ 0) : (DiceSource.roll dice sides).1 = 0

theorem toInt_max (a b : Int64) : (max a b).toInt = max a.toInt b.toInt := by
  have hmax : max a b = if a ≤ b then b else a := rfl
  rw [hmax]
  split
  · next h => exact (Int.max_eq_right (Int64.le_iff_toInt_le.mp h)).symm
  · next h =>
    exact (Int.max_eq_left (Int64.le_iff_toInt_le.mp (Int64.le_of_lt (Int64.not_le.mp h)))).symm

theorem toInt_min (a b : Int64) : (min a b).toInt = min a.toInt b.toInt := by
  have hmin : min a b = if a ≤ b then a else b := rfl
  rw [hmin]
  split
  · next h => exact (Int.min_eq_left (Int64.le_iff_toInt_le.mp h)).symm
  · next h =>
    exact (Int.min_eq_right (Int64.le_iff_toInt_le.mp (Int64.le_of_lt (Int64.not_le.mp h)))).symm

theorem toInt_pos {n : Int64} (h : 0 < n) : 0 < n.toInt := by
  have hlt := Int64.lt_iff_toInt_lt.mp h
  rwa [Int64.toInt_zero] at hlt

theorem toInt_nonpos {n : Int64} (h : n ≤ 0) : n.toInt ≤ 0 := by
  have hle := Int64.le_iff_toInt_le.mp h
  rwa [Int64.toInt_zero] at hle

/-- The faces of a script are moved into the range of the die. -/
instance : LawfulDice ScriptedDice where
  face_mem dice sides h := by
    have hpos := toInt_pos h
    have hface : (DiceSource.roll dice sides).1 = max 1 (min dice.next sides) :=
      congrArg Prod.fst (if_neg (Int64.not_le.mpr h))
    rw [hface, Int64.le_iff_toInt_le, Int64.le_iff_toInt_le, toInt_max, toInt_min, Int64.toInt_one]
    omega
  face_eq_zero dice sides h := congrArg Prod.fst (if_pos h)

/-- A face drawn from a stream is one more than a number below the number of sides. -/
theorem SeededDice.exists_face_eq (dice : SeededDice) {sides : Int64} (h : 0 < sides) :
    ∃ below < sides.toInt.toNat, (DiceSource.roll dice sides).1 = Int64.ofNat (below + 1) := by
  have hpos := toInt_pos h
  have hface := congrArg Prod.fst (if_neg (Int64.not_le.mpr h) : dice.roll sides = _)
  refine ⟨_, ?_, hface⟩
  exact drawBelow_lt (fun stream => UInt64.toNat_lt _) (by omega) maxRedraws dice.stream

instance : LawfulDice SeededDice where
  face_mem dice sides h := by
    obtain ⟨below, hbelow, hface⟩ := dice.exists_face_eq h
    have hlt := Int64.toInt_lt sides
    have hexact : (Int64.ofNat (below + 1)).toInt = ↑(below + 1) :=
      Int64.toInt_ofNat_of_lt (by omega)
    rw [hface, Int64.le_iff_toInt_le, Int64.le_iff_toInt_le, hexact, Int64.toInt_one]
    omega
  face_eq_zero dice sides h := congrArg Prod.fst (if_pos h)

instance {α β : Type} [DiceSource α] [DiceSource β] [LawfulDice α] [LawfulDice β] :
    LawfulDice (α ⊕ β) where
  face_mem dice sides h := by
    cases dice with
    | inl a => exact LawfulDice.face_mem a h
    | inr b => exact LawfulDice.face_mem b h
  face_eq_zero dice sides h := by
    cases dice with
    | inl a => exact LawfulDice.face_eq_zero a h
    | inr b => exact LawfulDice.face_eq_zero b h

/-! ## The faces that come next, and their exact sum -/

/-- The next faces of dice, in the order in which they are drawn, and the dice after them. -/
def drawFaces (draw : δ → Int64 × δ) : Nat → δ → List Int64 × δ
  | 0, dice => ([], dice)
  | n + 1, dice =>
      let (face, dice) := draw dice
      let (faces, dice) := drawFaces draw n dice
      (face :: faces, dice)

/-- The sum of faces as an integer of any size. -/
def exactSum : List Int64 → Int
  | [] => 0
  | face :: faces => face.toInt + exactSum faces

@[simp] theorem exactSum_nil : exactSum [] = 0 := rfl

@[simp] theorem exactSum_cons (face : Int64) (faces : List Int64) :
    exactSum (face :: faces) = face.toInt + exactSum faces := rfl

/-- A sum grown by a number that is not negative is in range if it is not too large. -/
theorem Checked.exists_add? {a b : Int64} (hb : 0 ≤ b.toInt)
    (h : a.toInt + b.toInt ≤ Int64.maxValue.toInt) : ∃ c, Checked.add? a b = some c := by
  have hmin := Int64.le_iff_toInt_le.mp (Int64.minValue_le a)
  exact Option.isSome_iff_exists.mp (Checked.ofInt?_isSome_iff.mpr ⟨by omega, h⟩)

section Draws

variable (draw : δ → Int64 × δ)

theorem drawFaces_succ (n : Nat) (dice : δ) :
    drawFaces draw (n + 1) dice =
      ((draw dice).1 :: (drawFaces draw n (draw dice).2).1, (drawFaces draw n (draw dice).2).2) :=
  rfl

variable {draw}

/-- Faces that are not too small have a sum that is not too small. -/
theorem le_exactSum_drawFaces {low : Int} (h : ∀ dice, low ≤ (draw dice).1.toInt) (n : Nat)
    (dice : δ) : n * low ≤ exactSum (drawFaces draw n dice).1 := by
  induction n generalizing dice with
  | zero => simp [drawFaces]
  | succ n ih =>
    have hface := h dice
    have hrest := ih (draw dice).2
    rw [drawFaces_succ, exactSum_cons, Int.natCast_succ, Int.add_mul]
    omega

/-- Faces that are not too large have a sum that is not too large. -/
theorem exactSum_drawFaces_le {high : Int} (h : ∀ dice, (draw dice).1.toInt ≤ high) (n : Nat)
    (dice : δ) : exactSum (drawFaces draw n dice).1 ≤ n * high := by
  induction n generalizing dice with
  | zero => simp [drawFaces]
  | succ n ih =>
    have hface := h dice
    have hrest := ih (draw dice).2
    rw [drawFaces_succ, exactSum_cons, Int.natCast_succ, Int.add_mul]
    omega

/-- The sum of equal faces is a product. -/
theorem exactSum_drawFaces_of_eq {face : Int} (h : ∀ dice, (draw dice).1.toInt = face) (n : Nat)
    (dice : δ) : exactSum (drawFaces draw n dice).1 = n * face :=
  Int.le_antisymm (exactSum_drawFaces_le (fun dice => Int.le_of_eq (h dice)) n dice)
    (le_exactSum_drawFaces (fun dice => Int.ge_of_eq (h dice)) n dice)

variable (hdraw : ∀ dice, 0 ≤ (draw dice).1.toInt)
include hdraw

theorem exactSum_drawFaces_nonneg (n : Nat) (dice : δ) :
    0 ≤ exactSum (drawFaces draw n dice).1 := by
  have hle := le_exactSum_drawFaces hdraw n dice
  rwa [Int.mul_zero] at hle

/-- If the whole is in range, so is what the sum is on the way to it. -/
theorem sumFaces_of_fits {n : Nat} {sum : Int64} {dice : δ}
    (h : sum.toInt + exactSum (drawFaces draw n dice).1 ≤ Int64.maxValue.toInt) :
    ∃ total, total.toInt = sum.toInt + exactSum (drawFaces draw n dice).1 ∧
      sumFaces draw n sum dice = (some total, (drawFaces draw n dice).2) := by
  induction n generalizing sum dice with
  | zero => exact ⟨sum, (Int.add_zero _).symm, rfl⟩
  | succ n ih =>
    rw [drawFaces_succ, exactSum_cons, ← Int.add_assoc] at h ⊢
    have hrest := exactSum_drawFaces_nonneg hdraw n (draw dice).2
    obtain ⟨sum', hsum⟩ : ∃ sum', Checked.add? sum (draw dice).1 = some sum' :=
      Checked.exists_add? (hdraw dice) (by omega)
    rw [← Checked.toInt_of_ofInt? hsum] at h ⊢
    obtain ⟨total, htotal, heq⟩ := ih h
    refine ⟨total, htotal, ?_⟩
    simp only [sumFaces, hsum, heq]

omit hdraw in
/-- If the whole exceeds the range, the sum leaves it at some face, and no further one is drawn. -/
theorem sumFaces_of_exceeds {n : Nat} {sum : Int64} {dice : δ}
    (h : Int64.maxValue.toInt < sum.toInt + exactSum (drawFaces draw n dice).1) :
    ∃ drawn ≤ n, sumFaces draw n sum dice = (none, (drawFaces draw drawn dice).2) := by
  induction n generalizing sum dice with
  | zero =>
    have hmax := Int64.le_iff_toInt_le.mp (Int64.le_maxValue sum)
    simp only [drawFaces, exactSum_nil, Int.add_zero] at h
    omega
  | succ n ih =>
    rw [drawFaces_succ, exactSum_cons, ← Int.add_assoc] at h
    cases hsum : Checked.add? sum (draw dice).1 with
    | none =>
      refine ⟨1, by omega, ?_⟩
      simp only [sumFaces, hsum, drawFaces]
    | some sum' =>
      rw [← Checked.toInt_of_ofInt? hsum] at h
      obtain ⟨drawn, hle, heq⟩ := ih h
      refine ⟨drawn + 1, by omega, ?_⟩
      simp only [sumFaces, hsum, heq, drawFaces]

end Draws

namespace Machine

variable [DiceSource δ] {m : Machine} {forceMax : Bool} {n : Nat} {sides : Int64} {w : World δ γ}

/-! ## Granted rolls -/

/-- Lawful faces are not negative, and forced ones never are. -/
theorem nextFace_nonneg [LawfulDice δ] (forceMax : Bool) (sides : Int64) (dice : δ) :
    0 ≤ (nextFace forceMax sides dice).1.toInt := by
  cases forceMax with
  | true =>
    have hface : (nextFace true sides dice).1.toInt = max sides.toInt 0 := toInt_max sides 0
    omega
  | false =>
    rcases Int64.lt_or_le 0 sides with h | h
    · have hface := Int64.le_iff_toInt_le.mp (LawfulDice.face_mem dice h).1
      rw [Int64.toInt_one] at hface
      exact Int.le_trans (by decide) hface
    · have hface : (nextFace false sides dice).1 = 0 := LawfulDice.face_eq_zero dice h
      exact Int.le_of_eq (by rw [hface, Int64.toInt_zero])

/-- Granted faces are added if their sum is in range. -/
theorem rollGranted_of_fits [LawfulDice δ] (forceMax : Bool)
    (h : exactSum (drawFaces (nextFace forceMax sides) n w.dice).1 ≤ Int64.maxValue.toInt) :
    ∃ sum, sum.toInt = exactSum (drawFaces (nextFace forceMax sides) n w.dice).1 ∧
      rollGranted forceMax n sides w =
        .ok sum { w with
          dice := (drawFaces (nextFace forceMax sides) n w.dice).2
          charged := w.charged + n } := by
  rw [← Int.zero_add (exactSum _), ← Int64.toInt_zero] at h
  obtain ⟨sum, hsum, heq⟩ := sumFaces_of_fits (nextFace_nonneg forceMax sides) h
  rw [Int64.toInt_zero, Int.zero_add] at hsum
  exact ⟨sum, hsum, by simp only [rollGranted, heq]⟩

/-- Granted faces overflow if their sum is not in range. -/
theorem rollGranted_of_exceeds (forceMax : Bool)
    (h : Int64.maxValue.toInt < exactSum (drawFaces (nextFace forceMax sides) n w.dice).1) :
    ∃ drawn ≤ n, rollGranted forceMax n sides w =
      .error ⟨.arithmeticOverflow "d", none⟩ { w with
        dice := (drawFaces (nextFace forceMax sides) drawn w.dice).2
        charged := w.charged + n } := by
  rw [← Int.zero_add (exactSum _), ← Int64.toInt_zero] at h
  obtain ⟨drawn, hle, heq⟩ := sumFaces_of_exceeds h
  exact ⟨drawn, hle, by simp only [rollGranted, heq]⟩

/-- Forced faces leave the dice alone. -/
theorem drawFaces_forced_snd (sides : Int64) (n : Nat) (dice : δ) :
    (drawFaces (nextFace true sides) n dice).2 = dice := by
  induction n with
  | zero => rfl
  | succ n ih => exact ih

/-- Forced faces are as high as can be, so that their sum is a product. -/
theorem exactSum_drawFaces_forced (sides : Int64) (n : Nat) (dice : δ) :
    exactSum (drawFaces (nextFace true sides) n dice).1 = n * max sides.toInt 0 :=
  exactSum_drawFaces_of_eq (fun _ => toInt_max sides 0) n dice

/-- Dice with sides have a sum between their number and that number times the number of sides. -/
theorem exactSum_drawFaces_mem [LawfulDice δ] (hsides : 0 < sides) (n : Nat) (dice : δ) :
    n ≤ exactSum (drawFaces (DiceSource.roll · sides) n dice).1 ∧
      exactSum (drawFaces (DiceSource.roll · sides) n dice).1 ≤ n * sides.toInt := by
  have hface (dice : δ) :
      1 ≤ (DiceSource.roll dice sides).1.toInt ∧
        (DiceSource.roll dice sides).1.toInt ≤ sides.toInt :=
    (LawfulDice.face_mem dice hsides).imp Int64.le_iff_toInt_le.mp Int64.le_iff_toInt_le.mp
  have hlow := le_exactSum_drawFaces (fun dice => (hface dice).1) n dice
  rw [Int.mul_one] at hlow
  exact ⟨hlow, exactSum_drawFaces_le (fun dice => (hface dice).2) n dice⟩

/-- Dice without sides come to nothing. -/
theorem exactSum_drawFaces_of_nonpos [LawfulDice δ] (hsides : sides ≤ 0) (n : Nat) (dice : δ) :
    exactSum (drawFaces (DiceSource.roll · sides) n dice).1 = 0 := by
  have hface (dice : δ) : (DiceSource.roll dice sides).1.toInt = 0 :=
    congrArg Int64.toInt (LawfulDice.face_eq_zero dice hsides)
  rw [exactSum_drawFaces_of_eq hface, Int.mul_zero]

/-! ## Rolls within the budget -/

/-- A roll is granted if the budget allows it. Without dice this comes to the same as rolling
nothing. -/
theorem roll_of_le_left {count : Int64} (h : count.toInt.toNat ≤ m.left w) :
    m.roll forceMax count sides w = rollGranted forceMax count.toInt.toNat sides w := by
  by_cases hcount : count ≤ 0
  · rw [roll_of_nonpos hcount, Int.toNat_of_nonpos (toInt_nonpos hcount)]
    rfl
  · exact roll_of_granted hcount (Nat.not_lt.mpr h)

/-- A roll within the budget adds the faces that come next, each drawn once and in order. What is
asked of the dice is only that they are lawful.

The sum is exact, or there is an overflow because the exact sum is out of range. It lies between the
number of dice and that number times the number of sides, and is 0 if there are no dice, of which
none is drawn then, or no sides. Forced dice are not drawn, and they give the product, or 0 if their
number is negative. -/
theorem roll_eq_sum_of_faces [LawfulDice δ] (m : Machine) (count sides : Int64) (w : World δ γ)
    (hleft : count.toInt.toNat ≤ m.left w) :
    let n := count.toInt.toNat
    let faces := drawFaces (DiceSource.roll · sides) n w.dice
    let total := exactSum faces.1
    let forced := count.toInt * max sides.toInt 0
    let charged := w.charged + n
    (total ≤ Int64.maxValue.toInt → ∃ sum, sum.toInt = total ∧
      m.roll false count sides w = .ok sum { w with dice := faces.2, charged }) ∧
    (Int64.maxValue.toInt < total → ∃ drawn ≤ n,
      m.roll false count sides w = .error ⟨.arithmeticOverflow "d", none⟩
        { w with dice := (drawFaces (DiceSource.roll · sides) drawn w.dice).2, charged }) ∧
    (0 < count → 0 < sides → count.toInt ≤ total ∧ total ≤ count.toInt * sides.toInt) ∧
    (count ≤ 0 ∨ sides ≤ 0 → total = 0) ∧
    (count ≤ 0 → ∀ forceMax, m.roll forceMax count sides w = .ok 0 w) ∧
    (0 ≤ count →
      (forced ≤ Int64.maxValue.toInt → ∃ sum, sum.toInt = forced ∧
        m.roll true count sides w = .ok sum { w with charged }) ∧
      (Int64.maxValue.toInt < forced →
        m.roll true count sides w =
          .error ⟨.arithmeticOverflow "d", none⟩ { w with charged })) := by
  intro n faces total forced charged
  have hroll (forceMax : Bool) : m.roll forceMax count sides w = rollGranted forceMax n sides w :=
    roll_of_le_left hleft
  refine ⟨fun h => ?sum, fun h => ?overflow, fun hcount hsides => ?bounds, fun h => ?zero,
    fun h forceMax => roll_of_nonpos h, fun hcount => ?forced⟩
  case sum =>
    rw [hroll]
    exact rollGranted_of_fits false h
  case overflow =>
    rw [hroll]
    exact rollGranted_of_exceeds false h
  case bounds =>
    have hn : (n : Int) = count.toInt := Int.toNat_of_nonneg (Int.le_of_lt (toInt_pos hcount))
    have hmem := exactSum_drawFaces_mem hsides n w.dice
    rwa [hn] at hmem
  case zero =>
    rcases h with hcount | hsides
    · have hn : n = 0 := Int.toNat_of_nonpos (toInt_nonpos hcount)
      exact congrArg (fun n => exactSum (drawFaces (DiceSource.roll · sides) n w.dice).1) hn
    · exact exactSum_drawFaces_of_nonpos hsides n w.dice
  case forced =>
    have hn : (n : Int) = count.toInt := Int.toNat_of_nonneg (Int64.le_iff_toInt_le.mp hcount)
    -- forced dice are a way of drawing too, one that leaves the dice where they are
    have htotal : exactSum (drawFaces (nextFace true sides) n w.dice).1 = forced := by
      rw [exactSum_drawFaces_forced, hn]
    refine ⟨fun h => ?_, fun h => ?_⟩
    · obtain ⟨sum, hsum, heq⟩ := rollGranted_of_fits true (htotal ▸ h)
      rw [drawFaces_forced_snd] at heq
      exact ⟨sum, hsum.trans htotal, (hroll true).trans heq⟩
    · obtain ⟨drawn, -, heq⟩ := rollGranted_of_exceeds true (htotal ▸ h)
      rw [drawFaces_forced_snd] at heq
      exact (hroll true).trans heq

/-- Two dice of six sides that show 3 and 7, which is moved to 6, make 9. -/
theorem roll_eq_sum_of_faces_two_dice :
    ∃ sum : Int64, sum.toInt = 9 ∧
      ({} : Machine).roll false 2 6 (⟨⟨[3, 7]⟩, (), 0⟩ : World ScriptedDice Unit) =
        .ok sum ⟨⟨[7]⟩, (), 2⟩ :=
  (roll_eq_sum_of_faces {} 2 6 ⟨(⟨[3, 7]⟩ : ScriptedDice), (), 0⟩ (by decide)).1 (by decide)

/-- A negative number of forced dice is no dice at all, and their sum is not the product then. -/
theorem not_roll_forced_eq_product :
    let w : World ScriptedDice Unit := ⟨⟨[]⟩, (), 0⟩
    (-1 : Int64).toInt.toNat ≤ ({} : Machine).left w ∧
      ({} : Machine).roll true (-1) 6 w = .ok 0 w ∧
      (0 : Int64).toInt ≠ (-1 : Int64).toInt * max (6 : Int64).toInt 0 := by
  refine ⟨by decide, roll_of_nonpos (by decide), by decide⟩

end Machine

end DiceBot
