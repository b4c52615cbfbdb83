import DiceBot.Proofs.Expr.Grammar

/-!
# Formulas

The expressions of plain arithmetic: integers, opposites, and the signs of sums and products. A
formula has a value among the integers of any size (`Formula.exact`), which is defined here without
a machine, and an expression that is its tree (`Formula.tree`).

A formula is regular if all its parts have values of 64 bits and its divisions are possible
(`Formula.Regular`). This is so exactly if no part is at fault on the exact values of its operands,
and otherwise one of the parts at fault is evaluated first (`Formula.firstFault?`,
`Formula.firstFault?_eq_none_iff`).

A source without other tokens than those of plain arithmetic has no other expression than the tree
of a formula (`Grammar.Derives.exists_formula`).
-/

namespace DiceBot

/-! ## Exact values -/

/-- The signs between the operands of a formula. -/
inductive Sign where
  | add
  | sub
  | mul
  | div
  | mod
  deriving DecidableEq

namespace Sign

/-- The operator of a sign. -/
def operator : Sign → Operator
  | .add => .add
  | .sub => .sub
  | .mul => .mul
  | .div => .div
  | .mod => .mod

theorem operator_injective {a b : Sign} (h : a.operator = b.operator) : a = b := by
  cases a <;> cases b <;> first | rfl | exact nomatch h

/-- The exact result. Quotients are truncated toward zero, and a remainder has the sign of the
dividend. -/
def exact : Sign → Int → Int → Int
  | .add, a, b => a + b
  | .sub, a, b => a - b
  | .mul, a, b => a * b
  | .div, a, b => a.tdiv b
  | .mod, a, b => a.tmod b

/-- Can the result be computed? No divisor is zero, and a remainder is taken only if there is a
quotient of 64 bits to go with it, which the least integer and -1 do not have. -/
def Possible : Sign → Int → Int → Prop
  | .div, _, b => b ≠ 0
  | .mod, a, b => b ≠ 0 ∧ ¬(a = Int64.minValue.toInt ∧ b = -1)
  | _, _, _ => True

instance : ∀ (sign : Sign) (a b : Int), Decidable (sign.Possible a b)
  | .add, _, _ | .sub, _, _ | .mul, _, _ => isTrue trivial
  | .div, _, b => inferInstanceAs (Decidable (b ≠ 0))
  | .mod, a, b => inferInstanceAs (Decidable (b ≠ 0 ∧ ¬(a = Int64.minValue.toInt ∧ b = -1)))

end Sign

/-- An expression of plain arithmetic. -/
inductive Formula where
  | int (n : Int64)
  | opposite (f : Formula)
  | joined (sign : Sign) (left right : Formula)
  deriving DecidableEq

namespace Formula

/-- The expression that a formula is. -/
def tree : Formula → Expr
  | .int n => .int n
  | .opposite f => .negate f.tree
  | .joined sign left right => .binary sign.operator left.tree right.tree

/-- The value of a formula among the integers of any size. -/
def exact : Formula → Int
  | .int n => n.toInt
  | .opposite f => -f.exact
  | .joined sign left right => sign.exact left.exact right.exact

/-- The parts of a formula, itself the last of them, in the order in which they are evaluated. -/
def parts : Formula → List Formula
  | .int n => [.int n]
  | .opposite f => f.parts ++ [.opposite f]
  | .joined sign left right => left.parts ++ right.parts ++ [.joined sign left right]

/-- A tree is that of one formula only. -/
theorem tree_injective {f g : Formula} (h : f.tree = g.tree) : f = g := by
  induction f generalizing g with
  | int n =>
    cases g with
    | int k => rw [Expr.int.inj h]
    | opposite | joined => exact nomatch h
  | opposite f ih =>
    cases g with
    | opposite g => rw [ih (Expr.negate.inj h)]
    | int | joined => exact nomatch h
  | joined sign left right ihl ihr =>
    cases g with
    | joined sign' left' right' =>
      obtain ⟨hsign, hleft, hright⟩ := Expr.binary.inj h
      rw [Sign.operator_injective hsign, ihl hleft, ihr hright]
    | int | opposite => exact nomatch h

theorem self_mem_parts (f : Formula) : f ∈ f.parts := by
  cases f <;> simp [parts]

end Formula

/-- The integers of 64 bits. -/
def InRange (n : Int) : Prop := Int64.minValue.toInt ≤ n ∧ n ≤ Int64.maxValue.toInt

instance : DecidablePred InRange := fun _ => inferInstanceAs (Decidable (_ ∧ _))

theorem inRange_toInt (n : Int64) : InRange n.toInt :=
  ⟨Int64.le_iff_toInt_le.mp (Int64.minValue_le n), Int64.le_iff_toInt_le.mp (Int64.le_maxValue n)⟩

/-- A formula all whose parts have values of 64 bits that can be computed. -/
structure Formula.Regular (f : Formula) : Prop where
  inRange : ∀ g ∈ f.parts, InRange g.exact
  possible : ∀ sign left right, .joined sign left right ∈ f.parts →
    sign.Possible left.exact right.exact

/-! ## Faults -/

/-- What is wrong with an operation on exact operands. -/
def Sign.fault? (sign : Sign) (a b : Int) : Option Cause :=
  if InRange (sign.exact a b) ∧ sign.Possible a b then none
  else if (sign = .div ∨ sign = .mod) ∧ b = 0 then some (.divisionByZero sign.operator.symbol)
  else some (.arithmeticOverflow sign.operator.symbol)

theorem Sign.fault?_eq_none_iff {sign : Sign} {a b : Int} :
    sign.fault? a b = none ↔ InRange (sign.exact a b) ∧ sign.Possible a b := by
  unfold Sign.fault?
  split
  · next h => exact iff_of_true rfl h
  · next h =>
    refine iff_of_false ?_ h
    split <;> nofun

namespace Formula

/-- What is wrong with the outermost operation of a formula, given the exact values of its
operands. -/
def fault? : Formula → Option Cause
  | .int _ => none
  | .opposite f => if InRange (-f.exact) then none else some (.arithmeticOverflow "-")
  | .joined sign left right => sign.fault? left.exact right.exact

/-- What is wrong with the first operation, in the order of evaluation, with which something is
wrong. -/
def firstFault? (f : Formula) : Option Cause := f.parts.findSome? fault?

theorem firstFault?_int (n : Int64) : (int n).firstFault? = none := rfl

theorem firstFault?_opposite (f : Formula) :
    (opposite f).firstFault? =
      f.firstFault?.or (if InRange (-f.exact) then none else some (.arithmeticOverflow "-")) := by
  simp [firstFault?, parts, fault?, List.findSome?_append]

theorem firstFault?_joined (sign : Sign) (left right : Formula) :
    (joined sign left right).firstFault? =
      left.firstFault?.or (right.firstFault?.or (sign.fault? left.exact right.exact)) := by
  simp [firstFault?, parts, fault?, List.findSome?_append]

/-- Nothing is wrong with the outermost operation if its result is of 64 bits and possible. -/
theorem fault?_eq_none_iff {f : Formula} :
    f.fault? = none ↔ InRange f.exact ∧ ∀ sign left right, f = .joined sign left right →
      sign.Possible left.exact right.exact := by
  cases f with
  | int n => exact iff_of_true rfl ⟨inRange_toInt n, nofun⟩
  | opposite f => simp [fault?, exact]
  | joined sign left right => simp [fault?, exact, Sign.fault?_eq_none_iff]

/-- A formula is regular exactly if nothing is wrong with any of its operations. -/
theorem firstFault?_eq_none_iff {f : Formula} : f.firstFault? = none ↔ f.Regular := by
  rw [firstFault?, List.findSome?_eq_none_iff]
  constructor
  · intro h
    exact ⟨fun g hg => (fault?_eq_none_iff.mp (h g hg)).1,
      fun sign left right hg => (fault?_eq_none_iff.mp (h _ hg)).2 sign left right rfl⟩
  · rintro ⟨hrange, hpossible⟩ g hg
    refine fault?_eq_none_iff.mpr ⟨hrange g hg, ?_⟩
    rintro sign left right rfl
    exact hpossible sign left right hg

end Formula

/-! ## Sources of formulas -/

/-- The tokens of plain arithmetic. -/
def TokenKind.isArithmetic : TokenKind → Bool
  | .int _ | .plus | .minus | .star | .slash | .percent | .openParen | .closeParen => true
  | _ => false

namespace Grammar

/-- A phrase of arithmetic tokens is a formula. -/
theorem Derives.exists_formula {n : Nat} {s : Nonterminal} {ks : List TokenKind} {e : Expr}
    (h : Derives n s ks e) (hs : s ≠ .sides) (hks : ∀ k ∈ ks, k.isArithmetic = true) :
    ∃ f : Formula, f.tree = e := by
  induction h with
  | expression _ ih | ofSum _ ih | ofProduct _ ih | ofSigned _ ih | operand _ ih | ofPower _ ih
  | ofDice _ ih | ofPrimary _ ih => exact ih nofun hks
  | sum hk _ _ iha ihb =>
    obtain ⟨f, rfl⟩ := iha nofun fun k hmem => hks k (List.mem_append_left _ hmem)
    obtain ⟨g, rfl⟩ := ihb nofun fun k hmem => hks k (by simp [hmem])
    cases hk with
    | plus => exact ⟨.joined .add f g, rfl⟩
    | minus => exact ⟨.joined .sub f g, rfl⟩
  | product hk _ _ iha ihb =>
    obtain ⟨f, rfl⟩ := iha nofun fun k hmem => hks k (List.mem_append_left _ hmem)
    obtain ⟨g, rfl⟩ := ihb nofun fun k hmem => hks k (by simp [hmem])
    cases hk with
    | star => exact ⟨.joined .mul f g, rfl⟩
    | slash => exact ⟨.joined .div f g, rfl⟩
    | percent => exact ⟨.joined .mod f g, rfl⟩
  | negate _ ih =>
    obtain ⟨f, rfl⟩ := ih nofun fun k hmem => hks k (List.mem_cons_of_mem _ hmem)
    exact ⟨.opposite f, rfl⟩
  | parentheses _ ih => exact ih nofun fun k hmem => hks k (by simp [hmem])
  | int i => exact ⟨.int i, rfl⟩
  | stated | usual => exact absurd rfl hs
  | assign | update | name | text | template | die => exact nomatch hks _ List.mem_cons_self
  | power => exact nomatch hks .caret (by simp)
  | dice => exact nomatch hks .dice (by simp)

end Grammar

end DiceBot
