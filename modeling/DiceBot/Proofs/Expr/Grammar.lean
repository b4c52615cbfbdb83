import DiceBot.Expr.Parser

/-!
# The grammar of expressions

The expressions as a context-free grammar over token kinds, apart from the rules that read them.
A phrase is derived from a nonterminal together with its tree.

* `Derives n s ks e`: the kinds `ks` are a phrase of `s` with the tree `e`, and the derivation
  takes at most `n` nesting levels. A whole expression (at the top, in parentheses, assigned, or in
  a placeholder) and an operand (of a sign or on the right of a power) each take one.
* `looseness` orders the kinds by how far out in an expression they can end a phrase; `bound` is
  the looseness from which on a kind no longer belongs to the phrase before it.
* `Derives.starts`, `Derives.noAssignment`: how a phrase can begin, which is all that the rules look
  at before they decide.
-/

namespace DiceBot

/-- What a text looks like to the grammar: the kinds of its tokens without the end of input. -/
def sentence (cs : List Char) : List TokenKind := ((tokenize 0 cs).map Token.kind).dropLast

namespace Grammar

/-- The syntactic categories, from the loosest to the tightest. -/
inductive Nonterminal where
  /-- An assignment or a sum, one nesting level further in. -/
  | expression
  | assignment
  | sum
  | product
  /-- A signed power, one nesting level further in. -/
  | operand
  | signed
  | power
  | dice
  | sides
  | primary
  deriving DecidableEq

/-- The signs between the summands of a sum. -/
inductive SumSign : TokenKind → Operator → Prop where
  | plus : SumSign .plus .add
  | minus : SumSign .minus .sub

/-- The signs between the factors of a product. -/
inductive ProductSign : TokenKind → Operator → Prop where
  | star : ProductSign .star .mul
  | slash : ProductSign .slash .div
  | percent : ProductSign .percent .mod

/-- The signs that assign the result of an operator. -/
inductive UpdateSign : TokenKind → Operator → Prop where
  | plus : UpdateSign .plusAssign .add
  | minus : UpdateSign .minusAssign .sub
  | star : UpdateSign .starAssign .mul
  | slash : UpdateSign .slashAssign .div

/-- `Derives n s ks e`: the kinds `ks` form a phrase of `s` with the tree `e`, nested at most `n`
levels deep. -/
inductive Derives : Nat → Nonterminal → List TokenKind → Expr → Prop where
  | expression {n : Nat} {ks : List TokenKind} {e : Expr} (h : Derives n .assignment ks e) :
      Derives (n + 1) .expression ks e
  | assign {n : Nat} {x : String} {ks : List TokenKind} {e : Expr}
      (h : Derives n .expression ks e) :
      Derives n .assignment (.name x :: .assign :: ks) (.assign x e)
  | update {n : Nat} {x : String} {k : TokenKind} {op : Operator} {ks : List TokenKind} {e : Expr}
      (hk : UpdateSign k op) (h : Derives n .expression ks e) :
      Derives n .assignment (.name x :: k :: ks) (.update op x e)
  | ofSum {n : Nat} {ks : List TokenKind} {e : Expr} (h : Derives n .sum ks e) :
      Derives n .assignment ks e
  | sum {n : Nat} {k : TokenKind} {op : Operator} {ks ls : List TokenKind} {a b : Expr}
      (hk : SumSign k op) (ha : Derives n .sum ks a) (hb : Derives n .product ls b) :
      Derives n .sum (ks ++ k :: ls) (.binary op a b)
  | ofProduct {n : Nat} {ks : List TokenKind} {e : Expr} (h : Derives n .product ks e) :
      Derives n .sum ks e
  | product {n : Nat} {k : TokenKind} {op : Operator} {ks ls : List TokenKind} {a b : Expr}
      (hk : ProductSign k op) (ha : Derives n .product ks a) (hb : Derives n .signed ls b) :
      Derives n .product (ks ++ k :: ls) (.binary op a b)
  | ofSigned {n : Nat} {ks : List TokenKind} {e : Expr} (h : Derives n .signed ks e) :
      Derives n .product ks e
  | operand {n : Nat} {ks : List TokenKind} {e : Expr} (h : Derives n .signed ks e) :
      Derives (n + 1) .operand ks e
  | negate {n : Nat} {ks : List TokenKind} {e : Expr} (h : Derives n .operand ks e) :
      Derives n .signed (.minus :: ks) (.negate e)
  | ofPower {n : Nat} {ks : List TokenKind} {e : Expr} (h : Derives n .power ks e) :
      Derives n .signed ks e
  | power {n : Nat} {ks ls : List TokenKind} {a b : Expr}
      (ha : Derives n .dice ks a) (hb : Derives n .operand ls b) :
      Derives n .power (ks ++ .caret :: ls) (.binary .pow a b)
  | ofDice {n : Nat} {ks : List TokenKind} {e : Expr} (h : Derives n .dice ks e) :
      Derives n .power ks e
  | dice {n : Nat} {ks ls : List TokenKind} {a b : Expr}
      (ha : Derives n .dice ks a) (hb : Derives n .sides ls b) :
      Derives n .dice (ks ++ .dice :: ls) (.dice a b)
  | die {n : Nat} {ks : List TokenKind} {e : Expr} (h : Derives n .sides ks e) :
      Derives n .dice (.dice :: ks) (.die e)
  | ofPrimary {n : Nat} {ks : List TokenKind} {e : Expr} (h : Derives n .primary ks e) :
      Derives n .dice ks e
  | stated {n : Nat} {ks : List TokenKind} {e : Expr} (h : Derives n .primary ks e) :
      Derives n .sides ks e
  | usual {n : Nat} : Derives n .sides [] .usualSides
  | int {n : Nat} (i : Int64) : Derives n .primary [.int i] (.int i)
  | name {n : Nat} (x : String) : Derives n .primary [.name x] (.variable x)
  | text {n : Nat} (s : String) : Derives n .primary [.text s] (.text s)
  /-- A template whose placeholders, blank ones apart, hold expressions. -/
  | template {n : Nat} {s : String} {es : List Expr}
      (hlength : es.length = (Hole.ofTemplate s).length)
      (h : ∀ p ∈ (Hole.ofTemplate s).zip es, Derives n .expression (sentence p.1.inner) p.2) :
      Derives n .primary [.template s] (.template s es)
  | parentheses {n : Nat} {ks : List TokenKind} {e : Expr} (h : Derives n .expression ks e) :
      Derives n .primary (.openParen :: ks ++ [.closeParen]) e

/-- More levels derive no less. -/
theorem Derives.mono {n m : Nat} {s : Nonterminal} {ks : List TokenKind} {e : Expr}
    (h : Derives n s ks e) (hm : n ≤ m) : Derives m s ks e := by
  induction h generalizing m with
  | expression _ ih =>
    obtain ⟨m, rfl⟩ : ∃ k, m = k + 1 := ⟨m - 1, by omega⟩
    exact .expression (ih (by omega))
  | operand _ ih =>
    obtain ⟨m, rfl⟩ : ∃ k, m = k + 1 := ⟨m - 1, by omega⟩
    exact .operand (ih (by omega))
  | assign _ ih => exact .assign (ih hm)
  | update hk _ ih => exact .update hk (ih hm)
  | ofSum _ ih => exact .ofSum (ih hm)
  | sum hk _ _ iha ihb => exact .sum hk (iha hm) (ihb hm)
  | ofProduct _ ih => exact .ofProduct (ih hm)
  | product hk _ _ iha ihb => exact .product hk (iha hm) (ihb hm)
  | ofSigned _ ih => exact .ofSigned (ih hm)
  | negate _ ih => exact .negate (ih hm)
  | ofPower _ ih => exact .ofPower (ih hm)
  | power _ _ iha ihb => exact .power (iha hm) (ihb hm)
  | ofDice _ ih => exact .ofDice (ih hm)
  | dice _ _ iha ihb => exact .dice (iha hm) (ihb hm)
  | die _ ih => exact .die (ih hm)
  | ofPrimary _ ih => exact .ofPrimary (ih hm)
  | stated _ ih => exact .stated (ih hm)
  | usual => exact .usual
  | int i => exact .int i
  | name x => exact .name x
  | text s => exact .text s
  | template hlength _ ih => exact .template hlength fun p hp => ih p hp hm
  | parentheses _ ih => exact .parentheses (ih hm)

/-! ## Looseness of token kinds

Where a kind may stand behind a phrase. A phrase of a nonterminal goes on as long as the next kind
is tighter than its `bound`, so a kind at least that loose ends it. -/

/-- How far out a kind can stand behind an operand: starts of operands bind tightest, then `d`, the
power sign, the signs of products, of sums, and of assignments; what ends every phrase is the
loosest. -/
def looseness : TokenKind → Nat
  | .int _ => 0
  | .name _ => 0
  | .text _ => 0
  | .template _ => 0
  | .openParen => 0
  | .dice => 1
  | .caret => 2
  | .star => 3
  | .slash => 3
  | .percent => 3
  | .plus => 4
  | .minus => 4
  | .assign => 5
  | .plusAssign => 5
  | .minusAssign => 5
  | .starAssign => 5
  | .slashAssign => 5
  | .closeParen => 6
  | .endOfInput => 6
  | .invalid _ => 6

/-- A kind of at least this looseness does not belong to a phrase before it. -/
def Nonterminal.bound : Nonterminal → Nat
  | .primary => 0
  | .sides => 1
  | .dice => 2
  | .power => 3
  | .signed => 3
  | .operand => 3
  | .product => 4
  | .sum => 5
  | .assignment => 6
  | .expression => 6

theorem startsOperand_iff_looseness {k : TokenKind} : k.startsOperand = true ↔ looseness k = 0 := by
  cases k with
  | int | name | text | template | openParen => exact iff_of_true rfl rfl
  | _ => exact iff_of_false nofun nofun

theorem SumSign.looseness_eq {k : TokenKind} {op : Operator} (h : SumSign k op) :
    looseness k = 4 := by
  cases h <;> rfl

theorem ProductSign.looseness_eq {k : TokenKind} {op : Operator} (h : ProductSign k op) :
    looseness k = 3 := by
  cases h <;> rfl

theorem UpdateSign.looseness_eq {k : TokenKind} {op : Operator} (h : UpdateSign k op) :
    looseness k = 5 := by
  cases h <;> rfl

/-! ## How phrases begin -/

/-- The first kind of a phrase is tighter than this. -/
def Nonterminal.startBound : Nonterminal → Nat
  | .primary => 1
  | .dice => 2
  | .power => 2
  | _ => 5

/-- A phrase is empty only where the sides of a die are left out, and it starts with an operand, a
`d` or a sign, as its nonterminal allows. -/
theorem Derives.starts {n : Nat} {s : Nonterminal} {ks : List TokenKind} {e : Expr}
    (h : Derives n s ks e) (hs : s ≠ .sides) :
    ∃ k ls, ks = k :: ls ∧ looseness k < s.startBound := by
  induction h with
  | expression _ ih | operand _ ih | ofSum _ ih | ofProduct _ ih | ofSigned _ ih | ofDice _ ih =>
    exact ih nofun
  | ofPower _ ih | ofPrimary _ ih =>
    obtain ⟨k, ls, rfl, hk⟩ := ih nofun
    exact ⟨k, ls, rfl, by simp only [Nonterminal.startBound] at hk ⊢; omega⟩
  -- an operator between two phrases starts as the first of them
  | sum _ _ _ iha _ | product _ _ _ iha _ =>
    obtain ⟨k, ls, rfl, hk⟩ := iha nofun
    exact ⟨k, _, rfl, hk⟩
  | power _ _ iha _ | dice _ _ iha _ =>
    obtain ⟨k, ls, rfl, hk⟩ := iha nofun
    exact ⟨k, _, rfl, hk⟩
  | stated | usual => exact absurd rfl hs
  | assign | update | negate | die | int | name | text | template | parentheses =>
    exact ⟨_, _, rfl, by simp [looseness, Nonterminal.startBound]⟩

theorem Derives.ne_nil {n : Nat} {s : Nonterminal} {ks : List TokenKind} {e : Expr}
    (h : Derives n s ks e) (hs : s ≠ .sides) : ks ≠ [] := by
  obtain ⟨k, ls, rfl, -⟩ := h.starts hs
  exact List.cons_ne_nil k ls

/-- Kinds that do not start with a name and an assigning sign. -/
def NoAssignment (ks : List TokenKind) : Prop :=
  ∀ x k ls, ks = .name x :: k :: ls → looseness k ≠ 5

/-- A phrase prolonged by a sign that assigns nothing starts no assignment if it did not before. -/
theorem NoAssignment.append {ks ls : List TokenKind} {k : TokenKind} (h : NoAssignment ks)
    (hne : ks ≠ []) (hk : looseness k ≠ 5) : NoAssignment (ks ++ k :: ls) := by
  intro x l ms heq
  match ks, hne with
  | [_], _ =>
    obtain ⟨-, rfl, -⟩ : _ ∧ k = l ∧ ls = ms := by simpa using heq
    exact hk
  | _ :: l' :: _, _ =>
    obtain ⟨rfl, rfl, -⟩ : _ ∧ l' = l ∧ _ = ms := by simpa using heq
    exact h x l' _ rfl

/-- Only an assignment starts with a name and an assigning sign. -/
theorem Derives.noAssignment {n : Nat} {s : Nonterminal} {ks : List TokenKind} {e : Expr}
    (h : Derives n s ks e) (hexpression : s ≠ .expression) (hassignment : s ≠ .assignment) :
    NoAssignment ks := by
  induction h with
  | expression => exact absurd rfl hexpression
  | assign | update | ofSum => exact absurd rfl hassignment
  | operand _ ih | ofProduct _ ih | ofSigned _ ih | ofPower _ ih | ofDice _ ih | ofPrimary _ ih
  | stated _ ih => exact ih nofun nofun
  -- the sign of an operator assigns nothing, and neither does what stands before it
  | sum hk ha _ iha _ =>
    exact (iha nofun nofun).append (ha.ne_nil nofun) (by rw [hk.looseness_eq]; decide)
  | product hk ha _ iha _ =>
    exact (iha nofun nofun).append (ha.ne_nil nofun) (by rw [hk.looseness_eq]; decide)
  | power ha _ iha _ | dice ha _ iha _ =>
    exact (iha nofun nofun).append (ha.ne_nil nofun) (by decide)
  | negate | die | usual | int | name | text | template | parentheses => nofun

/-- No phrase contains the end of input. -/
theorem Derives.endOfInput_notMem {n : Nat} {s : Nonterminal} {ks : List TokenKind} {e : Expr}
    (h : Derives n s ks e) : .endOfInput ∉ ks := by
  induction h with
  | update hk _ ih => cases hk <;> simpa using ih
  | sum hk _ _ iha ihb => cases hk <;> simpa using ⟨iha, ihb⟩
  | product hk _ _ iha ihb => cases hk <;> simpa using ⟨iha, ihb⟩
  | power _ _ iha ihb => simpa using ⟨iha, ihb⟩
  | dice _ _ iha ihb => simpa using ⟨iha, ihb⟩
  | _ => simp_all

end Grammar

end DiceBot
