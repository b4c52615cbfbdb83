import DiceBot.Proofs.Expr.Grammar
import DiceBot.Proofs.Expr.Tokens

/-!
# What the rules read is in the grammar

Every rule of the parser reads nothing but phrases of its nonterminal, with the tree that it gives
(`ReadsOnly`). There is one lemma for each rule over the rules one level further in, chains of
operators going by induction on their fuel; `rules_readsOnly` ties the levels together.
-/

namespace DiceBot

namespace Grammar

open DiceBot.Expr

/-- The rule that reads a nonterminal, over the rules one level further in. -/
def Nonterminal.rule (inner : Inner) : Nonterminal → Rule
  | .expression => inner.expression
  | .assignment => assignmentRule inner
  | .sum => sumRule inner
  | .product => productRule inner
  | .operand => inner.operand
  | .signed => operandRule inner
  | .power => powerRule inner
  | .dice => diceRule inner
  | .sides => Expr.sides inner
  | .primary => Expr.primary inner

/-- What stands in front of a chain of dice. -/
def firstDice (inner : Inner) : Rule := fun ts =>
  if (peek ts).kind = .dice then do
    let (s, rest) ← Expr.sides inner ts.tail
    Except.ok (.die s, rest)
  else Expr.primary inner ts

theorem diceRule_eq (inner : Inner) (ts : List Token) :
    diceRule inner ts = (do
      let (first, rest) ← firstDice inner ts
      chain joinsDice (Expr.sides inner) rest.length first rest) := by
  unfold diceRule firstDice
  split
  · cases Expr.sides inner ts.tail <;> rfl
  · rfl

/-- A computation that succeeds has a part that succeeds before the rest does. -/
theorem ok_of_bind {ε α β : Type} {x : Except ε α} {f : α → Except ε β} {b : β}
    (h : x >>= f = .ok b) : ∃ a, x = .ok a ∧ f a = .ok b := by
  cases x with
  | error e => exact nomatch h
  | ok a => exact ⟨a, rfl, h⟩

/-- A first kind other than the end of input is that of a first token. -/
theorem exists_cons_of_peek {ts : List Token} {k : TokenKind} (h : (peek ts).kind = k)
    (hk : k ≠ .endOfInput) : ∃ t rest, ts = t :: rest ∧ t.kind = k := by
  cases ts with
  | nil => exact absurd h.symm hk
  | cons t rest => exact ⟨t, rest, rfl, h⟩

/-- A rule that reads nothing but phrases of a nonterminal. -/
def ReadsOnly (n : Nat) (s : Nonterminal) (r : Rule) : Prop :=
  ∀ {ts : List Token} {e : Expr} {rest : List Token}, r ts = .ok (e, rest) →
    ∃ front, ts = front ++ rest ∧ Derives n s (front.map Token.kind) e

/-- The rules one level further in read nothing but phrases. -/
structure InnerReadsOnly (n : Nat) (inner : Inner) : Prop where
  expression : ReadsOnly n .expression inner.expression
  operand : ReadsOnly n .operand inner.operand

section Soundness

variable {n : Nat} {inner : Inner}

/-- A chain prolongs a phrase of the left-associative nonterminal `s` whose further operands are
phrases of `t`. -/
theorem derives_of_chain {s t : Nonterminal} {joins : TokenKind → Option (Expr → Expr → Expr)}
    {operand : Rule} (hend : joins .endOfInput = none) (hoperand : ReadsOnly n t operand)
    (hjoin : ∀ {k join ks ls a b}, joins k = some join → Derives n s ks a → Derives n t ls b →
      Derives n s (ks ++ k :: ls) (join a b))
    {fuel : Nat} {left : Expr} {read ts : List Token} {e : Expr} {rest : List Token}
    (hleft : Derives n s (read.map Token.kind) left)
    (h : chain joins operand fuel left ts = .ok (e, rest)) :
    ∃ front, ts = front ++ rest ∧ Derives n s ((read ++ front).map Token.kind) e := by
  induction fuel generalizing left read ts with
  | zero =>
    obtain ⟨rfl, rfl⟩ : left = e ∧ ts = rest := by simpa [chain] using h
    exact ⟨[], rfl, by simpa using hleft⟩
  | succ fuel ih =>
    rw [chain] at h
    cases hj : joins (peek ts).kind with
    | none =>
      obtain ⟨rfl, rfl⟩ : left = e ∧ ts = rest := by simpa [hj] using h
      exact ⟨[], rfl, by simpa using hleft⟩
    | some join =>
      rw [hj] at h
      -- what joins is not the end of input, so there is a token to take
      obtain ⟨t, ts, rfl, hk⟩ := exists_cons_of_peek (k := (peek ts).kind) rfl
        (fun heq => by rw [heq, hend] at hj; exact nomatch hj)
      rw [← hk] at hj
      obtain ⟨⟨right, ts'⟩, hright, hchain⟩ := ok_of_bind h
      obtain ⟨middle, htail, hb⟩ := hoperand hright
      obtain rfl : ts = middle ++ ts' := htail
      have hread : Derives n s ((read ++ t :: middle).map Token.kind) (join left right) := by
        simpa using hjoin hj hleft hb
      obtain ⟨front, rfl, hd⟩ := ih hread hchain
      exact ⟨t :: middle ++ front, by simp, by simpa using hd⟩

/-- Tokens of a text that are read up to the end of input are read as a whole. -/
theorem map_kind_eq_sentence {start : Nat} {cs : List Char} {front rest : List Token}
    (heq : tokenize start cs = front ++ rest) (hfront : .endOfInput ∉ front.map Token.kind)
    (hend : expectEnd rest = .ok ()) : front.map Token.kind = sentence cs := by
  obtain ⟨ts, last, htokens, hlast, hts⟩ := tokenize_eq_append start cs
  have hpeek : (peek rest).kind = .endOfInput := by
    unfold expectEnd at hend
    split at hend
    · assumption
    · exact nomatch hend
    · exact nomatch hend
  have hsentence : sentence cs = ts.map Token.kind := by
    rw [sentence, map_kind_tokenize 0 start, htokens]
    simp
  rw [hsentence]
  rw [htokens] at heq
  -- the rest starts where the end of input stands, and it stands only at the end
  rcases List.append_eq_append_iff.mp heq with ⟨as, rfl, has⟩ | ⟨as, rfl, has⟩
  · cases as with
    | nil => simp
    | cons a as =>
      obtain ⟨rfl, -⟩ : last = a ∧ [] = as ++ rest := by simpa using has
      exact absurd (by simp [hlast]) hfront
  · cases as with
    | nil => simp
    | cons a as =>
      subst has
      exact absurd hpeek (hts a (by simp))

/-- The expressions of placeholders are those of their texts. -/
theorem derives_of_parts (hinner : ReadsOnly n .expression inner.expression) {start : Nat}
    {holes : List Hole} {es : List Expr} (h : parts inner start holes = .ok es) :
    es.length = holes.length ∧
      ∀ p ∈ holes.zip es, Derives n .expression (sentence p.1.inner) p.2 := by
  induction holes generalizing es with
  | nil =>
    obtain rfl : [] = es := by simpa [parts] using h
    exact ⟨rfl, by simp⟩
  | cons hole holes ih =>
    obtain ⟨e, hpart, h⟩ := ok_of_bind h
    obtain ⟨es', hparts, h⟩ := ok_of_bind h
    obtain rfl : e :: es' = es := Except.ok.inj h
    obtain ⟨hlength, hrest⟩ := ih hparts
    obtain ⟨⟨e', rest⟩, hexpression, h⟩ := ok_of_bind hpart
    obtain ⟨⟨⟩, hend, h⟩ := ok_of_bind h
    obtain rfl : e' = e := Except.ok.inj h
    obtain ⟨front, heq, hd⟩ := hinner hexpression
    -- behind the expression of a placeholder there is only the end of its tokens
    rw [map_kind_eq_sentence heq hd.endOfInput_notMem hend] at hd
    refine ⟨by simp [hlength], ?_⟩
    intro p hp
    rcases List.mem_cons.mp hp with rfl | hp
    · exact hd
    · exact hrest p hp

theorem primary_readsOnly (hinner : ReadsOnly n .expression inner.expression) :
    ReadsOnly n .primary (primary inner) := by
  intro ts e rest h
  cases ts with
  | nil => exact nomatch h
  | cons t ts =>
    obtain ⟨kind, start, stop⟩ := t
    cases kind with
    | int i =>
      obtain ⟨rfl, rfl⟩ := Prod.mk.inj (Except.ok.inj h)
      exact ⟨[_], rfl, .int i⟩
    | name x =>
      obtain ⟨rfl, rfl⟩ := Prod.mk.inj (Except.ok.inj h)
      exact ⟨[_], rfl, .name x⟩
    | text s =>
      obtain ⟨rfl, rfl⟩ := Prod.mk.inj (Except.ok.inj h)
      exact ⟨[_], rfl, .text s⟩
    | template s =>
      obtain ⟨es, hes, h⟩ := ok_of_bind h
      obtain ⟨rfl, rfl⟩ := Prod.mk.inj (Except.ok.inj h)
      obtain ⟨hlength, hparts⟩ := derives_of_parts hinner hes
      exact ⟨[_], rfl, .template hlength hparts⟩
    | openParen =>
      obtain ⟨⟨e', ts'⟩, hexpression, h⟩ := ok_of_bind h
      obtain ⟨ts'', hclose, h⟩ := ok_of_bind h
      obtain ⟨rfl, rfl⟩ := Prod.mk.inj (Except.ok.inj h)
      obtain ⟨front, rfl, hd⟩ := hinner hexpression
      -- the parenthesis is the first token that the expression leaves
      rw [expectClose] at hclose
      split at hclose
      · next hpeek =>
        obtain ⟨close, ts, rfl, hcloseKind⟩ := exists_cons_of_peek hpeek (by decide)
        obtain rfl : ts = ts'' := Except.ok.inj hclose
        exact ⟨⟨.openParen, start, stop⟩ :: front ++ [close], by simp,
          by simpa [hcloseKind] using hd.parentheses⟩
      · exact nomatch hclose
    | _ => exact nomatch h

theorem sides_readsOnly (hinner : ReadsOnly n .expression inner.expression) :
    ReadsOnly n .sides (sides inner) := by
  intro ts e rest h
  rw [sides] at h
  split at h
  · obtain ⟨front, heq, hd⟩ := primary_readsOnly hinner h
    exact ⟨front, heq, .stated hd⟩
  · obtain ⟨rfl, rfl⟩ : .usualSides = e ∧ ts = rest := by simpa using h
    exact ⟨[], rfl, .usual⟩

theorem firstDice_readsOnly (hinner : ReadsOnly n .expression inner.expression) :
    ReadsOnly n .dice (firstDice inner) := by
  intro ts e rest h
  rw [firstDice] at h
  split at h
  · next hpeek =>
    obtain ⟨t, ts, rfl, hk⟩ := exists_cons_of_peek hpeek (by decide)
    obtain ⟨⟨s, ts'⟩, hsides, h⟩ := ok_of_bind h
    obtain ⟨rfl, rfl⟩ : .die s = e ∧ ts' = rest := by simpa using h
    obtain ⟨front, heq, hd⟩ := sides_readsOnly hinner hsides
    obtain rfl : ts = front ++ ts' := heq
    exact ⟨t :: front, rfl, by simpa [hk] using hd.die⟩
  · obtain ⟨front, heq, hd⟩ := primary_readsOnly hinner h
    exact ⟨front, heq, .ofPrimary hd⟩

theorem diceRule_readsOnly (hinner : ReadsOnly n .expression inner.expression) :
    ReadsOnly n .dice (diceRule inner) := by
  intro ts e rest h
  rw [diceRule_eq] at h
  obtain ⟨⟨first, ts'⟩, hfirst, hchain⟩ := ok_of_bind h
  obtain ⟨front, rfl, hd⟩ := firstDice_readsOnly hinner hfirst
  have hjoin {k : TokenKind} {join : Expr → Expr → Expr} {ks ls : List TokenKind} {a b : Expr}
      (hj : joinsDice k = some join) (ha : Derives n .dice ks a) (hb : Derives n .sides ls b) :
      Derives n .dice (ks ++ k :: ls) (join a b) := by
    cases k <;> simp only [joinsDice, reduceCtorEq, Option.some.injEq] at hj
    subst hj
    exact .dice ha hb
  obtain ⟨front', rfl, hd'⟩ := derives_of_chain rfl (sides_readsOnly hinner) hjoin hd hchain
  exact ⟨front ++ front', by simp, hd'⟩

theorem powerRule_readsOnly (hinner : InnerReadsOnly n inner) :
    ReadsOnly n .power (powerRule inner) := by
  intro ts e rest h
  obtain ⟨⟨base, ts'⟩, hbase, hpower⟩ := ok_of_bind h
  obtain ⟨front, rfl, ha⟩ := diceRule_readsOnly hinner.expression hbase
  clear h
  simp only at hpower
  split at hpower
  · next hpeek =>
    obtain ⟨t, ts, rfl, hk⟩ := exists_cons_of_peek hpeek (by decide)
    obtain ⟨⟨exponent, ts''⟩, hexponent, h⟩ := ok_of_bind hpower
    obtain ⟨rfl, rfl⟩ : .binary .pow base exponent = e ∧ ts'' = rest := by
      simpa [pure, Except.pure] using h
    obtain ⟨front', heq, hb⟩ := hinner.operand hexponent
    obtain rfl : ts = front' ++ ts'' := heq
    exact ⟨front ++ t :: front', by simp, by simpa [hk] using ha.power hb⟩
  · obtain ⟨rfl, rfl⟩ : base = e ∧ ts' = rest := by simpa [pure, Except.pure] using hpower
    exact ⟨front, rfl, .ofDice ha⟩

theorem operandRule_readsOnly (hinner : InnerReadsOnly n inner) :
    ReadsOnly n .signed (operandRule inner) := by
  intro ts e rest h
  rw [operandRule] at h
  split at h
  · next hpeek =>
    obtain ⟨t, ts, rfl, hk⟩ := exists_cons_of_peek hpeek (by decide)
    obtain ⟨⟨e', ts'⟩, hoperand, h⟩ := ok_of_bind h
    obtain ⟨rfl, rfl⟩ : .negate e' = e ∧ ts' = rest := by simpa [pure, Except.pure] using h
    obtain ⟨front, heq, hd⟩ := hinner.operand hoperand
    obtain rfl : ts = front ++ ts' := heq
    exact ⟨t :: front, rfl, by simpa [hk] using hd.negate⟩
  · obtain ⟨front, heq, hd⟩ := powerRule_readsOnly hinner h
    exact ⟨front, heq, .ofPower hd⟩

/-- A left-associative rule reads a first operand and a chain behind it. -/
theorem leftAssociative_readsOnly {s t : Nonterminal}
    {joins : TokenKind → Option (Expr → Expr → Expr)} {operand : Rule}
    (hend : joins .endOfInput = none) (hoperand : ReadsOnly n t operand)
    (hfirst : ∀ {ks e}, Derives n t ks e → Derives n s ks e)
    (hjoin : ∀ {k join ks ls a b}, joins k = some join → Derives n s ks a → Derives n t ls b →
      Derives n s (ks ++ k :: ls) (join a b)) :
    ReadsOnly n s (leftAssociative joins operand) := by
  intro ts e rest h
  obtain ⟨⟨first, ts'⟩, hread, hchain⟩ := ok_of_bind h
  obtain ⟨front, rfl, hd⟩ := hoperand hread
  obtain ⟨front', rfl, hd'⟩ := derives_of_chain hend hoperand hjoin (hfirst hd) hchain
  exact ⟨front ++ front', by simp, hd'⟩

theorem productRule_readsOnly (hinner : InnerReadsOnly n inner) :
    ReadsOnly n .product (productRule inner) := by
  refine leftAssociative_readsOnly rfl (operandRule_readsOnly hinner) .ofSigned ?_
  intro k join ks ls a b hj ha hb
  cases k <;> simp only [joinsProduct, reduceCtorEq, Option.some.injEq] at hj
  all_goals subst hj
  · exact .product .star ha hb
  · exact .product .slash ha hb
  · exact .product .percent ha hb

theorem sumRule_readsOnly (hinner : InnerReadsOnly n inner) :
    ReadsOnly n .sum (sumRule inner) := by
  refine leftAssociative_readsOnly rfl (productRule_readsOnly hinner) .ofProduct ?_
  intro k join ks ls a b hj ha hb
  cases k <;> simp only [joinsSum, reduceCtorEq, Option.some.injEq] at hj
  all_goals subst hj
  · exact .sum .plus ha hb
  · exact .sum .minus ha hb

/-- An assigning sign behind a name makes an assignment of what is derived after it. -/
theorem derives_of_assignment? {k : TokenKind} {build : String → Expr → Expr} {x : String}
    {ks : List TokenKind} {e : Expr} (hk : assignment? k = some build)
    (h : Derives n .expression ks e) : Derives n .assignment (.name x :: k :: ks) (build x e) := by
  cases k <;> simp only [assignment?, reduceCtorEq, Option.some.injEq] at hk
  all_goals subst hk
  · exact .assign h
  · exact .update .plus h
  · exact .update .minus h
  · exact .update .star h
  · exact .update .slash h

theorem assignmentRule_readsOnly (hinner : InnerReadsOnly n inner) :
    ReadsOnly n .assignment (assignmentRule inner) := by
  intro ts e rest h
  rw [assignmentRule] at h
  split at h
  · next x build htarget =>
    match ts, htarget with
    | t :: u :: ts, htarget =>
      obtain ⟨⟨e', ts'⟩, hexpression, h⟩ := ok_of_bind h
      obtain ⟨rfl, rfl⟩ : build x e' = e ∧ ts' = rest := by simpa [pure, Except.pure] using h
      obtain ⟨front, heq, hd⟩ := hinner.expression hexpression
      obtain rfl : ts = front ++ ts' := heq
      rw [target?] at htarget
      split at htarget
      · next y hk =>
        obtain ⟨build', hbuild, heq⟩ := Option.map_eq_some_iff.mp htarget
        obtain ⟨rfl, rfl⟩ := Prod.mk.inj heq
        exact ⟨t :: u :: front, rfl, by simpa [hk] using derives_of_assignment? hbuild hd⟩
      · exact nomatch htarget
  · obtain ⟨front, heq, hd⟩ := sumRule_readsOnly hinner h
    exact ⟨front, heq, .ofSum hd⟩

end Soundness

/-- The rules with `n` levels left read nothing but phrases nested at most `n` levels deep. -/
theorem rules_readsOnly (n : Nat) : InnerReadsOnly n (rules n) := by
  induction n with
  | zero =>
    constructor
    · intro ts e rest h
      exact nomatch h
    · intro ts e rest h
      exact nomatch h
  | succ n ih =>
    constructor
    · intro ts e rest h
      obtain ⟨front, heq, hd⟩ := assignmentRule_readsOnly ih h
      exact ⟨front, heq, .expression hd⟩
    · intro ts e rest h
      obtain ⟨front, heq, hd⟩ := operandRule_readsOnly ih h
      exact ⟨front, heq, .operand hd⟩

end Grammar

end DiceBot
