import DiceBot.Proofs.Expr.Soundness

/-!
# What is in the grammar is read

A phrase in front of tokens that cannot prolong it is read whole, with its tree, by the rule of its
nonterminal (`Derives.rule_eq`).

The induction is on the derivation. A left-associative phrase may still be prolonged by its own
operators, so what is held of it (`Reads`) is that its rule has come to where it looks for one
(`resume`): the fuel that is left then still covers the tokens that are left.
-/

namespace DiceBot

namespace Grammar

open DiceBot.Expr

/-- How a rule goes on behind a phrase that it has read: only the left-associative rules look for an
operator that prolongs it. -/
def Nonterminal.resume (inner : Inner) (fuel : Nat) (e : Expr) : Nonterminal → Rule
  | .sum => chain joinsSum (productRule inner) fuel e
  | .product => chain joinsProduct (operandRule inner) fuel e
  | .dice => chain joinsDice (Expr.sides inner) fuel e
  | _ => fun ts => .ok (e, ts)

/-- A kind of at least this looseness does not belong to the last operand of a phrase before it,
though it may prolong the phrase. -/
def Nonterminal.operandBound : Nonterminal → Nat
  | .sum => 4
  | .product => 3
  | .dice => 1
  | s => s.bound

theorem Nonterminal.operandBound_le (s : Nonterminal) : s.operandBound ≤ s.bound := by
  cases s <;> decide

/-- The rule of `s` reads `front` as a phrase with the tree `e` in front of all tokens that do not
belong to its last operand, and resumes there. -/
def Reads (n : Nat) (s : Nonterminal) (front : List Token) (e : Expr) : Prop :=
  ∀ rest : List Token, s.operandBound ≤ looseness (peek rest).kind →
    ∃ fuel, rest.length ≤ fuel ∧
      s.rule (rules n) (front ++ rest) = s.resume (rules n) fuel e rest

/-- A chain ends at a kind that does not join. -/
theorem chain_eq_ok {joins : TokenKind → Option (Expr → Expr → Expr)} {ts : List Token}
    (h : joins (peek ts).kind = none) (operand : Rule) (fuel : Nat) (e : Expr) :
    chain joins operand fuel e ts = .ok (e, ts) := by
  cases fuel with
  | zero => rfl
  | succ fuel => rw [chain, h]

theorem joinsSum_eq_none {k : TokenKind} (h : 5 ≤ looseness k) : joinsSum k = none := by
  cases k <;> simp_all [joinsSum, looseness]

theorem joinsProduct_eq_none {k : TokenKind} (h : 4 ≤ looseness k) : joinsProduct k = none := by
  cases k <;> simp_all [joinsProduct, looseness]

theorem joinsDice_eq_none {k : TokenKind} (h : 2 ≤ looseness k) : joinsDice k = none := by
  cases k <;> simp_all [joinsDice, looseness]

theorem SumSign.joinsSum_eq {k : TokenKind} {op : Operator} (h : SumSign k op) :
    joinsSum k = some (.binary op) := by
  cases h <;> rfl

theorem ProductSign.joinsProduct_eq {k : TokenKind} {op : Operator} (h : ProductSign k op) :
    joinsProduct k = some (.binary op) := by
  cases h <;> rfl

theorem UpdateSign.assignment?_eq {k : TokenKind} {op : Operator} (h : UpdateSign k op) :
    assignment? k = some (.update op) := by
  cases h <;> rfl

/-- In front of tokens that cannot prolong the phrase there is nothing to resume. -/
theorem Nonterminal.resume_eq_ok {s : Nonterminal} {rest : List Token}
    (h : s.bound ≤ looseness (peek rest).kind) (inner : Inner) (fuel : Nat) (e : Expr) :
    s.resume inner fuel e rest = .ok (e, rest) := by
  cases s with
  | sum => exact chain_eq_ok (joinsSum_eq_none h) _ _ _
  | product => exact chain_eq_ok (joinsProduct_eq_none h) _ _ _
  | dice => exact chain_eq_ok (joinsDice_eq_none h) _ _ _
  | _ => rfl

/-- In front of tokens that cannot prolong it a phrase is read whole. -/
theorem Reads.rule_eq {n : Nat} {s : Nonterminal} {front rest : List Token} {e : Expr}
    (h : Reads n s front e) (hrest : s.bound ≤ looseness (peek rest).kind) :
    s.rule (rules n) (front ++ rest) = .ok (e, rest) := by
  obtain ⟨fuel, -, heq⟩ := h rest (Nat.le_trans s.operandBound_le hrest)
  rw [heq, Nonterminal.resume_eq_ok hrest]

/-- A phrase whose rule looks for no operator behind it is read if it is read whole. -/
theorem Reads.of_rule_eq {n : Nat} {s : Nonterminal} {front : List Token} {e : Expr}
    (hresume : ∀ (fuel : Nat) (rest : List Token),
      s.resume (rules n) fuel e rest = .ok (e, rest))
    (h : ∀ rest : List Token, s.operandBound ≤ looseness (peek rest).kind →
      s.rule (rules n) (front ++ rest) = .ok (e, rest)) : Reads n s front e :=
  fun rest hrest => ⟨rest.length, Nat.le_refl _, by rw [h rest hrest, hresume]⟩

/-- An operator and an operand behind a phrase of a left-associative nonterminal prolong it. -/
theorem Reads.prolong {n : Nat} {s : Nonterminal} {joins : TokenKind → Option (Expr → Expr → Expr)}
    {operand : Rule} {join : Expr → Expr → Expr} {a b : Expr} {left right : List Token} {t : Token}
    (hresume : ∀ fuel e, s.resume (rules n) fuel e = chain joins operand fuel e)
    (ht : s.operandBound ≤ looseness t.kind) (hjoin : joins t.kind = some join)
    (ha : Reads n s left a)
    (hb : ∀ rest : List Token, s.operandBound ≤ looseness (peek rest).kind →
      operand (right ++ rest) = .ok (b, rest)) :
    Reads n s (left ++ t :: right) (join a b) := by
  intro rest hrest
  obtain ⟨fuel, hfuel, heq⟩ := ha (t :: (right ++ rest)) ht
  simp only [List.length_cons, List.length_append] at hfuel
  -- the operator costs one unit of fuel, its operand none
  obtain ⟨fuel, rfl⟩ : ∃ k, fuel = k + 1 := ⟨fuel - 1, by omega⟩
  refine ⟨fuel, by omega, ?_⟩
  have hpeek : joins (peek (t :: (right ++ rest))).kind = some join := hjoin
  rw [List.append_assoc, List.cons_append, heq, hresume, hresume, chain, hpeek]
  simp only [List.tail_cons, hb rest hrest]
  rfl

/-- A first operand is a phrase of the left-associative nonterminal. -/
theorem Reads.of_first {n : Nat} {s : Nonterminal} {joins : TokenKind → Option (Expr → Expr → Expr)}
    {first operand : Rule} {e : Expr} {front : List Token}
    (hresume : ∀ fuel e, s.resume (rules n) fuel e = chain joins operand fuel e)
    (hrule : ∀ ts, s.rule (rules n) ts = (do
      let (first, rest) ← first ts
      chain joins operand rest.length first rest))
    (h : ∀ rest : List Token, s.operandBound ≤ looseness (peek rest).kind →
      first (front ++ rest) = .ok (e, rest)) : Reads n s front e := by
  intro rest hrest
  refine ⟨rest.length, Nat.le_refl _, ?_⟩
  rw [hrule, h rest hrest, hresume]
  rfl

/-- A phrase that is not empty starts as its nonterminal allows. -/
theorem Derives.looseness_peek_lt {n : Nat} {s : Nonterminal} {front : List Token} {e : Expr}
    (h : Derives n s (front.map Token.kind) e) (hs : s ≠ .sides) (rest : List Token) :
    looseness (peek (front ++ rest)).kind < s.startBound := by
  obtain ⟨k, ls, heq, hk⟩ := h.starts hs
  obtain ⟨t, front, rfl, rfl, -⟩ := List.map_eq_cons_iff.mp heq
  exact hk

theorem Derives.peek_ne {n : Nat} {s : Nonterminal} {front : List Token} {e : Expr}
    (h : Derives n s (front.map Token.kind) e) (hs : s ≠ .sides) {k : TokenKind}
    (hk : s.startBound ≤ looseness k) (rest : List Token) : (peek (front ++ rest)).kind ≠ k := by
  rintro rfl
  exact Nat.not_lt_of_le hk (h.looseness_peek_lt hs rest)

/-- The tokens of a phrase that is an operator between two phrases. -/
theorem exists_of_map_kind_eq {front : List Token} {k : TokenKind} {ks ls : List TokenKind}
    (h : front.map Token.kind = ks ++ k :: ls) :
    ∃ left t right, front = left ++ t :: right ∧ left.map Token.kind = ks ∧ t.kind = k ∧
      right.map Token.kind = ls := by
  obtain ⟨left, tail, rfl, hleft, htail⟩ := List.map_eq_append_iff.mp h
  obtain ⟨t, right, rfl, ht, hright⟩ := List.map_eq_cons_iff.mp htail
  exact ⟨left, t, right, rfl, hleft, ht, hright⟩

/-- Placeholders whose texts are expressions are read. -/
theorem parts_eq_ok {inner : Inner} {start : Nat} {holes : List Hole} {es : List Expr}
    (hlength : es.length = holes.length)
    (h : ∀ p ∈ holes.zip es, ∀ front rest : List Token,
      front.map Token.kind = sentence p.1.inner → 6 ≤ looseness (peek rest).kind →
      inner.expression (front ++ rest) = .ok (p.2, rest)) :
    parts inner start holes = .ok es := by
  induction holes generalizing es with
  | nil =>
    obtain rfl : es = [] := List.length_eq_zero_iff.mp hlength
    rfl
  | cons hole holes ih =>
    obtain ⟨e, es, rfl⟩ := List.exists_cons_of_length_eq_add_one hlength
    have hpart : part inner start hole = .ok e := by
      obtain ⟨ts, last, htokens, hlast, -⟩ :=
        tokenize_eq_append (start + hole.offset + 1) hole.inner
      have hsentence : ts.map Token.kind = sentence hole.inner := by
        rw [sentence, map_kind_tokenize 0 (start + hole.offset + 1), htokens]
        simp
      have hend : (peek [last]).kind = .endOfInput := hlast
      have hread := h (hole, e) (by simp) ts [last] hsentence (by rw [hend]; decide)
      rw [part, htokens, hread]
      simp only [bind, Except.bind, expectEnd, hend]
      rfl
    have hparts : parts inner start holes = .ok es :=
      ih (by simpa using hlength) fun p hp => h p (by simp [hp])
    rw [parts, hpart]
    simp only [bind, Except.bind, hparts]
    rfl

/-- What starts with a name and no assigning sign is no assignment. -/
theorem target?_eq_none {front rest : List Token} (hne : front ≠ [])
    (h : NoAssignment (front.map Token.kind)) (hrest : looseness (peek rest).kind ≠ 5) :
    target? (front ++ rest) = none := by
  have hsign {k : TokenKind} (hk : looseness k ≠ 5) : assignment? k = none := by
    cases k <;> first | rfl | exact absurd rfl hk
  -- the second token of all may be the first one behind the phrase
  match front, rest, hne with
  | [_], [], _ => rfl
  | [t], u :: _, _ =>
    simp only [List.cons_append, List.nil_append, target?]
    split
    · rw [hsign (k := u.kind) hrest]
      rfl
    · rfl
  | t :: u :: _, _, _ =>
    simp only [List.cons_append, target?]
    split
    · next x hk =>
      rw [hsign (h x u.kind _ (by rw [← hk]; rfl))]
      rfl
    · rfl

/-! ## The readings of the rules

What a rule reads, from what the rules further in read: one lemma for each of its readings. -/

section Rules

variable {inner : Inner} {t u : Token} {ts us rest : List Token} {a b e : Expr}

/-- A name and an assigning sign in front of an expression are read as an assignment. -/
theorem assignmentRule_eq_ok {x : String} {build : String → Expr → Expr} (ht : t.kind = .name x)
    (hu : assignment? u.kind = some build) (h : inner.expression ts = .ok (e, rest)) :
    assignmentRule inner (t :: u :: ts) = .ok (build x e, rest) := by
  have htarget : target? (t :: u :: ts) = some (x, build) := by
    simp only [target?, ht, hu, Option.map_some]
  rw [assignmentRule, htarget]
  simp only [List.drop_succ_cons, List.drop_zero, h]
  rfl

theorem operandRule_minus (ht : t.kind = .minus) (h : inner.operand ts = .ok (e, rest)) :
    operandRule inner (t :: ts) = .ok (.negate e, rest) := by
  simp only [operandRule, peek, List.headD_cons, ht, if_true, List.tail_cons, h]
  rfl

theorem powerRule_caret (ha : diceRule inner ts = .ok (a, t :: us)) (ht : t.kind = .caret)
    (hb : inner.operand us = .ok (b, rest)) :
    powerRule inner ts = .ok (.binary .pow a b, rest) := by
  simp only [powerRule, ha, bind, Except.bind, peek, List.headD_cons, ht, if_true, List.tail_cons,
    hb]
  rfl

theorem powerRule_base (ha : diceRule inner ts = .ok (a, rest))
    (hrest : (peek rest).kind ≠ .caret) : powerRule inner ts = .ok (a, rest) := by
  simp only [powerRule, ha, bind, Except.bind, if_neg hrest]
  rfl

theorem firstDice_dice (ht : t.kind = .dice) (h : Expr.sides inner ts = .ok (e, rest)) :
    firstDice inner (t :: ts) = .ok (.die e, rest) := by
  simp only [firstDice, peek, List.headD_cons, ht, if_true, List.tail_cons, h]
  rfl

theorem primary_openParen (ht : t.kind = .openParen)
    (h : inner.expression ts = .ok (e, u :: rest)) (hu : u.kind = .closeParen) :
    primary inner (t :: ts) = .ok (e, rest) := by
  simp only [primary, ht, h, bind, Except.bind, expectClose, peek, List.headD_cons, hu, if_true,
    List.tail_cons]
  rfl

end Rules

/-- A phrase of one token is read if the token is. -/
theorem Reads.of_token {n : Nat} {front : List Token} {k : TokenKind} {e : Expr}
    (hfront : front.map Token.kind = [k])
    (h : ∀ (t : Token) (rest : List Token), t.kind = k →
      primary (rules n) (t :: rest) = .ok (e, rest)) : Reads n .primary front e := by
  obtain ⟨t, rfl, ht⟩ := List.map_eq_singleton_iff.mp hfront
  exact .of_rule_eq (fun _ _ => rfl) fun rest _ => h t rest ht

/-- A phrase of the grammar is read by the rule of its nonterminal. -/
theorem Derives.reads {n : Nat} {s : Nonterminal} {ks : List TokenKind} {e : Expr}
    (h : Derives n s ks e) {front : List Token} (hfront : front.map Token.kind = ks) :
    Reads n s front e := by
  -- most phrases are read whole; those of the chains are a first operand, prolonged
  induction h generalizing front with
  | expression _ ih =>
    exact .of_rule_eq (fun _ _ => rfl) fun rest hrest => (ih hfront).rule_eq hrest
  | operand _ ih =>
    exact .of_rule_eq (fun _ _ => rfl) fun rest hrest => (ih hfront).rule_eq hrest
  | assign _ ih =>
    refine .of_rule_eq (fun _ _ => rfl) fun rest hrest => ?_
    obtain ⟨t, front, rfl, ht, hfront⟩ := List.map_eq_cons_iff.mp hfront
    obtain ⟨u, front, rfl, hu, hfront⟩ := List.map_eq_cons_iff.mp hfront
    exact assignmentRule_eq_ok ht (by rw [hu]; rfl) ((ih hfront).rule_eq hrest)
  | update hk _ ih =>
    refine .of_rule_eq (fun _ _ => rfl) fun rest hrest => ?_
    obtain ⟨t, front, rfl, ht, hfront⟩ := List.map_eq_cons_iff.mp hfront
    obtain ⟨u, front, rfl, hu, hfront⟩ := List.map_eq_cons_iff.mp hfront
    exact assignmentRule_eq_ok ht (by rw [hu, hk.assignment?_eq]) ((ih hfront).rule_eq hrest)
  | ofSum hd ih =>
    subst hfront
    refine .of_rule_eq (fun _ _ => rfl) fun rest hrest => ?_
    have hloose : 6 ≤ looseness (peek rest).kind := hrest
    have hne : front ≠ [] := fun hnil => hd.ne_nil (by decide) (by rw [hnil, List.map_nil])
    -- with no assigning sign behind its first token a sum is not taken for an assignment
    have htarget : target? (front ++ rest) = none :=
      target?_eq_none hne (hd.noAssignment (by decide) (by decide)) (by omega)
    have hread : sumRule (rules _) (front ++ rest) = .ok (_, rest) :=
      (ih rfl).rule_eq (Nat.le_trans (by decide) hrest)
    simp only [Nonterminal.rule, assignmentRule, htarget, hread]
  | sum hk _ _ iha ihb =>
    obtain ⟨left, t, right, rfl, hleft, rfl, hright⟩ := exists_of_map_kind_eq hfront
    exact (iha hleft).prolong (fun _ _ => rfl) (by rw [hk.looseness_eq]; decide) hk.joinsSum_eq
      fun rest hrest => (ihb hright).rule_eq hrest
  | ofProduct _ ih =>
    exact .of_first (fun _ _ => rfl) (fun _ => rfl) fun rest hrest => (ih hfront).rule_eq hrest
  | product hk _ _ iha ihb =>
    obtain ⟨left, t, right, rfl, hleft, rfl, hright⟩ := exists_of_map_kind_eq hfront
    exact (iha hleft).prolong (fun _ _ => rfl) (by rw [hk.looseness_eq]; decide)
      hk.joinsProduct_eq fun rest hrest => (ihb hright).rule_eq hrest
  | ofSigned _ ih =>
    exact .of_first (fun _ _ => rfl) (fun _ => rfl) fun rest hrest => (ih hfront).rule_eq hrest
  | negate _ ih =>
    refine .of_rule_eq (fun _ _ => rfl) fun rest hrest => ?_
    obtain ⟨t, front, rfl, ht, hfront⟩ := List.map_eq_cons_iff.mp hfront
    exact operandRule_minus ht ((ih hfront).rule_eq hrest)
  | ofPower hd ih =>
    subst hfront
    refine .of_rule_eq (fun _ _ => rfl) fun rest hrest => ?_
    -- a power starts tighter than a sign, so the rule does not take it for a negation
    have hminus : (peek (front ++ rest)).kind ≠ .minus := hd.peek_ne (by decide) (by decide) rest
    rw [Nonterminal.rule, operandRule, if_neg hminus]
    exact (ih rfl).rule_eq hrest
  | power _ _ iha ihb =>
    refine .of_rule_eq (fun _ _ => rfl) fun rest hrest => ?_
    obtain ⟨left, t, right, rfl, hleft, ht, hright⟩ := exists_of_map_kind_eq hfront
    have hbase : diceRule (rules _) (left ++ t :: (right ++ rest)) =
        .ok (_, t :: (right ++ rest)) :=
      (iha hleft).rule_eq (by simp only [peek, List.headD_cons, ht]; decide)
    rw [List.append_assoc, List.cons_append]
    exact powerRule_caret hbase ht ((ihb hright).rule_eq hrest)
  | ofDice _ ih =>
    refine .of_rule_eq (fun _ _ => rfl) fun rest hrest => ?_
    have hcaret : (peek rest).kind ≠ .caret := by
      intro heq
      have hloose : 3 ≤ looseness (peek rest).kind := hrest
      rw [heq] at hloose
      exact absurd hloose (by decide)
    exact powerRule_base ((ih hfront).rule_eq (Nat.le_trans (by decide) hrest)) hcaret
  | dice _ _ iha ihb =>
    obtain ⟨left, t, right, rfl, hleft, ht, hright⟩ := exists_of_map_kind_eq hfront
    have hjoin : joinsDice t.kind = some .dice := by rw [ht]; rfl
    exact (iha hleft).prolong (fun _ _ => rfl) (by rw [ht]; decide) hjoin
      fun rest hrest => (ihb hright).rule_eq hrest
  | die _ ih =>
    obtain ⟨t, front, rfl, ht, hfront⟩ := List.map_eq_cons_iff.mp hfront
    refine .of_first (fun _ _ => rfl) (diceRule_eq _) fun rest hrest => ?_
    exact firstDice_dice ht ((ih hfront).rule_eq hrest)
  | ofPrimary hd ih =>
    subst hfront
    refine .of_first (fun _ _ => rfl) (diceRule_eq _) fun rest _ => ?_
    rw [firstDice, if_neg (hd.peek_ne (by decide) (by decide) rest)]
    exact (ih rfl).rule_eq (Nat.zero_le _)
  | stated hd ih =>
    subst hfront
    refine .of_rule_eq (fun _ _ => rfl) fun rest _ => ?_
    have hstarts : (peek (front ++ rest)).kind.startsOperand = true :=
      startsOperand_iff_looseness.mpr (Nat.lt_one_iff.mp (hd.looseness_peek_lt (by decide) rest))
    simp only [Nonterminal.rule, Expr.sides, if_pos hstarts]
    exact (ih rfl).rule_eq (Nat.zero_le _)
  | usual =>
    obtain rfl := List.map_eq_nil_iff.mp hfront
    refine .of_rule_eq (fun _ _ => rfl) fun rest hrest => ?_
    have hloose : 1 ≤ looseness (peek rest).kind := hrest
    have hstarts : ¬(peek rest).kind.startsOperand = true := by
      rw [startsOperand_iff_looseness]
      omega
    simp only [Nonterminal.rule, List.nil_append, Expr.sides, if_neg hstarts]
  | int i => exact .of_token hfront fun t rest ht => by simp only [Expr.primary, ht]
  | name x => exact .of_token hfront fun t rest ht => by simp only [Expr.primary, ht]
  | text s => exact .of_token hfront fun t rest ht => by simp only [Expr.primary, ht]
  | template hlength _ ih =>
    refine .of_token hfront fun t rest ht => ?_
    have hparts : parts (rules _) (t.start + 1) _ = .ok _ :=
      parts_eq_ok hlength fun p hp front rest hfront hrest => (ih p hp hfront).rule_eq hrest
    simp only [Expr.primary, ht, hparts]
    rfl
  | parentheses _ ih =>
    refine .of_rule_eq (fun _ _ => rfl) fun rest _ => ?_
    obtain ⟨t, front, rfl, ht, hfront⟩ := List.map_eq_cons_iff.mp hfront
    obtain ⟨inside, close, rfl, hinside, hclose⟩ := List.map_eq_append_iff.mp hfront
    obtain ⟨u, rfl, hu⟩ := List.map_eq_singleton_iff.mp hclose
    have hread : (rules _).expression (inside ++ u :: rest) = .ok (_, u :: rest) :=
      (ih hinside).rule_eq (by simp only [peek, List.headD_cons, hu]; decide)
    rw [List.cons_append, List.append_assoc]
    exact primary_openParen ht hread hu

/-- A phrase in front of tokens that cannot prolong it is read whole, with its tree. -/
theorem Derives.rule_eq {n : Nat} {s : Nonterminal} {front rest : List Token} {e : Expr}
    (h : Derives n s (front.map Token.kind) e) (hrest : s.bound ≤ looseness (peek rest).kind) :
    s.rule (rules n) (front ++ rest) = .ok (e, rest) :=
  (h.reads rfl).rule_eq hrest

end Grammar

end DiceBot
