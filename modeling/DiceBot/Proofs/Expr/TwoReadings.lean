import DiceBot.Proofs.Expr.Soundness

/-!
# Two readings side by side

What the rules make of some tokens is compared with what they make of others, which have the same
kinds and perhaps lie elsewhere. A `Comparison` says which tokens and which faults correspond, and
when a reading gives up and is not compared any further. `Comparison.Alike V r r'` says that the
readings `r` and `r'` have results that `V` relates, or faults that correspond, unless `r` gives up.

A rule refuses the first token that is left and no other, with a cause that is about this token
(`SyntaxCause.IsAbout`), so a comparison needs to know no more of faults than that. There is one
lemma for each rule over the rules one level further in, and `Comparison.rules_alike` ties the
levels together. The first reading may have fewer levels, if it gives up where it runs out of them.
-/

namespace DiceBot

/-- The cause names a token of this kind. That there is no level left is said of any token. -/
def SyntaxCause.IsAbout : SyntaxCause → TokenKind → Prop
  | .tooDeep, _ => True
  | .invalid fault, kind => kind = .invalid fault
  | .unexpected found, kind => kind = found
  | .missingOperand found, kind => kind = found
  | .missingClose found, kind => kind = found

namespace Expr

/-! ## Tokens that are left -/

/-- The last token is the end of input. -/
def Ended (ts : List Token) : Prop := ∃ front last, ts = front ++ [last] ∧ last.kind = .endOfInput

theorem ended_tokenize (start : Nat) (cs : List Char) : Ended (tokenize start cs) := by
  obtain ⟨front, last, htokens, hlast, -⟩ := tokenize_eq_append start cs
  exact ⟨front, last, htokens, hlast⟩

namespace Ended

variable {ts : List Token}

theorem exists_cons (h : Ended ts) : ∃ t rest, ts = t :: rest := by
  obtain ⟨front, last, rfl, -⟩ := h
  exact List.exists_cons_of_ne_nil (by simp)

theorem peek_mem (h : Ended ts) : peek ts ∈ ts := by
  obtain ⟨t, rest, rfl⟩ := h.exists_cons
  exact List.mem_cons_self

theorem tail (h : Ended ts) (hkind : (peek ts).kind ≠ .endOfInput) : Ended ts.tail := by
  obtain ⟨front, last, rfl, hlast⟩ := h
  cases front with
  | nil => exact absurd hlast hkind
  | cons t front => exact ⟨front, last, rfl, hlast⟩

end Ended

/-! ## Comparisons -/

/-- How two readings are held against each other. The tokens of placeholders correspond if those of
their templates do. -/
structure Comparison where
  /-- The tokens that are left correspond. -/
  tokens : List Token → List Token → Prop
  /-- The faults correspond. -/
  faults : SyntaxFault → SyntaxFault → Prop
  /-- The first reading gives up with this fault. -/
  givesUp : SyntaxFault → Prop
  length_eq {ts us : List Token} : tokens ts us → ts.length = us.length
  kind_eq {ts us : List Token} : tokens ts us → (peek ts).kind = (peek us).kind
  tail {ts us : List Token} : tokens ts us → (peek us).kind ≠ .endOfInput → tokens ts.tail us.tail
  refused {ts us : List Token} {cause : SyntaxCause} : tokens ts us →
    cause.IsAbout (peek us).kind → faults ⟨cause, (peek ts).start⟩ ⟨cause, (peek us).start⟩
  hole {ts us : List Token} {s : String} {hole : Hole} : tokens ts us →
    (peek us).kind = .template s → hole ∈ Hole.ofTemplate s →
    tokens (tokenize ((peek ts).start + 1 + hole.offset + 1) hole.inner)
      (tokenize ((peek us).start + 1 + hole.offset + 1) hole.inner)

namespace Comparison

variable (C : Comparison)

/-- The results are related or the faults correspond, unless the first reading gives up. -/
inductive Alike {α β : Type} (V : α → β → Prop) :
    Except SyntaxFault α → Except SyntaxFault β → Prop
  | ok {a : α} {b : β} (h : V a b) : Alike V (.ok a) (.ok b)
  | error {f f' : SyntaxFault} (h : C.faults f f') : Alike V (.error f) (.error f')
  | lost {f : SyntaxFault} (h : C.givesUp f) (r : Except SyntaxFault β) : Alike V (.error f) r

/-- The same expression, with tokens behind it that correspond. -/
def Left (left left' : Expr × List Token) : Prop := left.1 = left'.1 ∧ C.tokens left.2 left'.2

/-- From tokens that correspond the rules read alike. -/
def RulesAlike (r r' : Rule) : Prop := ∀ ⦃ts us⦄, C.tokens ts us → C.Alike C.Left (r ts) (r' us)

/-- The rules one level further in read alike. -/
structure InnerAlike (inner inner' : Inner) : Prop where
  expression : C.RulesAlike inner.expression inner'.expression
  operand : C.RulesAlike inner.operand inner'.operand

variable {C}

/-- What reads on from related results reads alike, if it does so from each two of them. -/
theorem Alike.bind {α β α' β' : Type} {V : α → α' → Prop} {W : β → β' → Prop}
    {r : Except SyntaxFault α} {r' : Except SyntaxFault α'} {f : α → Except SyntaxFault β}
    {f' : α' → Except SyntaxFault β'} (h : C.Alike V r r')
    (hf : ∀ a a', V a a' → C.Alike W (f a) (f' a')) : C.Alike W (r >>= f) (r' >>= f') := by
  cases h with
  | ok h => exact hf _ _ h
  | error h => exact .error h
  | lost h => exact .lost h _

theorem Alike.map {α β α' β' : Type} {V : α → α' → Prop} {W : β → β' → Prop}
    {r : Except SyntaxFault α} {r' : Except SyntaxFault α'} {f : α → β} {f' : α' → β'}
    (h : C.Alike V r r') (hf : ∀ a a', V a a' → W (f a) (f' a')) :
    C.Alike W (r.map f) (r'.map f') := by
  cases h with
  | ok h => exact .ok (hf _ _ h)
  | error h => exact .error h
  | lost h => exact .lost h _

section Rules

variable {inner inner' : Inner} {ts us : List Token}

theorem refuse_alike {α β : Type} {V : α → β → Prop} (h : C.tokens ts us)
    (cause : TokenKind → SyntaxCause) (hcause : (cause (peek us).kind).IsAbout (peek us).kind) :
    C.Alike V (refuse cause ts) (refuse cause us) := by
  unfold refuse
  rw [C.kind_eq h]
  exact .error (C.refused h hcause)

theorem expectEnd_alike (h : C.tokens ts us) : C.Alike Eq (expectEnd ts) (expectEnd us) := by
  unfold expectEnd
  rw [C.kind_eq h]
  cases hkind : (peek us).kind with
  | endOfInput => exact .ok rfl
  | invalid fault => exact refuse_alike h (fun _ => .invalid fault) hkind
  | _ => exact refuse_alike h .unexpected rfl

theorem expectClose_alike (h : C.tokens ts us) :
    C.Alike C.tokens (expectClose ts) (expectClose us) := by
  unfold expectClose
  rw [C.kind_eq h]
  by_cases hkind : (peek us).kind = .closeParen
  · rw [if_pos hkind, if_pos hkind]
    exact .ok (C.tail h (by simp [hkind]))
  · rw [if_neg hkind, if_neg hkind]
    exact refuse_alike h .missingClose rfl

/-- A whole text is read alike. -/
theorem whole_alike {r r' : Rule} (hrule : C.RulesAlike r r') (h : C.tokens ts us) :
    C.Alike Eq (do let (e, rest) ← r ts; expectEnd rest; return e)
      (do let (e, rest) ← r' us; expectEnd rest; return e) := by
  refine (hrule h).bind ?_
  rintro ⟨e, rest⟩ ⟨e', rest'⟩ ⟨rfl, hrest⟩
  exact (expectEnd_alike hrest).bind fun _ _ _ => .ok rfl

/-- Placeholders are read alike if their tokens correspond. -/
theorem parts_alike (hinner : C.RulesAlike inner.expression inner'.expression) {start start' : Nat}
    {holes : List Hole} (h : ∀ hole ∈ holes,
      C.tokens (tokenize (start + hole.offset + 1) hole.inner)
        (tokenize (start' + hole.offset + 1) hole.inner)) :
    C.Alike Eq (parts inner start holes) (parts inner' start' holes) := by
  induction holes with
  | nil => exact .ok rfl
  | cons hole holes ih =>
    obtain ⟨hhole, hholes⟩ := List.forall_mem_cons.mp h
    have hpart : C.Alike Eq (part inner start hole) (part inner' start' hole) :=
      whole_alike hinner hhole
    refine hpart.bind ?_
    rintro e _ rfl
    refine (ih hholes).bind ?_
    rintro es _ rfl
    exact .ok rfl

theorem primary_alike (hinner : C.RulesAlike inner.expression inner'.expression) :
    C.RulesAlike (primary inner) (primary inner') := by
  intro ts us h
  match ts, us, C.length_eq h with
  | [], [], _ => exact refuse_alike h .missingOperand rfl
  | ⟨kind, start, stop⟩ :: ts, ⟨kind', start', stop'⟩ :: us, _ =>
    -- the first tokens differ in their offsets at most
    obtain rfl : kind = kind' := C.kind_eq h
    cases kind with
    | int n => exact .ok ⟨rfl, C.tail h (by simp [peek])⟩
    | name s => exact .ok ⟨rfl, C.tail h (by simp [peek])⟩
    | text s => exact .ok ⟨rfl, C.tail h (by simp [peek])⟩
    | template s =>
      refine (parts_alike hinner fun hole hhole => C.hole h rfl hhole).bind ?_
      rintro es _ rfl
      exact .ok ⟨rfl, C.tail h (by simp [peek])⟩
    | openParen =>
      refine (hinner (C.tail h (by simp [peek]))).bind ?_
      rintro ⟨e, rest⟩ ⟨e', rest'⟩ ⟨rfl, hrest⟩
      exact (expectClose_alike hrest).bind fun _ _ hclose => .ok ⟨rfl, hclose⟩
    | invalid fault => exact refuse_alike h (fun _ => .invalid fault) rfl
    | _ => exact refuse_alike h .missingOperand rfl

theorem sides_alike (hinner : C.RulesAlike inner.expression inner'.expression) :
    C.RulesAlike (sides inner) (sides inner') := by
  intro ts us h
  unfold sides
  rw [C.kind_eq h]
  by_cases hstarts : (peek us).kind.startsOperand = true
  · rw [if_pos hstarts, if_pos hstarts]
    exact primary_alike hinner h
  · rw [if_neg hstarts, if_neg hstarts]
    exact .ok ⟨rfl, h⟩

theorem chain_alike {joins : TokenKind → Option (Expr → Expr → Expr)}
    (hend : joins .endOfInput = none) {operand operand' : Rule}
    (hoperand : C.RulesAlike operand operand') (fuel : Nat) (left : Expr) :
    C.RulesAlike (chain joins operand fuel left) (chain joins operand' fuel left) := by
  induction fuel generalizing left with
  | zero => exact fun ts us h => .ok ⟨rfl, h⟩
  | succ fuel ih =>
    intro ts us h
    rw [chain, chain, C.kind_eq h]
    cases hjoins : joins (peek us).kind with
    | none => exact .ok ⟨rfl, h⟩
    | some join =>
      have hkind : (peek us).kind ≠ .endOfInput := by
        intro heq
        rw [heq, hend] at hjoins
        cases hjoins
      refine (hoperand (C.tail h hkind)).bind ?_
      rintro ⟨right, rest⟩ ⟨right', rest'⟩ ⟨rfl, hrest⟩
      exact ih (join left right) hrest

/-- A first operand and the chain behind it. -/
theorem joined_alike {joins : TokenKind → Option (Expr → Expr → Expr)}
    (hend : joins .endOfInput = none) {first first' operand operand' : Rule}
    (hfirst : C.RulesAlike first first') (hoperand : C.RulesAlike operand operand')
    (h : C.tokens ts us) :
    C.Alike C.Left (do let (e, rest) ← first ts; chain joins operand rest.length e rest)
      (do let (e, rest) ← first' us; chain joins operand' rest.length e rest) := by
  refine (hfirst h).bind ?_
  rintro ⟨e, rest⟩ ⟨e', rest'⟩ ⟨rfl, hrest⟩
  -- as many tokens are left, and they are the fuel
  have hfuel : rest.length = rest'.length := C.length_eq hrest
  dsimp only
  rw [hfuel]
  exact chain_alike hend hoperand rest'.length e hrest

theorem firstDice_alike (hinner : C.RulesAlike inner.expression inner'.expression) :
    C.RulesAlike (Grammar.firstDice inner) (Grammar.firstDice inner') := by
  intro ts us h
  unfold Grammar.firstDice
  rw [C.kind_eq h]
  by_cases hkind : (peek us).kind = .dice
  · rw [if_pos hkind, if_pos hkind]
    refine (sides_alike hinner (C.tail h (by simp [hkind]))).bind ?_
    rintro ⟨s, rest⟩ ⟨s', rest'⟩ ⟨rfl, hrest⟩
    exact .ok ⟨rfl, hrest⟩
  · rw [if_neg hkind, if_neg hkind]
    exact primary_alike hinner h

theorem diceRule_alike (hinner : C.RulesAlike inner.expression inner'.expression) :
    C.RulesAlike (diceRule inner) (diceRule inner') := by
  intro ts us h
  rw [Grammar.diceRule_eq, Grammar.diceRule_eq]
  exact joined_alike rfl (firstDice_alike hinner) (sides_alike hinner) h

theorem powerRule_alike (hinner : C.InnerAlike inner inner') :
    C.RulesAlike (powerRule inner) (powerRule inner') := by
  intro ts us h
  refine (diceRule_alike hinner.expression h).bind ?_
  rintro ⟨base, rest⟩ ⟨base', rest'⟩ ⟨rfl, hrest⟩
  dsimp only at hrest ⊢
  rw [C.kind_eq hrest]
  by_cases hkind : (peek rest').kind = .caret
  · rw [if_pos hkind, if_pos hkind]
    refine (hinner.operand (C.tail hrest (by simp [hkind]))).bind ?_
    rintro ⟨exponent, left⟩ ⟨exponent', left'⟩ ⟨rfl, hleft⟩
    exact .ok ⟨rfl, hleft⟩
  · rw [if_neg hkind, if_neg hkind]
    exact .ok ⟨rfl, hrest⟩

theorem operandRule_alike (hinner : C.InnerAlike inner inner') :
    C.RulesAlike (operandRule inner) (operandRule inner') := by
  intro ts us h
  unfold operandRule
  rw [C.kind_eq h]
  by_cases hkind : (peek us).kind = .minus
  · rw [if_pos hkind, if_pos hkind]
    refine (hinner.operand (C.tail h (by simp [hkind]))).bind ?_
    rintro ⟨e, rest⟩ ⟨e', rest'⟩ ⟨rfl, hrest⟩
    exact .ok ⟨rfl, hrest⟩
  · rw [if_neg hkind, if_neg hkind]
    exact powerRule_alike hinner h

theorem productRule_alike (hinner : C.InnerAlike inner inner') :
    C.RulesAlike (productRule inner) (productRule inner') := fun _ _ h =>
  joined_alike rfl (operandRule_alike hinner) (operandRule_alike hinner) h

theorem sumRule_alike (hinner : C.InnerAlike inner inner') :
    C.RulesAlike (sumRule inner) (sumRule inner') := fun _ _ h =>
  joined_alike rfl (productRule_alike hinner) (productRule_alike hinner) h

/-- Tokens that correspond start with the same target, and behind it they correspond. -/
theorem target?_alike (h : C.tokens ts us) : target? ts = target? us ∧
    ∀ target, target? us = some target → C.tokens (ts.drop 2) (us.drop 2) := by
  match ts, us, C.length_eq h with
  | [], [], _ => exact ⟨rfl, fun target htarget => absurd htarget (Option.some_ne_none target).symm⟩
  | [_], [_], _ =>
    exact ⟨rfl, fun target htarget => absurd htarget (Option.some_ne_none target).symm⟩
  | ⟨kind, start, stop⟩ :: t :: ts, ⟨kind', start', stop'⟩ :: u :: us, _ =>
    obtain rfl : kind = kind' := C.kind_eq h
    cases kind with
    | name x =>
      -- the token behind the name decides, and if it assigns it is not the end of input
      have htail : C.tokens (t :: ts) (u :: us) := C.tail h (by simp [peek])
      have hkind : t.kind = u.kind := C.kind_eq htail
      refine ⟨by simp only [target?, hkind], fun target htarget => C.tail htail fun heq => ?_⟩
      have huKind : u.kind = .endOfInput := heq
      simp [target?, huKind, assignment?] at htarget
    | _ => exact ⟨rfl, fun target htarget => absurd htarget (Option.some_ne_none target).symm⟩

theorem assignmentRule_alike (hinner : C.InnerAlike inner inner') :
    C.RulesAlike (assignmentRule inner) (assignmentRule inner') := by
  intro ts us h
  obtain ⟨htarget, hbehind⟩ := target?_alike h
  unfold assignmentRule
  rw [htarget]
  cases hsome : target? us with
  | none => exact sumRule_alike hinner h
  | some target =>
    refine (hinner.expression (hbehind target hsome)).bind ?_
    rintro ⟨e, rest⟩ ⟨e', rest'⟩ ⟨rfl, hrest⟩
    exact .ok ⟨rfl, hrest⟩

end Rules

/-- The rules read alike also with fewer levels on the left, if that reading gives up where it runs
out of levels. -/
theorem rules_alike {n m : Nat} (hle : n ≤ m)
    (hlost : n < m → ∀ offset, C.givesUp ⟨.tooDeep, offset⟩) :
    C.InnerAlike (rules n) (rules m) := by
  induction n generalizing m with
  | zero =>
    -- on the left there are no levels left, and perhaps there are none on the right
    cases m with
    | zero =>
      have hrefuse : C.RulesAlike (refuse fun _ => .tooDeep) (refuse fun _ => .tooDeep) :=
        fun ts us h => refuse_alike h (fun _ => .tooDeep) trivial
      exact ⟨hrefuse, hrefuse⟩
    | succ m =>
      have hgivesUp := hlost (Nat.succ_pos m)
      exact ⟨fun ts us _ => .lost (hgivesUp _) _, fun ts us _ => .lost (hgivesUp _) _⟩
  | succ n ih =>
    obtain ⟨m, rfl⟩ : ∃ k, m = k + 1 := ⟨m - 1, by omega⟩
    have hinner := ih (Nat.le_of_succ_le_succ hle) fun hlt => hlost (Nat.succ_lt_succ hlt)
    exact ⟨assignmentRule_alike hinner, operandRule_alike hinner⟩

end Comparison

end Expr

end DiceBot
