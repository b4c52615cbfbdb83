import Mathlib.Algebra.BigOperators.Group.Finset.Basic
import DiceBot.Proofs.Dice.UniformDraws
import DiceBot.Proofs.Memory.Owners
import DiceBot.Template.Table

/-!
# Weighted draws

What a table offers for a name is told from the changes that have led to it (`get?_ofChanges`). A
number below the sum of the weights selects the first candidate whose cumulative weight exceeds it
(`Candidate.FirstBeyond`). The numbers that select a candidate lie in a row that is as long as its
weight is high, and these rows have no gaps, so a draw is as fair as the number it starts from; and
as many words of the stream are accepted for one number as for another
(`TemplateTable.pick_by_weight`).
-/

namespace DiceBot

/-! ## What a table offers -/

/-- A change to the candidates of a name. -/
inductive TemplateChange where
  /-- Other candidates in place of those that the name has. -/
  | set (name : String) (candidates : List Candidate)
  /-- One more candidate. -/
  | push (name : String) (candidate : Candidate)
  deriving DecidableEq

namespace TemplateChange

/-- The table after the change. -/
def applyTo (table : TemplateTable) : TemplateChange → TemplateTable
  | .set name candidates => table.set name candidates
  | .push name candidate => table.push name candidate

/-- What is offered for a name after the change. -/
def offer (name : String) (offered : Option (List Candidate)) :
    TemplateChange → Option (List Candidate)
  | .set changed candidates => if name = changed then some candidates else offered
  | .push changed candidate =>
      if name = changed then some (offered.getD [] ++ [candidate]) else offered

theorem get?_applyTo (table : TemplateTable) (change : TemplateChange) (name : String) :
    (change.applyTo table).get? name = change.offer name (table.get? name) := by
  have hset : ∀ changed candidates, (table.set changed candidates).get? name =
      if name = changed then some candidates else table.get? name := fun changed candidates =>
    Records.getElem?_insert_map table.candidates changed name candidates
  cases change with
  | set changed candidates => exact hset changed candidates
  | push changed candidate =>
    refine (hset changed _).trans ?_
    by_cases hname : name = changed
    · rw [if_pos hname, offer, if_pos hname, hname]
    · rw [if_neg hname, offer, if_neg hname]

theorem stream_applyTo (table : TemplateTable) (change : TemplateChange) :
    (change.applyTo table).stream = table.stream := by
  cases change <;> rfl

end TemplateChange

namespace TemplateTable

/-- The table that changes lead to from an empty one, at some place of the stream. -/
def ofChanges (stream : Keystream) (changes : List TemplateChange) : TemplateTable :=
  changes.foldl (fun table change => change.applyTo table) { stream }

/-- What is offered for a name after changes: the candidates that it was last set to, and those that
were added since. The name is unknown if no change was about it. -/
def offered? (changes : List TemplateChange) (name : String) : Option (List Candidate) :=
  changes.foldl (fun offered change => change.offer name offered) none

theorem get?_foldl_applyTo (changes : List TemplateChange) (table : TemplateTable) (name : String) :
    (changes.foldl (fun table change => change.applyTo table) table).get? name =
      changes.foldl (fun offered change => change.offer name offered) (table.get? name) := by
  induction changes generalizing table with
  | nil => rfl
  | cons change changes ih => rw [List.foldl_cons, List.foldl_cons, ih, change.get?_applyTo]

theorem get?_ofChanges (stream : Keystream) (changes : List TemplateChange) (name : String) :
    (ofChanges stream changes).get? name = offered? changes name := by
  have hempty : ({ stream } : TemplateTable).get? name = none := Std.ExtTreeMap.getElem?_empty
  rw [ofChanges, get?_foldl_applyTo, hempty, offered?]

theorem stream_ofChanges (stream : Keystream) (changes : List TemplateChange) :
    (ofChanges stream changes).stream = stream := by
  have hfold : ∀ table : TemplateTable,
      (changes.foldl (fun table change => change.applyTo table) table).stream = table.stream := by
    induction changes with
    | nil => exact fun table => rfl
    | cons change changes ih => exact fun table => (ih _).trans (change.stream_applyTo table)
  exact hfold { stream }

end TemplateTable

/-! ## The candidate that a number selects -/

namespace Candidate

variable {candidates : List Candidate} {c : Candidate} {x i j : Nat}

theorem total_append (front back : List Candidate) :
    total (front ++ back) = total front + total back := by
  induction front with
  | nil => rw [List.nil_append, total, Nat.zero_add]
  | cons c front ih => rw [List.cons_append, total, total, ih, Nat.add_assoc]

theorem total_eq_zero_iff : total candidates = 0 ↔ ∀ c ∈ candidates, c.weight = 0 := by
  induction candidates with
  | nil => simp [total]
  | cons c candidates ih => simp [total, ih]

theorem total_getD_eq_zero_iff {offered : Option (List Candidate)} :
    total (offered.getD []) = 0 ↔
      offered = none ∨ ∃ candidates, offered = some candidates ∧ ∀ c ∈ candidates, c.weight = 0 := by
  rw [total_eq_zero_iff]
  cases offered with
  | none => simp
  | some candidates => simp

theorem total_take_le (h : i ≤ j) : total (candidates.take i) ≤ total (candidates.take j) := by
  obtain ⟨k, rfl⟩ := Nat.exists_eq_add_of_le h
  rw [List.take_add, total_append]
  exact Nat.le_add_right _ _

theorem total_take_le_total (candidates : List Candidate) (i : Nat) :
    total (candidates.take i) ≤ total candidates := by
  have happend := total_append (candidates.take i) (candidates.drop i)
  rw [List.take_append_drop] at happend
  omega

theorem total_take_succ (h : candidates[i]? = some c) :
    total (candidates.take (i + 1)) = total (candidates.take i) + c.weight := by
  rw [List.take_add_one, h, total_append]
  rfl

/-- The candidate at the position is the first one whose cumulative weight exceeds the number. -/
structure FirstBeyond (candidates : List Candidate) (x i : Nat) : Prop where
  lt_length : i < candidates.length
  exceeds : x < total (candidates.take (i + 1))
  first : ∀ j < i, total (candidates.take (j + 1)) ≤ x

instance (candidates : List Candidate) (x i : Nat) : Decidable (FirstBeyond candidates x i) :=
  decidable_of_iff
    (i < candidates.length ∧ x < total (candidates.take (i + 1)) ∧
      ∀ j < i, total (candidates.take (j + 1)) ≤ x)
    ⟨fun ⟨h, h', h''⟩ => ⟨h, h', h''⟩, fun ⟨h, h', h''⟩ => ⟨h, h', h''⟩⟩

/-- The numbers that select a candidate follow one another, and there are as many as its weight. -/
theorem firstBeyond_iff (h : candidates[i]? = some c) : FirstBeyond candidates x i ↔
    total (candidates.take i) ≤ x ∧ x < total (candidates.take i) + c.weight := by
  rw [← total_take_succ h]
  constructor
  · rintro ⟨-, hexceeds, hfirst⟩
    refine ⟨?_, hexceeds⟩
    cases i with
    | zero => exact Nat.zero_le x
    | succ i => exact hfirst i (Nat.lt_succ_self i)
  · rintro ⟨hle, hexceeds⟩
    obtain ⟨hlength, -⟩ := List.getElem?_eq_some_iff.mp h
    exact ⟨hlength, hexceeds, fun j hj => Nat.le_trans (total_take_le hj) hle⟩

theorem FirstBeyond.eq (h : FirstBeyond candidates x i) (h' : FirstBeyond candidates x j) :
    i = j := by
  rcases Nat.lt_trichotomy i j with hlt | heq | hgt
  · exact absurd h.exceeds (Nat.not_lt_of_le (h'.first i hlt))
  · exact heq
  · exact absurd h'.exceeds (Nat.not_lt_of_le (h.first j hgt))

theorem firstBeyond_cons_zero : FirstBeyond (c :: candidates) x 0 ↔ x < c.weight :=
  (firstBeyond_iff rfl).trans (by simp [total])

theorem firstBeyond_cons_succ : FirstBeyond (c :: candidates) x (i + 1) ↔
    c.weight ≤ x ∧ FirstBeyond candidates (x - c.weight) i := by
  have hsum : ∀ j, total ((c :: candidates).take (j + 1)) = c.weight + total (candidates.take j) :=
    fun j => rfl
  constructor
  · rintro ⟨hlength, hexceeds, hfirst⟩
    have hzero := hfirst 0 (Nat.succ_pos i)
    rw [hsum] at hexceeds hzero
    refine ⟨Nat.le_of_add_right_le hzero, Nat.lt_of_succ_lt_succ hlength, by omega, fun j hj => ?_⟩
    have hnext := hfirst (j + 1) (Nat.succ_lt_succ hj)
    rw [hsum] at hnext
    omega
  · rintro ⟨hle, hlength, hexceeds, hfirst⟩
    refine ⟨Nat.succ_lt_succ hlength, by rw [hsum]; omega, fun j hj => ?_⟩
    rw [hsum]
    cases j with
    | zero => exact hle
    | succ j =>
      have hnext := hfirst j (Nat.lt_of_succ_lt_succ hj)
      omega

/-- Below the sum of the weights every number selects a candidate. -/
theorem exists_firstBeyond (h : x < total candidates) : ∃ i, FirstBeyond candidates x i := by
  induction candidates generalizing x with
  | nil => exact absurd h (Nat.not_lt_zero x)
  | cons c candidates ih =>
    rcases Nat.lt_or_ge x c.weight with hlt | hge
    · exact ⟨0, firstBeyond_cons_zero.mpr hlt⟩
    · rw [total] at h
      obtain ⟨i, hi⟩ := ih (x := x - c.weight) (by omega)
      exact ⟨i + 1, firstBeyond_cons_succ.mpr ⟨hge, hi⟩⟩

/-- The search goes on behind a candidate with what its weight leaves of the number. -/
theorem select?_eq (h : FirstBeyond candidates x i) : select? candidates x = candidates[i]? := by
  induction candidates generalizing x i with
  | nil => exact absurd h.lt_length (Nat.not_lt_zero i)
  | cons c candidates ih =>
    rw [select?]
    cases i with
    | zero => exact if_pos (firstBeyond_cons_zero.mp h)
    | succ i =>
      obtain ⟨hle, hrest⟩ := firstBeyond_cons_succ.mp h
      rw [if_neg (Nat.not_lt_of_le hle), ih hrest]
      rfl

/-- As many numbers select a candidate as its weight says. -/
theorem card_firstBeyond (h : candidates[i]? = some c) :
    ((Finset.range (total candidates)).filter fun x => FirstBeyond candidates x i).card =
      c.weight := by
  have hrow : ((Finset.range (total candidates)).filter fun x => FirstBeyond candidates x i) =
      Finset.Ico (total (candidates.take i)) (total (candidates.take i) + c.weight) := by
    have hle := total_take_le_total candidates (i + 1)
    rw [total_take_succ h] at hle
    ext x
    rw [Finset.mem_filter, Finset.mem_range, Finset.mem_Ico, firstBeyond_iff h]
    exact ⟨And.right, fun hx => ⟨by omega, hx⟩⟩
  rw [hrow, Nat.card_Ico, Nat.add_sub_cancel_left]

end Candidate

/-! ## Draws -/

namespace TemplateTable

/-- The next word of a stream as a number. -/
def nextNumber (stream : Keystream) : Nat × Keystream := stream.nextWord.map UInt32.toNat id

/-- A draw accepts the word. -/
def AcceptsWord (bound word : Nat) : Prop :=
  IsAccepted Keystream.wordCount bound (zone bound) word

instance (bound word : Nat) : Decidable (AcceptsWord bound word) :=
  inferInstanceAs (Decidable (IsAccepted _ _ _ _))

variable {bound : Nat}

theorem draw_lt (hbound : 0 < bound) (stream : Keystream) : (draw bound stream).1 < bound :=
  drawBelow_lt (fun _ => UInt32.toNat_lt _) hbound maxRedraws stream

/-- The zone ends where the last full cycle does. -/
theorem zone_add_one (hpos : 0 < bound) (hle : bound ≤ Keystream.wordCount) :
    zone bound + 1 = bound * (Keystream.wordCount / bound) := by
  have hparts := Nat.div_add_mod Keystream.wordCount bound
  have hmod := Nat.mod_lt Keystream.wordCount hpos
  rw [zone, ← Nat.mod_eq_sub_mod hle]
  omega

/-- As many words are accepted for one number as for another. -/
theorem card_acceptsWord {x : Nat} (hx : x < bound) (hle : bound ≤ Keystream.wordCount) :
    ((Finset.range Keystream.wordCount).filter fun word =>
      AcceptsWord bound word ∧ word * bound / Keystream.wordCount = x).card =
        Keystream.wordCount / bound :=
  card_accepted (zone_add_one (Nat.zero_lt_of_lt hx) hle) (Nat.mul_div_le _ _) hx

section Pick

variable {table : TemplateTable} {name : String} {candidates : List Candidate} {i : Nat}
  {c : Candidate}

/-- So the words that are accepted for a candidate are as many as its weight says. -/
theorem card_words_firstBeyond (hc : candidates[i]? = some c)
    (hle : Candidate.total candidates ≤ Keystream.wordCount) :
    ((Finset.range Keystream.wordCount).filter fun word =>
      AcceptsWord (Candidate.total candidates) word ∧ Candidate.FirstBeyond candidates
        (word * Candidate.total candidates / Keystream.wordCount) i).card =
      c.weight * (Keystream.wordCount / Candidate.total candidates) := by
  let numbers := (Finset.range (Candidate.total candidates)).filter fun x =>
    Candidate.FirstBeyond candidates x i
  have hnumbers : ∀ word ∈ (Finset.range Keystream.wordCount).filter (fun word =>
      AcceptsWord (Candidate.total candidates) word ∧ Candidate.FirstBeyond candidates
        (word * Candidate.total candidates / Keystream.wordCount) i),
      word * Candidate.total candidates / Keystream.wordCount ∈ numbers := by
    intro word hword
    obtain ⟨-, -, hselects⟩ := Finset.mem_filter.mp hword
    have hexceeds := hselects.exceeds
    have htake := Candidate.total_take_le_total candidates (i + 1)
    exact Finset.mem_filter.mpr ⟨Finset.mem_range.mpr (by omega), hselects⟩
  -- the words are counted number by number, and each number has equally many of them
  rw [Finset.card_eq_sum_card_fiberwise hnumbers, ← Candidate.card_firstBeyond hc,
    Finset.sum_const_nat]
  intro x hx
  obtain ⟨hrange, hselects⟩ := Finset.mem_filter.mp hx
  rw [← card_acceptsWord (Finset.mem_range.mp hrange) hle, Finset.filter_filter]
  refine congrArg Finset.card (Finset.filter_congr fun word _ => ?_)
  constructor
  · rintro ⟨⟨haccepts, -⟩, rfl⟩
    exact ⟨haccepts, rfl⟩
  · rintro ⟨haccepts, rfl⟩
    exact ⟨⟨haccepts, hselects⟩, rfl⟩

/-- Either there is no weight and nothing is drawn, or the number that is drawn selects a
candidate. -/
theorem pick_cases (hget : (table.get? name).getD [] = candidates) :
    (Candidate.total candidates = 0 ∧ table.pick name = (none, table)) ∨
    (0 < Candidate.total candidates ∧ ∃ i c,
      Candidate.FirstBeyond candidates (draw (Candidate.total candidates) table.stream).1 i ∧
        candidates[i]? = some c ∧ (table.pick name).1 = some c.text) := by
  subst hget
  rcases Nat.eq_zero_or_pos (Candidate.total ((table.get? name).getD [])) with hzero | hpos
  · exact .inl ⟨hzero, if_pos hzero⟩
  · obtain ⟨i, hselects⟩ := Candidate.exists_firstBeyond (draw_lt hpos table.stream)
    have hc := List.getElem?_eq_getElem hselects.lt_length
    refine .inr ⟨hpos, i, _, hselects, hc, ?_⟩
    unfold pick
    dsimp only
    rw [if_neg (Nat.ne_of_gt hpos), Candidate.select?_eq hselects, hc]
    rfl

end Pick

/-- A draw is one by weight, whatever changes have led to the table, and wherever its stream is.
Nothing is drawn exactly if the name is unknown or none of its candidates has any weight, and then
the stream stays where it is. Otherwise a number below the sum of the weights is drawn, and the
result is the text of the first candidate whose cumulative weight exceeds it, which has a positive
weight. Each of these numbers selects one candidate, and as many of them select a candidate as its
weight says. The number is the high half of the product of the sum with the first word of the stream
that is accepted; if the sum is below the number of words, just as many words are accepted for one
number as for another, so those for a candidate are its weight times as many. -/
theorem pick_by_weight (stream : Keystream) (changes : List TemplateChange) (name : String) :
    let table := ofChanges stream changes
    let candidates := (offered? changes name).getD []
    let total := Candidate.total candidates
    let drawn := (draw total stream).1
    ((table.pick name).1 = none ↔ offered? changes name = none ∨
      ∃ offered, offered? changes name = some offered ∧ ∀ c ∈ offered, c.weight = 0) ∧
    ((table.pick name).1 = none → (table.pick name).2 = table) ∧
    (∀ text, (table.pick name).1 = some text → drawn < total ∧
      ∃ i c, Candidate.FirstBeyond candidates drawn i ∧ candidates[i]? = some c ∧ c.text = text ∧
        0 < c.weight) ∧
    (∀ x < total, ∃! i, Candidate.FirstBeyond candidates x i) ∧
    (∀ i c, candidates[i]? = some c →
      ((Finset.range total).filter fun x => Candidate.FirstBeyond candidates x i).card = c.weight) ∧
    (∃ k, TakesNth nextNumber Keystream.wordCount total (zone total) maxRedraws stream k ∧
      drawn = nthDrawn nextNumber k stream * total / Keystream.wordCount) ∧
    (total < Keystream.wordCount → ∀ i c, candidates[i]? = some c →
      ((Finset.range Keystream.wordCount).filter fun word => AcceptsWord total word ∧
        Candidate.FirstBeyond candidates (word * total / Keystream.wordCount) i).card =
          c.weight * (Keystream.wordCount / total)) := by
  intro table candidates total drawn
  have hget : (table.get? name).getD [] = candidates := by rw [get?_ofChanges]
  have hstream : table.stream = stream := stream_ofChanges stream changes
  have hcases := pick_cases hget
  rw [hstream] at hcases
  refine ⟨?_, fun h => ?_, fun text htext => ?_, fun x hx => ?_,
    fun i c hc => Candidate.card_firstBeyond hc, ?_,
    fun hlt i c hc => card_words_firstBeyond hc (Nat.le_of_lt hlt)⟩
  · rw [← Candidate.total_getD_eq_zero_iff]
    rcases hcases with ⟨hzero, hpick⟩ | ⟨hpos, i, c, -, -, hpick⟩
    · exact iff_of_true (congrArg Prod.fst hpick) hzero
    · exact iff_of_false (hpick ▸ Option.some_ne_none c.text) (Nat.ne_of_gt hpos)
  · rcases hcases with ⟨-, hpick⟩ | ⟨-, i, c, -, -, hpick⟩
    · exact congrArg Prod.snd hpick
    · exact absurd (hpick.symm.trans h) (Option.some_ne_none c.text)
  · rcases hcases with ⟨-, hpick⟩ | ⟨hpos, i, c, hselects, hc, hpick⟩
    · exact absurd (htext.symm.trans (congrArg Prod.fst hpick)) (Option.some_ne_none text)
    · obtain ⟨hle, hlt⟩ := (Candidate.firstBeyond_iff hc).mp hselects
      exact ⟨draw_lt hpos stream, i, c, hselects, hc,
        Option.some.inj (hpick.symm.trans htext), by omega⟩
  · obtain ⟨i, hselects⟩ := Candidate.exists_firstBeyond hx
    exact ⟨i, hselects, fun j hj => hj.eq hselects⟩
  · obtain ⟨k, htakes, heq⟩ :=
      exists_drawBelow_eq nextNumber Keystream.wordCount total (zone total) maxRedraws stream
    exact ⟨k, htakes, congrArg Prod.fst heq⟩

/-- Nine parts in ten for one text, one for another, and none for a third one between them. -/
theorem pick_by_weight_coin :
    let changes : List TemplateChange :=
      [.set "coin" [⟨"heavy", 9⟩, ⟨"never", 0⟩], .push "coin" ⟨"light", 1⟩]
    let table := ofChanges (Keystream.ofSeed 7) changes
    let candidates : List Candidate := [⟨"heavy", 9⟩, ⟨"never", 0⟩, ⟨"light", 1⟩]
    table.pick "mute" = (none, table) ∧
      (∃ text, (table.pick "coin").1 = some text ∧ text ≠ "never") ∧
      (∃! i, Candidate.FirstBeyond candidates 9 i) ∧
      ((Finset.range 10).filter fun x => Candidate.FirstBeyond candidates x 0).card = 9 ∧
      ((Finset.range Keystream.wordCount).filter fun word => AcceptsWord 10 word ∧
        Candidate.FirstBeyond candidates (word * 10 / Keystream.wordCount) 2).card =
          429496729 := by
  intro changes table candidates
  obtain ⟨hmute, huntouched, -⟩ := pick_by_weight (Keystream.ofSeed 7) changes "mute"
  obtain ⟨hnone, -, htext, hunique, hnumbers, -, hwords⟩ :=
    pick_by_weight (Keystream.ofSeed 7) changes "coin"
  have hunknown : (table.pick "mute").1 = none := hmute.mpr (.inl rfl)
  have hknown : (table.pick "coin").1 ≠ none := by
    intro h
    obtain hnone | ⟨offered, hoffered, hweights⟩ := hnone.mp h
    · exact nomatch hnone
    · obtain rfl : candidates = offered := Option.some.inj hoffered
      exact absurd (hweights ⟨"heavy", 9⟩ (by simp [candidates])) (by decide)
  obtain ⟨text, hsome⟩ := Option.ne_none_iff_exists'.mp hknown
  have hlight := hwords (by decide) 2 ⟨"light", 1⟩ rfl
  rw [show (offered? changes "coin").getD [] = candidates from rfl,
    show Candidate.total candidates = 10 from rfl] at hlight
  refine ⟨Prod.ext hunknown (huntouched hunknown), ⟨text, hsome, ?_⟩, hunique 9 (by decide),
    hnumbers 0 ⟨"heavy", 9⟩ rfl, hlight.trans (by decide)⟩
  rintro rfl
  obtain ⟨-, i, c, -, hc, hnever, hpos⟩ := htext _ hsome
  have hmem : c ∈ candidates := List.mem_of_getElem? hc
  simp only [candidates, List.mem_cons, List.not_mem_nil, or_false] at hmem
  rcases hmem with rfl | rfl | rfl
  · exact absurd hnever (by decide)
  · exact absurd hpos (by decide)
  · exact absurd hnever (by decide)

end TemplateTable

end DiceBot
