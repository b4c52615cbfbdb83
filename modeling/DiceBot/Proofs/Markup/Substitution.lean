import DiceBot.Proofs.Markup.Locality

/-!
# Substitution as a splice

Occurrences that are in order cut a text into stretches, and replacing them one after the other,
from the last to the first, gives these stretches with the replacements between them
(`Pattern.replaceAll_reverse`). For the occurrences of a pattern this is a single scan from left to
right (`Pattern.Proper.map_of_some`, `Pattern.Proper.map_of_none`), and proofs about a scan go by
`Pattern.Proper.scan_induction`.
-/

namespace DiceBot

namespace Pattern

variable {α β γ σ : Type}

/-! ## Stretches of a text -/

/-- The occurrences lie one behind the other between two places of a text. -/
def InOrder (start stop : Nat) : List (Occurrence α) → Prop
  | [] => start ≤ stop
  | o :: os => start ≤ o.start ∧ o.start ≤ o.stop ∧ InOrder o.stop stop os

/-- The stretches of a text from place `start` on: before, between and behind occurrences. -/
def stretchesFrom (text : List Char) (start : Nat) : List (Occurrence α) → List (List Char)
  | [] => [text.drop start]
  | o :: os => (text.take o.start).drop start :: stretchesFrom text o.stop os

/-- Stretches of a text with a piece between each two of them. -/
def splice : List (List Char) → List (List Char) → List Char
  | stretch :: stretches, piece :: pieces => stretch ++ piece ++ splice stretches pieces
  | stretches, _ => stretches.flatten

/-- Maps a list from its last element to its first and carries a state from one to the next. -/
def mapFromRight (f : σ → β → γ × σ) : List β → σ → List γ × σ
  | [], s => ([], s)
  | b :: bs, s =>
    let later := mapFromRight f bs s
    let result := f later.2 b
    (result.1 :: later.1, result.2)

theorem InOrder.le {os : List (Occurrence α)} {start stop : Nat} (h : InOrder start stop os) :
    start ≤ stop := by
  induction os generalizing start with
  | nil => exact h
  | cons o os ih =>
    obtain ⟨hstart, hstop, hos⟩ := h
    have hle := ih hos
    omega

theorem InOrder.of_le {os : List (Occurrence α)} {start start' stop : Nat}
    (h : InOrder start stop os) (hle : start' ≤ start) : InOrder start' stop os := by
  cases os with
  | nil => exact hle.trans h
  | cons o os => exact ⟨hle.trans h.1, h.2⟩

theorem InOrder.shift {os : List (Occurrence α)} {start stop : Nat} (h : InOrder start stop os)
    (k : Nat) : InOrder (start + k) (stop + k) (os.map (Occurrence.shift k)) := by
  induction os generalizing start with
  | nil => exact Nat.add_le_add_right h k
  | cons o os ih =>
    exact ⟨Nat.add_le_add_right h.1 k, Nat.add_le_add_right h.2.1 k, ih h.2.2⟩

theorem replaceAll_append (solve : σ → List Char → List Char × σ) (text : List Char)
    (os os' : List (Occurrence α)) (out : List Char) (s : σ) :
    replaceAll solve text (os ++ os') out s =
      replaceAll solve text os' (replaceAll solve text os out s).1
        (replaceAll solve text os out s).2 := by
  induction os generalizing out s with
  | nil => rfl
  | cons o os ih => exact ih _ _

/-- Replacing occurrences from the last to the first puts the replacements between the stretches of
the text, however long they are. -/
theorem replaceAll_reverse (solve : σ → List Char → List Char × σ) {text : List Char}
    {os : List (Occurrence α)} {start : Nat} (h : InOrder start text.length os) (s : σ) :
    replaceAll solve text os.reverse text s =
      (text.take start ++ splice (stretchesFrom text start os)
          (mapFromRight solve (os.map (Occurrence.text · text)) s).1,
        (mapFromRight solve (os.map (Occurrence.text · text)) s).2) := by
  induction os generalizing start with
  | nil => simp [replaceAll, stretchesFrom, splice, mapFromRight]
  | cons o os ih =>
    obtain ⟨hstart, hstop, hos⟩ := h
    have hlen : (text.take o.stop).length = o.stop := List.length_take_of_le hos.le
    -- what the later occurrences have become stands behind a front of the text as it was
    rw [List.reverse_cons, replaceAll_append, ih hos, List.map_cons, mapFromRight, stretchesFrom,
      splice]
    simp only [replaceAll, replace, Prod.mk.injEq, and_true]
    have hfront : text.take start ++ (text.take o.start).drop start = text.take o.start := by
      have hmin : (text.take o.start).take start = text.take start := by
        rw [List.take_take, Nat.min_eq_left hstart]
      rw [← hmin, List.take_append_drop]
    rw [List.take_append_of_le_length (by omega), List.take_take, Nat.min_eq_left hstop,
      List.drop_left' hlen, ← List.append_assoc, ← List.append_assoc, hfront]

/-- Behind `k` more characters the stretches are the same. -/
theorem stretchesFrom_shift (text : List Char) (start k : Nat) (os : List (Occurrence α)) :
    stretchesFrom text (start + k) (os.map (Occurrence.shift k)) =
      stretchesFrom (text.drop k) start os := by
  induction os generalizing start with
  | nil => rw [List.map_nil, stretchesFrom, stretchesFrom, List.drop_drop, Nat.add_comm]
  | cons o os ih =>
    rw [List.map_cons, stretchesFrom, stretchesFrom]
    congr 1
    · simp [Occurrence.shift, List.take_drop, Nat.add_comm]
    · exact ih o.stop

/-- Characters in front of a text belong to the first of its stretches. -/
theorem stretchesFrom_zero_shift (text : List Char) (k : Nat) (os : List (Occurrence α)) :
    stretchesFrom text 0 (os.map (Occurrence.shift k)) =
      (stretchesFrom (text.drop k) 0 os).modifyHead (text.take k ++ ·) := by
  cases os with
  | nil => simp [stretchesFrom]
  | cons o os =>
    rw [List.map_cons, stretchesFrom, stretchesFrom, List.modifyHead_cons]
    congr 1
    · simp [Occurrence.shift, Nat.add_comm o.start, List.take_add]
    · exact stretchesFrom_shift text o.stop k os

theorem splice_modifyHead (w : List Char) {stretches : List (List Char)} (h : stretches ≠ [])
    (pieces : List (List Char)) :
    splice (stretches.modifyHead (w ++ ·)) pieces = w ++ splice stretches pieces := by
  cases stretches with
  | nil => exact absurd rfl h
  | cons stretch stretches => cases pieces <;> simp [splice]

theorem flatten_modifyHead (w : List Char) {stretches : List (List Char)} (h : stretches ≠ []) :
    (stretches.modifyHead (w ++ ·)).flatten = w ++ stretches.flatten := by
  cases stretches with
  | nil => exact absurd rfl h
  | cons stretch stretches => simp

@[simp] theorem length_mapFromRight (f : σ → β → γ × σ) (bs : List β) (s : σ) :
    (mapFromRight f bs s).1.length = bs.length := by
  induction bs with
  | nil => rfl
  | cons b bs ih => rw [mapFromRight, List.length_cons, List.length_cons, ih]

theorem mapFromRight_unit (f : β → γ) (bs : List β) :
    mapFromRight (fun (_ : Unit) b => (f b, ())) bs () = (bs.map f, ()) := by
  induction bs with
  | nil => rfl
  | cons b bs ih => rw [mapFromRight, ih, List.map_cons]

/-! ## The scan of a text -/

/-- The texts of the occurrences, from left to right. -/
def matched (p : Pattern α) (cs : List Char) : List (List Char) :=
  (p.occurrences cs).map (Occurrence.text · cs)

/-- The stretches of a text before, between and behind the occurrences that satisfy `q`. -/
def stretches (p : Pattern α) (q : List Char → Bool) (cs : List Char) : List (List Char) :=
  stretchesFrom cs 0 ((p.occurrences cs).filter fun o => q (o.text cs))

/-- The stretches of a text before, between and behind the occurrences. -/
def gaps (p : Pattern α) (cs : List Char) : List (List Char) := p.stretches (fun _ => true) cs

theorem stretches_ne_nil (p : Pattern α) (q : List Char → Bool) (cs : List Char) :
    p.stretches q cs ≠ [] := by
  unfold stretches
  cases (p.occurrences cs).filter fun o => q (o.text cs) <;> simp [stretchesFrom]

theorem length_stretchesFrom (text : List Char) (start : Nat) (os : List (Occurrence α)) :
    (stretchesFrom text start os).length = os.length + 1 := by
  induction os generalizing start with
  | nil => rfl
  | cons o os ih => rw [stretchesFrom, List.length_cons, List.length_cons, ih]

/-- There is one stretch more than there are occurrences. -/
theorem length_gaps (p : Pattern α) (cs : List Char) :
    (p.gaps cs).length = (p.matched cs).length + 1 := by
  rw [gaps, stretches, length_stretchesFrom, List.filter_true, matched, List.length_map]

theorem text_shift (o : Occurrence α) (k : Nat) (cs : List Char) :
    (o.shift k).text cs = o.text (cs.drop k) := by
  simp [Occurrence.text, Occurrence.shift, List.take_drop, Nat.add_comm]

theorem map_text_shift (os : List (Occurrence α)) (k : Nat) (cs : List Char) :
    (os.map (Occurrence.shift k)).map (Occurrence.text · cs) =
      os.map (Occurrence.text · (cs.drop k)) := by
  rw [List.map_map]
  exact List.map_congr_left fun o _ => text_shift o k cs

theorem filter_text_shift (q : List Char → Bool) (os : List (Occurrence α)) (k : Nat)
    (cs : List Char) :
    (os.map (Occurrence.shift k)).filter (fun o => q (o.text cs)) =
      (os.filter fun o => q (o.text (cs.drop k))).map (Occurrence.shift k) := by
  rw [List.filter_map]
  congr 1
  exact List.filter_congr fun o _ => by rw [Function.comp_apply, text_shift]

variable {p : Pattern α}

theorem matched_of_none {c : Char} {cs : List Char} (h : p (c :: cs) = none) :
    p.matched (c :: cs) = p.matched cs := by
  rw [matched, occurrences_of_none h, map_text_shift]
  rfl

theorem stretches_of_none {c : Char} {cs : List Char} (h : p (c :: cs) = none)
    (q : List Char → Bool) :
    p.stretches q (c :: cs) = (p.stretches q cs).modifyHead ([c] ++ ·) := by
  rw [stretches, occurrences_of_none h, filter_text_shift, stretchesFrom_zero_shift]
  rfl

namespace Proper

variable (hp : Proper p) {cs : List Char} {n : Nat} {meaning : α}

include hp

theorem ne_nil (h : p cs = some (n, meaning)) : cs ≠ [] := by
  rintro rfl
  have hle : n ≤ 0 := hp.le_length h
  have hpos := hp.pos h
  omega

/-- A scan is at the end of the text, at an occurrence, which it passes over as a whole, or at a
character where nothing is recognised. -/
theorem scan_induction {motive : List Char → Prop} (nil : motive [])
    (found : ∀ cs n meaning, p cs = some (n, meaning) → motive (cs.drop n) → motive cs)
    (passed : ∀ c cs, p (c :: cs) = none → motive cs → motive (c :: cs)) (cs : List Char) :
    motive cs := by
  induction hlen : cs.length using Nat.strongRecOn generalizing cs with
  | ind len ih =>
    subst hlen
    cases cs with
    | nil => exact nil
    | cons c cs =>
      cases hfound : p (c :: cs) with
      | none => exact passed c cs hfound (ih cs.length (Nat.lt_succ_self _) cs rfl)
      | some b =>
        refine found _ b.1 b.2 hfound (ih _ ?_ _ rfl)
        have hpos := hp.pos hfound
        rw [List.length_drop, List.length_cons]
        omega

theorem matched_of_some (h : p cs = some (n, meaning)) :
    p.matched cs = cs.take n :: p.matched (cs.drop n) := by
  rw [matched, occurrences_of_some (hp.ne_nil h) (hp.pos h) h, List.map_cons, map_text_shift]
  rfl

theorem stretches_of_some (h : p cs = some (n, meaning)) (q : List Char → Bool) :
    p.stretches q cs =
      if q (cs.take n) then [] :: p.stretches q (cs.drop n)
      else (p.stretches q (cs.drop n)).modifyHead (cs.take n ++ ·) := by
  rw [stretches, occurrences_of_some (hp.ne_nil h) (hp.pos h) h, List.filter_cons,
    filter_text_shift]
  show stretchesFrom cs 0 (if q (cs.take n) then _ else _) = _
  split
  · rw [stretchesFrom]
    have hrest := stretchesFrom_shift cs 0 n
      ((p.occurrences (cs.drop n)).filter fun o => q (o.text (cs.drop n)))
    rw [Nat.zero_add] at hrest
    exact congrArg ([] :: ·) hrest
  · exact stretchesFrom_zero_shift cs n _

theorem inOrder_occurrences (cs : List Char) : InOrder 0 cs.length (p.occurrences cs) := by
  induction cs using hp.scan_induction with
  | nil => exact Nat.le_refl 0
  | found cs n meaning h ih =>
    have hle : n ≤ cs.length := hp.le_length h
    have hshift := ih.shift n
    rw [List.length_drop, Nat.sub_add_cancel hle, Nat.zero_add] at hshift
    rw [occurrences_of_some (hp.ne_nil h) (hp.pos h) h]
    exact ⟨Nat.le_refl 0, Nat.zero_le n, hshift⟩
  | passed c cs h ih =>
    rw [occurrences_of_none h]
    exact (ih.shift 1).of_le (Nat.zero_le _)

/-- A text is rewritten by putting what is written for its occurrences, which are visited from the
last to the first, between its stretches. -/
theorem substitute_eq_splice (solve : σ → List Char → List Char × σ) (cs : List Char) (s : σ) :
    p.substitute solve cs s =
      (splice (p.gaps cs) (mapFromRight solve (p.matched cs) s).1,
        (mapFromRight solve (p.matched cs) s).2) := by
  rw [substitute, replaceAll_reverse solve (hp.inOrder_occurrences cs), gaps, stretches,
    List.filter_true]
  rfl

theorem map_eq_splice (f : List Char → List Char) (cs : List Char) :
    p.map f cs = splice (p.gaps cs) ((p.matched cs).map f) := by
  rw [map, hp.substitute_eq_splice, mapFromRight_unit]

theorem map_of_some (h : p cs = some (n, meaning)) (f : List Char → List Char) :
    p.map f cs = f (cs.take n) ++ p.map f (cs.drop n) := by
  rw [hp.map_eq_splice, hp.map_eq_splice, gaps, hp.stretches_of_some h, if_pos rfl,
    hp.matched_of_some h, List.map_cons]
  rfl

theorem map_of_none {c : Char} (h : p (c :: cs) = none) (f : List Char → List Char) :
    p.map f (c :: cs) = c :: p.map f cs := by
  rw [hp.map_eq_splice, hp.map_eq_splice, gaps, stretches_of_none h,
    splice_modifyHead [c] (stretches_ne_nil _ _ _), matched_of_none h]
  rfl

/-- A text stays as it is if every occurrence in it does. -/
theorem map_eq_self {f : List Char → List Char} (h : ∀ m ∈ p.matched cs, f m = m) :
    p.map f cs = cs := by
  induction cs using hp.scan_induction with
  | nil => rfl
  | found cs n meaning hfound ih =>
    rw [hp.matched_of_some hfound] at h
    rw [hp.map_of_some hfound, h _ List.mem_cons_self,
      ih fun m hm => h m (List.mem_cons_of_mem _ hm), List.take_append_drop]
  | passed c cs hnone ih =>
    rw [matched_of_none hnone] at h
    rw [hp.map_of_none hnone, ih h]

theorem length_map_le {f : List Char → List Char}
    (h : ∀ m ∈ p.matched cs, (f m).length ≤ m.length) : (p.map f cs).length ≤ cs.length := by
  induction cs using hp.scan_induction with
  | nil => exact Nat.le_refl 0
  | found cs n meaning hfound ih =>
    rw [hp.matched_of_some hfound] at h
    have hfirst := h _ List.mem_cons_self
    have hrest := ih fun m hm => h m (List.mem_cons_of_mem _ hm)
    calc (p.map f cs).length
        = (f (cs.take n)).length + (p.map f (cs.drop n)).length := by
          rw [hp.map_of_some hfound, List.length_append]
      _ ≤ (cs.take n).length + (cs.drop n).length := Nat.add_le_add hfirst hrest
      _ = cs.length := by rw [← List.length_append, List.take_append_drop]
  | passed c cs hnone ih =>
    rw [matched_of_none hnone] at h
    rw [hp.map_of_none hnone]
    exact Nat.succ_le_succ (ih h)

/-- Where no occurrence becomes longer, a text stays as it is only if every occurrence does. -/
theorem map_eq_self_iff {f : List Char → List Char}
    (h : ∀ m ∈ p.matched cs, (f m).length ≤ m.length) :
    p.map f cs = cs ↔ ∀ m ∈ p.matched cs, f m = m := by
  refine ⟨fun heq => ?_, hp.map_eq_self⟩
  induction cs using hp.scan_induction with
  | nil => exact fun m hm => absurd hm List.not_mem_nil
  | found cs n meaning hfound ih =>
    rw [hp.matched_of_some hfound] at h ⊢
    have hfirst := h _ List.mem_cons_self
    have hrest : ∀ m ∈ p.matched (cs.drop n), (f m).length ≤ m.length :=
      fun m hm => h m (List.mem_cons_of_mem _ hm)
    have hle := hp.length_map_le hrest
    have hsplit : f (cs.take n) ++ p.map f (cs.drop n) = cs.take n ++ cs.drop n := by
      rw [← hp.map_of_some hfound, heq, List.take_append_drop]
    -- neither part may become shorter, as the other one does not become longer
    have hlength := congrArg List.length hsplit
    simp only [List.length_append] at hlength
    obtain ⟨hhead, htail⟩ := List.append_inj hsplit (by omega)
    exact List.forall_mem_cons.mpr ⟨hhead, ih hrest htail⟩
  | passed c cs hnone ih =>
    rw [matched_of_none hnone] at h ⊢
    rw [hp.map_of_none hnone] at heq
    exact ih h (List.cons.inj heq).2

/-- A text is its stretches with its occurrences between them. -/
theorem splice_matched (cs : List Char) : splice (p.gaps cs) (p.matched cs) = cs := by
  have hself : p.map id cs = cs := hp.map_eq_self fun m _ => rfl
  rwa [hp.map_eq_splice, List.map_id] at hself

/-- Each occurrence is recognised again when it stands alone, and it is taken as a whole. -/
theorem eq_some_of_mem_matched {m : List Char} (h : m ∈ p.matched cs) :
    ∃ meaning, p m = some (m.length, meaning) := by
  induction cs using hp.scan_induction with
  | nil => exact absurd h List.not_mem_nil
  | found cs n meaning hfound ih =>
    rw [hp.matched_of_some hfound] at h
    rcases List.mem_cons.mp h with rfl | h
    · have hlen : (cs.take n).length = n := List.length_take_of_le (hp.le_length hfound)
      refine ⟨meaning, ?_⟩
      rw [hlen]
      refine hp.of_append (cs.drop n) ?_ (Nat.le_of_eq hlen.symm)
      rwa [List.take_append_drop]
    · exact ih h
  | passed c cs hnone ih =>
    rw [matched_of_none hnone] at h
    exact ih h

/-- Taking out the occurrences that satisfy `q` joins the stretches between them. -/
theorem map_eq_flatten_stretches (q : List Char → Bool) (cs : List Char) :
    p.map (fun m => if q m then [] else m) cs = (p.stretches q cs).flatten := by
  induction cs using hp.scan_induction with
  | nil => rfl
  | found cs n meaning h ih =>
    rw [hp.map_of_some h, hp.stretches_of_some h, ih]
    split
    · rw [List.flatten_cons]
    · rw [flatten_modifyHead _ (stretches_ne_nil _ _ _)]
  | passed c cs h ih =>
    rw [hp.map_of_none h, stretches_of_none h, flatten_modifyHead _ (stretches_ne_nil _ _ _), ih]
    rfl

end Proper

end Pattern

end DiceBot
