import DiceBot.Proofs.Bot.TwoRuns
import DiceBot.Proofs.Memory.Owners

/-!
# Fixed templates

A name is fixed in a table if at most one text can be drawn for it: it has a single candidate of
weight one, or nothing to draw from. For fixed names the stream that a table draws with does not
matter (`TemplateTable.pick_fst_of_fixed`).

So a message for which only fixed templates are drawn is answered in the same way with any stream
and with any other templates (`Bot.SameButTemplates.answer`).
-/

namespace DiceBot

/-! ## Tables -/

namespace TemplateTable

/-- At most one text can be drawn for the name. -/
def Fixed (table : TemplateTable) (name : String) : Prop :=
  Candidate.total ((table.get? name).getD []) ≤ 1

instance (table : TemplateTable) (name : String) : Decidable (table.Fixed name) :=
  inferInstanceAs (Decidable (_ ≤ _))

/-- The table without the names that are not fixed. -/
def fixedOnly (table : TemplateTable) : TemplateTable :=
  { table with candidates := table.candidates.filter fun _ cs => decide (Candidate.total cs ≤ 1) }

variable {table table' : TemplateTable} {name : String}

theorem get?_fixedOnly (table : TemplateTable) (name : String) :
    table.fixedOnly.get? name =
      (table.get? name).filter fun cs => decide (Candidate.total cs ≤ 1) :=
  Std.ExtTreeMap.getElem?_filter'

theorem fixed_fixedOnly (table : TemplateTable) (name : String) : table.fixedOnly.Fixed name := by
  unfold Fixed
  rw [get?_fixedOnly]
  cases table.get? name with
  | none => simp [Candidate.total]
  | some cs =>
    by_cases hcs : Candidate.total cs ≤ 1
    · simp [Option.filter, hcs]
    · simp [Option.filter, hcs, Candidate.total]

theorem get?_fixedOnly_of_fixed (h : table.Fixed name) :
    table.fixedOnly.get? name = table.get? name := by
  rw [get?_fixedOnly]
  unfold Fixed at h
  cases hget : table.get? name with
  | none => rfl
  | some cs =>
    rw [hget] at h
    exact if_pos (decide_eq_true h)

/-- Whether names are fixed depends on the candidates alone. -/
theorem fixed_congr (h : table.candidates = table'.candidates) (name : String) :
    table.Fixed name ↔ table'.Fixed name := by
  rw [Fixed, Fixed, get?, get?, h]

/-- All names are fixed if those of the table are. -/
theorem fixed_of_toList (h : ∀ entry ∈ table.candidates.toList, Candidate.total entry.2 ≤ 1)
    (name : String) : table.Fixed name := by
  unfold Fixed get?
  cases hget : table.candidates[name]? with
  | none => exact Nat.zero_le 1
  | some cs => exact h (name, cs) (Std.ExtTreeMap.mem_toList_iff_getElem?_eq_some.mpr hget)

/-- A draw does not change which candidates there are. -/
theorem candidates_pick (table : TemplateTable) (name : String) :
    (table.pick name).2.candidates = table.candidates := by
  unfold pick
  dsimp only
  split <;> rfl

/-- The only number below one. -/
theorem draw_one (stream : Keystream) : (draw 1 stream).1 = 0 := by
  have hlt : (draw 1 stream).1 < 1 := drawBelow_lt (fun s => UInt32.toNat_lt _) Nat.one_pos _ _
  omega

/-- What is drawn for a fixed name does not depend on the stream. -/
theorem pick_fst_of_fixed (h : table.Fixed name) :
    (table.pick name).1 =
      if Candidate.total ((table.get? name).getD []) = 0 then none
      else (Candidate.select? ((table.get? name).getD []) 0).map Candidate.text := by
  unfold Fixed at h
  unfold pick
  dsimp only
  split
  · rfl
  · have hone : Candidate.total ((table.get? name).getD []) = 1 := by omega
    rw [hone, draw_one]

/-- The table has the reply templates with their candidates, and nothing else. -/
def OnlyReplies (table : TemplateTable) : Prop :=
  ∀ name, table.get? name = Replies.builtin.lookup name

/-- The candidates set under different names are found under these names. -/
theorem get?_foldl_set {entries : List (String × List Candidate)}
    (h : (entries.map Prod.fst).Nodup) (table : TemplateTable) (name : String) :
    (entries.foldl (fun table (name, candidates) => table.set name candidates) table).get? name =
      (entries.lookup name).or (table.get? name) := by
  induction entries generalizing table with
  | nil => rfl
  | cons entry entries ih =>
    obtain ⟨hnotMem, hrest⟩ := List.nodup_cons.mp h
    have hset : (table.set entry.1 entry.2).get? name =
        if name = entry.1 then some entry.2 else table.get? name :=
      Records.getElem?_insert_map table.candidates entry.1 name entry.2
    rw [List.foldl_cons, ih hrest, List.lookup_cons]
    show (entries.lookup name).or ((table.set entry.1 entry.2).get? name) = _
    rw [hset]
    by_cases hname : name = entry.1
    · have hnone : entries.lookup name = none := by
        refine List.lookup_eq_none_iff.mpr fun other hother => ?_
        rw [hname, bne_iff_ne]
        exact fun heq => hnotMem (heq ▸ List.mem_map_of_mem hother)
      rw [hnone, if_pos hname, beq_iff_eq.mpr hname]
      rfl
    · rw [if_neg hname, beq_eq_false_iff_ne.mpr hname]

theorem onlyReplies_withReplies (seed : UInt64) : (ofSeed seed).withReplies.OnlyReplies := by
  intro name
  have hempty : (ofSeed seed).get? name = none := Std.ExtTreeMap.getElem?_empty
  rw [withReplies, get?_foldl_set (by decide), hempty, Option.or_none]

/-- Of the reply templates only the one that refuses too many rolls has several texts. -/
theorem OnlyReplies.fixed (h : table.OnlyReplies) (hname : name ≠ "core:rollTooMany") :
    table.Fixed name := by
  have hbuiltin : ∀ entry ∈ Replies.builtin,
      entry.1 ≠ "core:rollTooMany" → Candidate.total entry.2 ≤ 1 := by decide
  unfold Fixed
  rw [h name]
  cases hlookup : Replies.builtin.lookup name with
  | none => exact Nat.zero_le 1
  | some cs =>
    obtain ⟨front, back, heq, -⟩ := List.lookup_eq_some_iff.mp hlookup
    exact hbuiltin (name, cs) (by rw [heq]; simp) hname

/-- Two tables with the same candidates of allowed names, which are fixed. Their streams may be any
streams. -/
structure SameFixed (allowed : String → Prop) (table table' : TemplateTable) : Prop where
  get? : ∀ name, allowed name → table.get? name = table'.get? name
  fixed : ∀ name, allowed name → table.Fixed name

/-- As long as they are drawn from for allowed names, they give the same texts. -/
theorem SameFixed.pick {allowed : String → Prop} (h : SameFixed allowed table table')
    (hname : allowed name) :
    (table.pick name).1 = (table'.pick name).1 ∧
      SameFixed allowed (table.pick name).2 (table'.pick name).2 := by
  have hget := h.get? name hname
  have hfixed := h.fixed name hname
  have hfixed' : table'.Fixed name := by rwa [Fixed, ← hget]
  refine ⟨?_, ⟨fun other hother => ?_, fun other hother => ?_⟩⟩
  · rw [pick_fst_of_fixed hfixed, pick_fst_of_fixed hfixed', hget]
  · rw [TemplateTable.get?, TemplateTable.get?, candidates_pick, candidates_pick]
    exact h.get? other hother
  · exact (fixed_congr (candidates_pick table name) other).mpr (h.fixed other hother)

end TemplateTable

namespace Scoped

/-- An assignment has nothing to do with templates. -/
theorem set_templates (s : Scoped) (templates : TemplateTable) (name : String) (value : Value) :
    ({ s with templates } : Scoped).set name value = { s.set name value with templates } := by
  unfold Scoped.set
  dsimp only
  cases (s.aliases.resolve name).1 <;> rfl

theorem templates_set (s : Scoped) (name : String) (value : Value) :
    (s.set name value).templates = s.templates := by
  unfold Scoped.set
  dsimp only
  cases (s.aliases.resolve name).1 <;> rfl

/-- Variables that differ in their templates alone. For allowed names these are the same, and
fixed. -/
structure SameButTemplates (allowed : String → Prop) (s t : Scoped) : Prop where
  eq : t = { s with templates := t.templates }
  templates : s.templates.SameFixed allowed t.templates

theorem alike_sameButTemplates (allowed : String → Prop) :
    Variables.Alike allowed (SameButTemplates allowed) where
  get? h name := by
    rw [h.eq]
    rfl
  legacy? h name := by
    rw [h.eq]
    rfl
  set {s t} h name value := by
    refine ⟨?_, ?_⟩
    · show t.set name value = { s.set name value with templates := (t.set name value).templates }
      rw [templates_set, ← set_templates, ← h.eq]
    · show (s.set name value).templates.SameFixed allowed (t.set name value).templates
      rw [templates_set, templates_set]
      exact h.templates
  template? {s t} h name hname := by
    obtain ⟨htext, htemplates⟩ := h.templates.pick hname
    refine ⟨htext, ⟨?_, htemplates⟩⟩
    exact congrArg (fun s : Scoped => { s with templates := (t.templates.pick name).2 }) h.eq

end Scoped

/-! ## Commands -/

namespace Bot

variable {δ : Type}

/-- States that differ in their templates alone. For allowed names these are the same, and fixed. -/
structure SameButTemplates (allowed : String → Prop) (s t : Bot δ) : Prop where
  eq : t = { s with templates := t.templates }
  templates : s.templates.SameFixed allowed t.templates

/-- What two runs leave that differ in their templates alone is kept in the same way. -/
theorem SameButTemplates.keep {allowed : String → Prop} {s t : Bot δ}
    (h : s.SameButTemplates allowed t) (seat : Seat) {w v : World δ Scoped}
    (hv : Machine.SameButVars (Scoped.SameButTemplates allowed) w v) :
    (s.keep seat w).SameButTemplates allowed (t.keep seat v) := by
  have hrecords : t.records.keep seat v.vars = s.records.keep seat w.vars := by
    rw [h.eq, hv.vars.eq]
    rfl
  have htransient : v.vars.transient = w.vars.transient := by rw [hv.vars.eq]
  refine ⟨?_, hv.vars.templates⟩
  rw [Bot.keep, Bot.keep, hrecords, htransient, ← hv.dice]
  exact congrArg (fun t' : Bot δ => { t' with
    dice := w.dice
    records := s.records.keep seat w.vars
    templates := v.vars.templates
    transient := w.vars.transient }) h.eq

variable [DiceSource δ]

theorem mirrors_sameButTemplates (allowed : String → Prop) (seat : Seat) :
    Mirrors seat (SameButTemplates (δ := δ) allowed) allowed where
  settings s t h := by rw [h.eq]
  aliases s t h := by rw [h.eq]
  seatMap s t h := by rw [h.eq]
  transient s t f h := by
    refine ⟨?_, h.templates⟩
    rw [h.eq]
  pickTemplate name hname s t h := by
    obtain ⟨htext, htemplates⟩ := h.templates.pick hname
    refine ⟨htext, ⟨?_, htemplates⟩⟩
    exact congrArg (fun t' : Bot δ => { t' with templates := (t.templates.pick name).2 }) h.eq
  runProgram p _ s t h hdrawn := by
    have hworld : Machine.SameButVars (Scoped.SameButTemplates allowed) (s.world seat)
        (t.world seat) := ⟨by rw [h.eq]; rfl, ⟨by rw [h.eq]; rfl, h.templates⟩, rfl⟩
    have hsame := s.settings.machine.sameOutcome_evaluate_of_drawn p
      (Scoped.alike_sameButTemplates allowed) hworld hdrawn
    unfold Bot.runProgram EStateM.run
    rw [show t.settings = s.settings by rw [h.eq]]
    generalize s.settings.machine.evaluate p (s.world seat) = outcome at hsame ⊢
    generalize s.settings.machine.evaluate p (t.world seat) = outcome' at hsame ⊢
    cases hsame with
    | ok hv => exact ⟨rfl, h.keep seat hv⟩
    | error hv => exact ⟨rfl, h.keep seat hv⟩
  restrict s t vars _ h := by
    refine ⟨?_, h.templates⟩
    rw [h.eq]

/-- A message that draws templates for allowed names only is answered in the same way whatever the
other templates are, and whatever the stream is. -/
theorem SameButTemplates.answer {allowed : String → Prop} {s t : Bot δ}
    (h : s.SameButTemplates allowed t) (message : Message)
    (hdrawn : ∀ name ∈ drawn message s, allowed name) :
    (answer message s).1 = (answer message t).1 ∧
      (answer message s).2.SameButTemplates allowed (answer message t).2 :=
  (mirrors_sameButTemplates allowed message.seat).of_draws ((answerLog message).draws s) hdrawn h

end Bot

end DiceBot
