import DiceBot.Proofs.Bot.Cards
import DiceBot.Proofs.Bot.Rendering
import DiceBot.Proofs.Machine.Effects
import DiceBot.Proofs.Memory.OneMap

/-!
# A transient variable while sources are run

A command sets transient variables before it runs what the sender has written, and reads them when
that is over. What such a variable then holds has been told by nobody but the sources that were run
(`Bot.HoldsAt`): it is a plain value, since nothing else is ever assigned, and it is what the
command has set if no source assigns the variable (`Bot.HoldsAt.run`).
-/

namespace DiceBot

/-! ## What can be drawn -/

namespace TemplateTable

variable {table : TemplateTable} {name text : String}

theorem mem_of_select? {candidates : List Candidate} {x : Nat} {c : Candidate}
    (h : Candidate.select? candidates x = some c) : c ∈ candidates := by
  induction candidates generalizing x with
  | nil => exact nomatch h
  | cons first candidates ih =>
    rw [Candidate.select?] at h
    split at h
    · exact Option.some.inj h ▸ List.mem_cons_self
    · exact List.mem_cons_of_mem _ (ih h)

/-- What is drawn is a candidate. -/
theorem exists_of_pick (h : (table.pick name).1 = some text) :
    ∃ c ∈ (table.get? name).getD [], c.text = text := by
  unfold pick at h
  dsimp only at h
  split at h
  · exact nomatch h
  · obtain ⟨c, hselected, rfl⟩ := Option.map_eq_some_iff.mp h
    exact ⟨c, mem_of_select? hselected, rfl⟩

/-- All candidates of the name pass a test. -/
def Passes (table : TemplateTable) (test : Expr → Bool) (name : String) : Prop :=
  ∀ c ∈ (table.get? name).getD [], Expr.treePasses test (Expr.parseTemplate c.text) = true

instance (table : TemplateTable) (test : Expr → Bool) (name : String) :
    Decidable (table.Passes test name) := inferInstanceAs (Decidable (∀ c ∈ _, _))

/-- A reply template passes a test if its built-in candidates do. -/
theorem HasReplies.passes (h : table.HasReplies) {test : Expr → Bool}
    (hpasses : (Replies.builtin.lookup name).any (fun candidates =>
      candidates.all fun c => Expr.treePasses test (Expr.parseTemplate c.text)) = true) :
    table.Passes test name := by
  obtain ⟨candidates, hlookup, hall⟩ := (Option.any_eq_true _ _).mp hpasses
  rw [Passes, h.get? hlookup]
  exact List.all_eq_true.mp hall

theorem Passes.congr {table' : TemplateTable} {test : Expr → Bool} (h : table.Passes test name)
    (hcandidates : table'.candidates = table.candidates) : table'.Passes test name := by
  rw [Passes, get?, hcandidates]
  exact h

end TemplateTable

/-! ## Scoped variables -/

/-- A name is resolved to a transient variable if it is that variable. -/
theorem Aliases.resolve_eq_transient_iff {aliases : Aliases} {name other : String}
    (hname : Tier.ofName name = .transient) :
    aliases.resolve other = (.transient, name) ↔ other = name := by
  constructor
  · intro h
    unfold Aliases.resolve at h
    split at h
    · exact nomatch h
    · exact congrArg Prod.snd h
  · rintro rfl
    simp only [Aliases.resolve, hname]

namespace Scoped

variable {s t : Scoped} {allowed : String → Bool} {Q : Value → Prop} {name : String}

theorem getElem?_transient_set (hname : Tier.ofName name = .transient) (s : Scoped)
    (other : String) (value : Value) : (s.set other value).transient[name]? =
      if other = name then some value else s.transient[name]? := by
  have hentries := congrFun (s.entries_set other value) (.transient, name)
  rw [Function.update_apply] at hentries
  refine hentries.trans (if_congr ?_ rfl rfl)
  rw [eq_comm, Aliases.resolve_eq_transient_iff hname]

/-- All sources that can be expanded assign to allowed names only. -/
structure AssignsOnly (allowed : String → Bool) (s : Scoped) : Prop where
  entries : ∀ place value, s.entries place = some value → value.assignsOnly allowed = true
  templates : ∀ name, s.templates.Passes (·.assignsOnly allowed) name

theorem AssignsOnly.set (h : s.AssignsOnly allowed) (name : String) {value : Value}
    (hvalue : value.assignsOnly allowed = true) : (s.set name value).AssignsOnly allowed where
  entries place found hfound := by
    rw [entries_set, Function.update_apply] at hfound
    split at hfound
    · exact Option.some.inj hfound ▸ hvalue
    · exact h.entries place found hfound
  templates other := by
    rw [templates_set]
    exact h.templates other

/-- Where all names are allowed there is nothing to say of sources. -/
theorem assignsOnly_of_forall (h : ∀ name, allowed name = true) (s : Scoped) :
    s.AssignsOnly allowed :=
  ⟨fun _ value _ => value.assignsOnly_of_forall h,
    fun _ _ _ => Expr.treePasses_of_forall (Expr.assignsOnly_of_forall h) _⟩

/-- A transient variable holds a value of a kind, all sources assign to allowed names only, and the
other tables are those of `s`, of templates at least the candidates. -/
structure Holds (allowed : String → Bool) (name : String) (Q : Value → Prop) (s t : Scoped) :
    Prop where
  aliases : t.aliases = s.aliases
  legacy : t.legacy = s.legacy
  candidates : t.templates.candidates = s.templates.candidates
  sources : t.AssignsOnly allowed
  held : ∃ value, t.transient[name]? = some value ∧ Q value

theorem Holds.set (h : Holds allowed name Q s t) (hname : Tier.ofName name = .transient)
    {other : String} {value : Value} (hvalue : value.assignsOnly allowed = true)
    (hQ : other = name → Q value) : Holds allowed name Q s (t.set other value) where
  aliases := (t.sameTables_set other value).aliases.trans h.aliases
  legacy := (t.sameTables_set other value).legacy.trans h.legacy
  candidates := by rw [templates_set, h.candidates]
  sources := h.sources.set other hvalue
  held := by
    rw [getElem?_transient_set hname]
    split
    · next heq => exact ⟨value, rfl, hQ heq⟩
    · exact h.held

/-- If plain values are of the kind, or nothing is assigned to the variable, evaluations see to it
that it holds a value of the kind. -/
theorem confines_holds (s : Scoped) (hname : Tier.ofName name = .transient)
    (hbase : name ≠ baseVariable)
    (hQ : allowed name = true → ∀ value : Value, value.isComputed = false → Q value) :
    Machine.Confines (Holds allowed name Q s) allowed where
  stored t other value h hget := h.sources.entries (t.aliases.resolve other) value hget
  drawn t other text h hdrawn := by
    obtain ⟨c, hc, rfl⟩ := TemplateTable.exists_of_pick hdrawn
    exact h.sources.templates other c hc
  draw t other h :=
    ⟨h.aliases, h.legacy, (TemplateTable.candidates_pick _ _).trans h.candidates,
      ⟨h.sources.entries,
        fun name => (h.sources.templates name).congr (TemplateTable.candidates_pick _ _)⟩, h.held⟩
  assign t other value h hallowed hplain :=
    h.set hname (Value.assignsOnly_of_plain hplain) fun heq => hQ (heq ▸ hallowed) value hplain
  base t value h hvalue := h.set hname hvalue fun heq => absurd heq.symm hbase

end Scoped

/-! ## Commands -/

namespace Bot

variable {δ : Type} [DiceSource δ] {s : Bot δ} {seat : Seat}
variable {allowed : String → Bool} {name : String} {Q : Value → Prop} {before : Scoped}

/-- What is seen at the seat holds the variable. -/
def HoldsAt (seat : Seat) (allowed : String → Bool) (name : String) (Q : Value → Prop)
    (before : Scoped) (s : Bot δ) : Prop := before.Holds allowed name Q (s.world seat).vars

theorem run_of_error {source : String} {fault : Fault}
    (h : s.settings.machine.code.compile source = .error fault) :
    run source seat s = (.error fault, s) := by
  unfold run
  rw [Act.bind_of_eq (get_eq s), h]
  rfl

theorem snd_run_of_ok {source : String} {p : Program}
    (h : s.settings.machine.code.compile source = .ok p) :
    (run source seat s).2 = (runProgram seat p s).2 := by
  unfold run
  rw [Act.bind_of_eq (get_eq s), h]
  dsimp only
  rcases hrun : runProgram seat p s with ⟨fault | e, t⟩
  · rw [Act.bind_of_eq hrun]
    rfl
  · rw [Act.bind_of_eq hrun]
    rfl

/-- Running a source that assigns to allowed names only leaves the variable held. -/
theorem HoldsAt.run (h : s.HoldsAt seat allowed name Q before)
    (hname : Tier.ofName name = .transient) (hbase : name ≠ baseVariable)
    (hQ : allowed name = true → ∀ value : Value, value.isComputed = false → Q value)
    {source : String}
    (hsource : Expr.treePasses (·.assignsOnly allowed) (Expr.parse source) = true) :
    (run source seat s).2.HoldsAt seat allowed name Q before := by
  cases hcompile : s.settings.machine.code.compile source with
  | error fault =>
    rw [run_of_error hcompile]
    exact h
  | ok p =>
    obtain ⟨e, hparse, rfl⟩ := CodeSettings.programOf_eq_ok_iff.mp hcompile
    have hconfines := before.confines_holds hname hbase hQ
    have hevaluate := hconfines.evaluate (δ := δ) (m := s.settings.machine)
      (Expr.complete_of_parse hparse) (Expr.treePasses_of_ok hsource hparse)
    have hafter : before.Holds allowed name Q (Eval.after
        (s.settings.machine.evaluate (e.program s.settings.machine.code)) (s.world seat)).vars :=
      hevaluate.holds_after h
    rw [snd_run_of_ok hcompile, runProgram_eq_keep]
    generalize Eval.after _ (s.world seat) = w at hafter ⊢
    unfold HoldsAt
    rwa [vars_world_keep s seat (hafter.aliases.trans h.aliases.symm)
      (hafter.legacy.trans h.legacy.symm)]

end Bot

end DiceBot
