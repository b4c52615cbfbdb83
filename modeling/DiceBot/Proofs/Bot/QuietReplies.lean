import DiceBot.Proofs.Bot.HeldVariables
import DiceBot.Proofs.Bot.Rolling
import DiceBot.Proofs.Memory.Keeping

/-!
# Replies that change nothing

A template that does nothing but read variables is filled without a change to any of them if this
is so wherever it reads one (`Bot.sameStored_render`). If it reads transient variables with plain
values, it leaves no trace: no dice are rolled, and the maps are kept as they were found
(`Bot.render_of_readsOnly`). If the templates for rolls read nothing but what the command itself has set (`Bot.QuietRolls`), a roll
changes nothing any more once it has been evaluated (`Bot.SettledAt.rollFailed`,
`Bot.SettledAt.rollSucceeded`).
-/

namespace DiceBot

namespace Bot

variable {δ : Type} [DiceSource δ] {s t : Bot δ} {seat : Seat} {names : List String}

/-! ## Templates that read variables -/

/-- Each of the names is a transient variable with a value that is not evaluated. -/
def HasPlain (vars : VariableMap) (names : List String) : Prop :=
  ∀ name ∈ names, Tier.ofName name = .transient ∧
    ∃ value, vars[name]? = some value ∧ value.isComputed = false

theorem HasPlain.insert {vars : VariableMap} (h : HasPlain vars names) {name : String}
    (hname : Tier.ofName name = .transient) {value : Value} (hvalue : value.isComputed = false) :
    HasPlain (vars.insert name value) (name :: names) := by
  intro other hother
  by_cases heq : other = name
  · subst heq
    exact ⟨hname, value, Std.ExtTreeMap.getElem?_insert_self, hvalue⟩
  · rw [Records.getElem?_insert_map, if_neg heq]
    exact h other ((List.mem_cons.mp hother).resolve_left heq)

theorem HasPlain.mono {vars : VariableMap} {names' : List String} (h : HasPlain vars names)
    (hsubset : names' ⊆ names) : HasPlain vars names' := fun name hname => h name (hsubset hname)

/-- A program that reads plain transient variables alone leaves everything as it is. -/
theorem snd_runProgram_of_readsOnly {e : Expr} (hcomplete : e.Complete)
    (he : e.readsOnly names = true) (hnames : HasPlain s.transient names)
    (hmaps : s.records.HasMaps seat) :
    (runProgram seat (e.program s.settings.machine.code) s).2 = s := by
  have hget : ∀ name ∈ names, ∃ value,
      Variables.get? (s.world seat).vars name = some value ∧ value.isComputed = false := by
    intro name hname
    obtain ⟨htier, value, hvalue, hplain⟩ := hnames name hname
    exact ⟨value, (Scoped.get?_of_transient htier _).trans hvalue, hplain⟩
  obtain ⟨hdice, hvars⟩ := (Expr.respects_evaluate_of_readsOnly (m := s.settings.machine) hcomplete
    he hget).holds_after ⟨rfl, rfl⟩
  rw [runProgram_eq_keep]
  unfold keep
  rw [hdice, hvars]
  show ({ s with records := s.records.keep seat (s.world seat).vars } : Bot δ) = s
  rw [world, Records.keep_of_hasMaps hmaps]

/-- What a reply leaves is left by drawing a template, or by the program of a candidate after
that. -/
theorem snd_render_cases (name : String) (seat : Seat) (s : Bot δ) :
    let drawn : Bot δ := { s with templates := (s.templates.pick name).2 }
    (render name seat s).2 = drawn ∨ ∃ c ∈ (s.templates.get? name).getD [], ∃ e,
      Expr.parseTemplate c.text = .ok e ∧
        (render name seat s).2 = (runProgram seat (e.program s.settings.machine.code) drawn).2 := by
  intro drawn
  have hdrawn : pickTemplate name s = ((s.templates.pick name).1, drawn) := rfl
  unfold render
  rw [Act.bind_of_eq hdrawn]
  cases hpick : (s.templates.pick name).1 with
  | none => exact .inl rfl
  | some text =>
    obtain ⟨c, hc, rfl⟩ := TemplateTable.exists_of_pick hpick
    dsimp only
    rw [Act.bind_of_eq (get_eq drawn)]
    cases hcompile : drawn.settings.machine.code.compileTemplate c.text with
    | error fault => exact .inl rfl
    | ok p =>
      obtain ⟨e, hparse, rfl⟩ := CodeSettings.programOf_eq_ok_iff.mp hcompile
      refine .inr ⟨c, hc, e, hparse, ?_⟩
      dsimp only
      rcases hresult : runProgram seat (e.program drawn.settings.machine.code) drawn with
        ⟨fault | result, u⟩
      · rw [Act.bind_of_eq hresult]
        rfl
      · rw [Act.bind_of_eq hresult]
        rfl

/-- If all candidates of a name are like that, only the stream of the templates goes on. -/
theorem render_of_readsOnly {name : String}
    (htemplates : s.templates.Passes (·.readsOnly names) name)
    (hnames : HasPlain s.transient names) (hmaps : s.records.HasMaps seat) :
    (render name seat s).2 = { s with templates := (s.templates.pick name).2 } := by
  let drawn : Bot δ := { s with templates := (s.templates.pick name).2 }
  obtain hdrawn | ⟨c, hc, e, hparse, hrun⟩ := snd_render_cases name seat s
  · exact hdrawn
  · exact hrun.trans (snd_runProgram_of_readsOnly (s := drawn)
      (Expr.complete_of_parseTemplate hparse) (Expr.treePasses_of_ok (htemplates c hc) hparse)
      hnames hmaps)

/-! ## Templates that leave the variables as they are -/

/-- The dice are the same, and so are the variables of all owners. -/
structure SameStored (s t : Bot δ) : Prop where
  dice : t.dice = s.dice
  records : s.records.SameVariables t.records

/-- The dice are as they are in the state, and what is seen is as it is seen there at the seat, up
to the stream of the templates. -/
def Untouched (s : Bot δ) (seat : Seat) (w : World δ Scoped) : Prop :=
  w.dice = s.dice ∧ (s.world seat).vars.SameButStream w.vars

/-- Reading a plain transient variable touches nothing. -/
theorem plain_load_of_hasPlain (hnames : HasPlain s.transient names) {name : String}
    (hname : name ∈ names) (m : Machine) : Eval.Plain (s.Untouched seat) (m.load name) := by
  rintro w ⟨hdice, hvars⟩
  obtain ⟨htier, value, hvalue, hplain⟩ := hnames name hname
  have hget : Variables.get? w.vars name = some value := by
    rw [hvars.others]
    exact (Scoped.get?_of_transient htier _).trans hvalue
  rw [Machine.load, Machine.resolve_of_get? _ hplain hget]
  exact ⟨⟨hdice, hvars⟩, hplain⟩

/-- Reading a name touches nothing if no computed value is stored under it, and its templates have
no placeholders. -/
theorem plain_load_of_unread {name : String}
    (hstored : ∀ value, (s.world seat).vars.get? name = some value → value.isComputed = false)
    (htemplates : s.templates.Passes (·.readsOnly []) name) (m : Machine) :
    Eval.Plain (s.Untouched seat) (m.load name) := by
  refine Expr.plain_load_of_draw (fun w value hw hget => hstored value ?_) (fun w hw => ?_)
    fun w text hw hdrawn => ?_
  · have hget' : w.vars.get? name = some value := hget
    rwa [hw.2.others] at hget'
  · obtain ⟨hdice, hvars⟩ := hw
    refine ⟨hdice, ?_, (TemplateTable.candidates_pick _ _).trans hvars.candidates⟩
    show ({ w.vars with templates := _ } : Scoped) = _
    rw [hvars.others]
    rfl
  · obtain ⟨c, hc, rfl⟩ := TemplateTable.exists_of_pick hdrawn
    exact htemplates.congr hw.2.candidates c hc

/-- If reading the variables that a template reads touches nothing, the template is filled without
a change to any variable, and the transient ones stay too. -/
theorem sameStored_render {name : String}
    (htemplates : s.templates.Passes (·.readsOnly names) name)
    (hread : ∀ other ∈ names, Eval.Plain (s.Untouched seat) (s.settings.machine.load other)) :
    s.SameStored (render name seat s).2 ∧ (render name seat s).2.transient = s.transient := by
  let drawn : Bot δ := { s with templates := (s.templates.pick name).2 }
  obtain hdrawn | ⟨c, hc, e, hparse, hrun⟩ := snd_render_cases name seat s
  · rw [hdrawn]
    exact ⟨⟨rfl, .refl _⟩, rfl⟩
  · have hevaluate := (Expr.permits_readsAllowed hread false).plain_evaluate
      (fun _ => id) (Expr.complete_of_parseTemplate hparse)
      (Expr.treePasses_of_ok (htemplates c hc) hparse)
    obtain ⟨hdice, hvars⟩ := hevaluate.holds_after (w := drawn.world seat)
      ⟨rfl, rfl, TemplateTable.candidates_pick _ _⟩
    rw [hrun, runProgram_eq_keep]
    exact ⟨⟨hdice, Records.sameVariables_keep hvars.sameLasting⟩,
      congrArg Scoped.transient hvars.others⟩

/-! ## Replies to rolls -/

/-- The templates for rolls that are carried out read nothing but the variables that a roll command
sets for them. -/
structure QuietRolls (s : Bot δ) : Prop where
  reason : s.templates.Passes (·.readsOnly ["$tReason", "$tPlayer"]) "core:rollReason"
  once : s.templates.Passes (·.readsOnly ["$tResultText", "$tReasonText", "$tPlayer"]) "core:roll"
  multi : s.templates.Passes
    (·.readsOnly ["$tTimes", "$tResultText", "$tReasonText", "$tPlayer"]) "core:rollMulti"
  failed : s.templates.Passes (·.readsOnly ["$tError", "$tPlayer"]) "core:rollFailed"

omit [DiceSource δ] in
theorem QuietRolls.congr (h : s.QuietRolls)
    (hcandidates : t.templates.candidates = s.templates.candidates) : t.QuietRolls :=
  ⟨h.reason.congr hcandidates, h.once.congr hcandidates, h.multi.congr hcandidates,
    h.failed.congr hcandidates⟩

omit [DiceSource δ] in
/-- The built-in templates are like that. -/
theorem quietRolls_of_hasReplies (h : s.templates.HasReplies) : s.QuietRolls where
  reason := h.passes (by decide +kernel)
  once := h.passes (by decide +kernel)
  multi := h.passes (by decide +kernel)
  failed := h.passes (by decide +kernel)

omit [DiceSource δ] in
theorem quietRolls_of_onlyReplies (h : s.templates.OnlyReplies) : s.QuietRolls :=
  quietRolls_of_hasReplies h.hasReplies

/-- The dice and the records are the same. -/
structure SameKept (s t : Bot δ) : Prop where
  dice : s.dice = t.dice
  records : s.records = t.records

omit [DiceSource δ] in
protected theorem SameKept.refl (s : Bot δ) : s.SameKept s := ⟨rfl, rfl⟩

omit [DiceSource δ] in
theorem SameKept.symm (h : s.SameKept t) : t.SameKept s := ⟨h.dice.symm, h.records.symm⟩

omit [DiceSource δ] in
theorem SameKept.trans {u : Bot δ} (h : s.SameKept t) (h' : t.SameKept u) : s.SameKept u :=
  ⟨h.dice.trans h'.dice, h.records.trans h'.records⟩

/-- The state of a roll command that is over but for its reply: at the seat the maps exist, the
names are transient variables with plain values, and the templates are quiet. -/
structure SettledAt (seat : Seat) (names : List String) (s : Bot δ) : Prop where
  maps : s.records.HasMaps seat
  held : HasPlain s.transient names
  templates : s.QuietRolls

namespace SettledAt

omit [DiceSource δ] in
theorem setTransient (h : s.SettledAt seat names) {name : String}
    (hname : Tier.ofName name = .transient) {value : Value} (hvalue : value.isComputed = false) :
    ({ s with transient := s.transient.insert name value } : Bot δ).SettledAt seat
      (name :: names) :=
  ⟨h.maps, h.held.insert hname hvalue, h.templates.congr rfl⟩

omit [DiceSource δ] in
theorem mono {names' : List String} (h : s.SettledAt seat names) (hsubset : names' ⊆ names) :
    s.SettledAt seat names' := ⟨h.maps, h.held.mono hsubset, h.templates⟩

theorem render (h : s.SettledAt seat names) {name : String}
    (htemplates : s.templates.Passes (·.readsOnly names) name) :
    (Bot.render name seat s).2.SettledAt seat names ∧ (Bot.render name seat s).2.SameKept s := by
  rw [render_of_readsOnly htemplates h.held h.maps]
  exact ⟨⟨h.maps, h.held, h.templates.congr (TemplateTable.candidates_pick _ _)⟩, rfl, rfl⟩

theorem rollFailed (h : s.SettledAt seat ["$tPlayer"]) (fault : Fault) :
    (Bot.rollFailed fault seat s).2.SameKept s := by
  have hset := h.setTransient (by decide : Tier.ofName "$tError" = _)
    (rfl : (Value.text fault.message).isComputed = false)
  unfold Bot.rollFailed
  rw [Act.bind_of_eq (setTransient_eq s _ _)]
  exact (hset.render hset.templates.failed).2.trans ⟨rfl, rfl⟩

theorem giveReason (h : s.SettledAt seat ["$tPlayer"]) (plan : RollPlan) :
    (Bot.giveReason plan seat s).2.SettledAt seat ["$tPlayer"] ∧
      (Bot.giveReason plan seat s).2.SameKept s := by
  unfold Bot.giveReason
  by_cases hnone : plan.reason.isEmpty = true
  · rw [if_pos hnone]
    exact ⟨h, .refl s⟩
  · have hset := h.setTransient (by decide : Tier.ofName "$tReason" = _)
      (rfl : (Value.text plan.reason).isComputed = false)
    obtain ⟨hsettled, hkept⟩ := hset.render hset.templates.reason
    rw [if_neg hnone, Act.bind_of_eq (setTransient_eq s _ _)]
    exact ⟨hsettled.mono (List.subset_cons_self _ _), hkept.trans ⟨rfl, rfl⟩⟩

theorem transient_render (h : s.SettledAt seat names) {name : String}
    (htemplates : s.templates.Passes (·.readsOnly names) name) :
    (Bot.render name seat s).2.transient = s.transient := by
  rw [render_of_readsOnly htemplates h.held h.maps]

/-- The results that the reply gives are left in `$tResultText`. -/
theorem giveResults (h : s.SettledAt seat ["$tPlayer"]) (plan : RollPlan) (times : Nat)
    (outcomes : List Outcome) (reasonText : String) :
    (Bot.giveResults plan times outcomes seat reasonText s).2.SameKept s ∧
      (Bot.giveResults plan times outcomes seat reasonText s).2.transient["$tResultText"]? =
        some (.text (resultText plan outcomes)) := by
  have hset := (h.setTransient (by decide : Tier.ofName "$tReasonText" = _)
    (rfl : (Value.text reasonText).isComputed = false)).setTransient
    (by decide : Tier.ofName "$tResultText" = _)
    (rfl : (Value.text (resultText plan outcomes)).isComputed = false)
  have hresult : ((s.transient.insert "$tReasonText" (.text reasonText)).insert "$tResultText"
      (.text (resultText plan outcomes)))["$tResultText"]? =
        some (.text (resultText plan outcomes)) := Std.ExtTreeMap.getElem?_insert_self
  unfold Bot.giveResults
  rw [Act.bind_of_eq (setTransient_eq s _ _), Act.bind_of_eq (setTransient_eq _ _ _)]
  by_cases honce : times = 1
  · rw [if_pos honce]
    exact ⟨(hset.render hset.templates.once).2.trans ⟨rfl, rfl⟩,
      (congrArg (·["$tResultText"]?) (hset.transient_render hset.templates.once)).trans hresult⟩
  · have hmulti := hset.setTransient (by decide : Tier.ofName "$tTimes" = _)
      (rfl : (Value.int (Int64.ofNat times)).isComputed = false)
    rw [if_neg honce, Act.bind_of_eq (setTransient_eq _ _ _)]
    refine ⟨(hmulti.render hmulti.templates.multi).2.trans ⟨rfl, rfl⟩,
      (congrArg (·["$tResultText"]?) (hmulti.transient_render hmulti.templates.multi)).trans ?_⟩
    exact (Records.getElem?_insert_map _ _ _ _).trans
      ((if_neg (by decide : "$tResultText" ≠ "$tTimes")).trans hresult)

/-- The reply to a roll that has succeeded changes nothing, and gives all results. -/
theorem rollSucceeded (h : s.SettledAt seat ["$tPlayer"]) (plan : RollPlan) (times : Nat)
    (outcomes : List Outcome) : (Bot.rollSucceeded plan times outcomes seat s).2.SameKept s ∧
      (Bot.rollSucceeded plan times outcomes seat s).2.transient["$tResultText"]? =
        some (.text (resultText plan outcomes)) := by
  obtain ⟨hsettled, hkept⟩ := h.giveReason plan
  rcases hreason : Bot.giveReason plan seat s with ⟨reasonText, t⟩
  rw [hreason] at hsettled hkept
  rw [rollSucceeded_eq, Act.bind_of_eq hreason]
  exact (hsettled.giveResults plan times outcomes reasonText).imp_left (·.trans hkept)

end SettledAt

end Bot

end DiceBot
