import DiceBot.Proofs.Bot.QuietReplies
import DiceBot.Proofs.Bot.RollReply
import DiceBot.Proofs.Machine.Roll

/-!
# Rolls whose text is all reason

If the text of a roll is no expression or does not give a number, it is taken for the reason, and
the usual die is rolled. By then the text has been evaluated, and what that did stays done. The usual
die itself depends on nothing but the dice and the settings (`Bot.respects_run_usual`) and changes
nothing but the dice (`Bot.keptButDice_runTimes_usual`). So such a roll leaves the bot as the
evaluation of the text and a bare roll command after it would (`Bot.answer_reason_roll`).
-/

namespace DiceBot

open Eval (Alike)

/-! ## The usual die -/

/-- The tree of a single die of the usual sides. -/
def usualDie : Expr := .die .usualSides

theorem complete_usualDie : usualDie.Complete := trivial

/-- The usual die is rolled alike in any surroundings in which rolls are alike. -/
theorem alike_runProgram_usualDie {δ γ δ' γ' : Type} [Variables γ] [Variables γ'] [DiceSource δ]
    [DiceSource δ'] {lost : World δ γ → Prop} {R : World δ γ → World δ' γ' → Prop} {m : Machine}
    (load : String → Eval δ γ Value) (load' : String → Eval δ' γ' Value) (settings : CodeSettings)
    (hroll : ∀ count sides, Alike lost R (m.roll false count sides) (m.roll false count sides)) :
    Alike lost R (m.runProgram load (usualDie.program settings))
      (m.runProgram load' (usualDie.program settings)) := by
  unfold Machine.runProgram
  cases hfault : (usualDie.program settings).fault? with
  | some fault => exact .throw fault
  | none =>
    have hp : (usualDie.program settings).overflowed = false := by
      rw [← Bool.not_eq_true]
      intro h
      simp [Program.fault?, h] at hfault
    rw [Expr.toList_code_program hp, Expr.forceMax_program]
    -- the sides are pushed, the die is rolled, and the program ends
    refine .bind ?_ fun f => .pure _
    refine .bind (.pure _) fun f => ?_
    refine .bind (Machine.alike_step_die load load' hroll f) fun f => ?_
    exact .bind (.pure f) fun f => .pure f

namespace Bot

variable {δ : Type} [DiceSource δ] {s t : Bot δ} {seat : Seat}

/-- What is rolled with the usual die depends on the settings and the dice alone. -/
theorem respects_runProgram_usualDie (settings : CodeSettings) (seat : Seat) :
    Act.Respects (fun s t : Bot δ => s.settings = t.settings ∧ s.dice = t.dice)
      (runProgram seat (usualDie.program settings)) := by
  rintro s t ⟨hsettings, hdice⟩
  have halike : Alike (fun _ => False)
      (fun w v : World δ Scoped => w.dice = v.dice ∧ w.charged = v.charged)
      (s.settings.machine.runProgram s.settings.machine.load (usualDie.program settings))
      (s.settings.machine.runProgram s.settings.machine.load (usualDie.program settings)) :=
    alike_runProgram_usualDie _ _ settings fun count sides =>
      Machine.alike_roll_of_same_dice (fun _ _ _ => id) (fun _ _ h => h.1) (fun _ _ h => h.2)
        fun _ _ _ _ _ => ⟨rfl, rfl⟩
  have hsame := (halike.run { s.world seat with charged := 0 } { t.world seat with charged := 0 }
    ⟨hdice, rfl⟩).resolve_left id
  unfold Bot.runProgram EStateM.run Machine.evaluate
  rw [← hsettings, Eval.modify_bind, Eval.modify_bind]
  generalize (s.settings.machine.runProgram s.settings.machine.load (usualDie.program settings) :
    Eval δ Scoped Evaluation) = x at hsame ⊢
  generalize x { s.world seat with charged := 0 } = outcome at hsame ⊢
  generalize x { t.world seat with charged := 0 } = outcome' at hsame ⊢
  cases hsame with
  | ok h => exact ⟨rfl, hsettings, h.1⟩
  | error h => exact ⟨rfl, hsettings, h.1⟩

theorem respects_run_usual (seat : Seat) :
    Act.Respects (fun s t : Bot δ => s.settings = t.settings ∧ s.dice = t.dice)
      (run usualSource seat) := by
  refine .read (fun s t h => by rw [h.1]) fun s => ?_
  have hcompile : s.settings.machine.code.compile usualSource =
      .ok (usualDie.program s.settings.machine.code) := rfl
  rw [hcompile]
  refine .bind (respects_runProgram_usualDie _ seat) fun result => ?_
  cases result with
  | error fault => exact .pure _
  | ok evaluation => exact .pure _

/-- The bot is left as it was, with all that is seen at the seat kept there, but for its dice. -/
def KeptButDice (seat : Seat) (s t : Bot δ) : Prop :=
  t = { s.keep seat (s.world seat) with dice := t.dice }

omit [DiceSource δ] in
/-- What has been kept is found again and kept as it is. -/
theorem KeptButDice.trans {u : Bot δ} (h : s.KeptButDice seat t) (h' : t.KeptButDice seat u) :
    s.KeptButDice seat u := by
  have hrecords : t.records.keep seat (t.world seat).vars = t.records := by
    refine Records.keep_of_hasMaps ?_ _ _ _
    rw [h]
    exact s.records.hasMaps_keep seat _
  unfold KeptButDice at h h' ⊢
  unfold keep at h'
  rw [hrecords] at h'
  rw [h', h]
  rfl

theorem keptButDice_run_usual (seat : Seat) (s : Bot δ) :
    s.KeptButDice seat (run usualSource seat s).2 := by
  have hvars := (Expr.respects_evaluate_of_rollsAllowed (δ := δ) (m := s.settings.machine)
    complete_usualDie (by decide) (s.world seat).vars).holds_after (w := s.world seat) rfl
  rw [snd_run_of_ok (p := usualDie.program s.settings.machine.code) rfl, runProgram_eq_keep]
  unfold KeptButDice keep
  rw [hvars]

theorem KeptButDice.runTimes_usual (h : s.KeptButDice seat t) (n : Nat) :
    s.KeptButDice seat (runTimes usualSource seat n t).2 := by
  induction n generalizing t with
  | zero => exact h
  | succ n ih =>
    have hmore := h.trans (keptButDice_run_usual seat t)
    rcases hrun : run usualSource seat t with ⟨fault | o, u⟩
    · rw [hrun] at hmore
      rwa [runTimes_succ_of_error n hrun]
    · rw [hrun] at hmore
      rw [runTimes_succ_of_ok n hrun]
      exact ih hmore

theorem keptButDice_runTimes_usual (seat : Seat) (n : Nat) (s : Bot δ) :
    s.KeptButDice seat (runTimes usualSource seat (n + 1) s).2 := by
  have hkept := keptButDice_run_usual seat s
  rcases hrun : run usualSource seat s with ⟨fault | o, t⟩
  · rw [hrun] at hkept
    rwa [runTimes_succ_of_error n hrun]
  · rw [hrun] at hkept
    rw [runTimes_succ_of_ok n hrun]
    exact hkept.runTimes_usual n

/-! ## Rolls of the usual die -/

/-- The evaluations of a roll command whose plan is the usual die, from the state in which it is
rolled for the first time. -/
abbrev usualRolls (x : Invocation) (seat : Seat) : Act δ (Except Fault (List Outcome)) :=
  runTimes usualSource seat (max x.repeatCount 1)

variable {x : Invocation} {plan : RollPlan}

theorem keptButDice_usualRolls (x : Invocation) (seat : Seat) (s : Bot δ) :
    s.KeptButDice seat (usualRolls x seat s).2 := by
  obtain ⟨n, hn⟩ : ∃ n, max x.repeatCount 1 = n + 1 := ⟨max x.repeatCount 1 - 1, by omega⟩
  rw [usualRolls, hn]
  exact keptButDice_runTimes_usual seat n s

theorem settledAt_usualRolls (x : Invocation) (seat : Seat)
    (hplayer : HasPlain s.transient ["$tPlayer"]) (htemplates : s.QuietRolls) :
    (usualRolls x seat s).2.SettledAt seat ["$tPlayer"] := by
  rw [keptButDice_usualRolls x seat s]
  exact ⟨s.records.hasMaps_keep seat _, hplayer, htemplates.congr rfl⟩

/-- What is kept in the end is what is seen at the first of the evaluations. -/
theorem records_usualRolls (x : Invocation) (seat : Seat) (s : Bot δ) :
    (usualRolls x seat s).2.records = s.records.keep seat (s.world seat).vars := by
  rw [keptButDice_usualRolls x seat s]
  rfl

/-- The dice in the end depend on the dice at the first of the evaluations. -/
theorem dice_usualRolls {x y : Invocation} (seat : Seat) (hcount : y.repeatCount = x.repeatCount)
    (hsettings : s.settings = t.settings) (hdice : s.dice = t.dice) :
    (usualRolls x seat s).2.dice = (usualRolls y seat t).2.dice := by
  rw [usualRolls, usualRolls, hcount]
  exact (respects_runTimes (respects_run_usual seat) _ s t ⟨hsettings, hdice⟩).2.2

/-- After its evaluations the roll changes nothing any more. -/
theorem sameKept_roll_usual {u : Bot δ} (htimes : max x.repeatCount 1 ≤ s.settings.maxRepeat)
    (hsource : plan.source = usualSource)
    (hfirst : firstRoll x seat s =
      ((plan, (run usualSource seat u).1), (run usualSource seat u).2))
    (hplayer : HasPlain u.transient ["$tPlayer"]) (htemplates : u.QuietRolls) :
    (roll x seat s).2.SameKept (usualRolls x seat u).2 := by
  have hsettled := settledAt_usualRolls x seat hplayer htemplates
  rw [usualRolls, ← hsource] at hsettled ⊢
  rw [← hsource] at hfirst
  rcases hruns : runTimes plan.source seat (max x.repeatCount 1) u with ⟨fault | outcomes, v⟩
  · rw [hruns] at hsettled
    rw [roll_of_runTimes_error htimes hfirst hruns]
    exact hsettled.rollFailed fault
  · rw [hruns] at hsettled
    rw [roll_of_runTimes_ok htimes hfirst hruns rfl]
    exact (hsettled.rollSucceeded plan (max x.repeatCount 1) outcomes).1

theorem sameKept_answer_usual {message : Message} {u : Bot δ}
    (hx : invocation? s.settings message = some x) (hcommand : x.command ∈ rollWords)
    (htimes : max x.repeatCount 1 ≤ s.settings.maxRepeat) (hsource : plan.source = usualSource)
    (hfirst : firstRoll x message.seat (s.named message.name) =
      ((plan, (run usualSource message.seat u).1), (run usualSource message.seat u).2))
    (hplayer : HasPlain u.transient ["$tPlayer"]) (htemplates : u.QuietRolls) :
    (answer message s).2.SameKept (usualRolls x message.seat u).2 := by
  have hkept := sameKept_roll_usual (s := s.named message.name) htimes hsource hfirst hplayer
    htemplates
  rcases hroll : roll x message.seat (s.named message.name) with ⟨reply, t⟩
  rw [hroll] at hkept
  rw [answer_of_roll hx hcommand hroll]
  exact ⟨hkept.dice, hkept.records⟩

/-! ## Reasons -/

/-- What comes of the text of a roll command of the message, evaluated as an expression. -/
def textEvaluated (message : Message) (x : Invocation) (s : Bot δ) : Except Fault Outcome × Bot δ :=
  run (planOf s.settings x).source message.seat (s.named message.name)

/-- The message is a roll command, and its text turns out to be no roll, so that all of it is the
reason to roll the usual die. -/
structure RollsForReason (s : Bot δ) (message : Message) (x : Invocation) : Prop where
  read : invocation? s.settings message = some x
  command : x.command ∈ rollWords
  times : max x.repeatCount 1 ≤ s.settings.maxRepeat
  noRoll : isNoRoll (textEvaluated message x s).1 = true
  source : (planOf s.settings x).source ≠ usualSource

instance (s : Bot δ) (message : Message) (x : Invocation) :
    Decidable (s.RollsForReason message x) :=
  decidable_of_iff (invocation? s.settings message = some x ∧ x.command ∈ rollWords ∧
      max x.repeatCount 1 ≤ s.settings.maxRepeat ∧ isNoRoll (textEvaluated message x s).1 = true ∧
      (planOf s.settings x).source ≠ usualSource)
    ⟨fun ⟨h₁, h₂, h₃, h₄, h₅⟩ => ⟨h₁, h₂, h₃, h₄, h₅⟩,
      fun ⟨h₁, h₂, h₃, h₄, h₅⟩ => ⟨h₁, h₂, h₃, h₄, h₅⟩⟩

/-- The message is a roll command without text. -/
structure RollsBare (settings : Settings) (message : Message) (x : Invocation) : Prop where
  read : invocation? settings message = some x
  command : x.command ∈ rollWords
  arguments : x.arguments = []

instance (settings : Settings) (message : Message) (x : Invocation) :
    Decidable (RollsBare settings message x) :=
  decidable_of_iff (invocation? settings message = some x ∧ x.command ∈ rollWords ∧
      x.arguments = [])
    ⟨fun ⟨h₁, h₂, h₃⟩ => ⟨h₁, h₂, h₃⟩, fun ⟨h₁, h₂, h₃⟩ => ⟨h₁, h₂, h₃⟩⟩

/-- Without text the usual die is rolled. -/
theorem source_planOf_bare (settings : Settings) (harguments : x.arguments = []) :
    (planOf settings x).source = usualSource := by
  have hsplit : splitExpression settings x = ("", x.suffixFrom 2) := by
    have hargument : x.argument? 1 = none := by
      rw [Invocation.argument?, harguments]
      rfl
    rw [splitExpression, harguments, hargument]
    rfl
  rw [planOf, hsplit]
  rfl

theorem sameKept_answer_bare {bare : Message} (h : RollsBare s.settings bare x)
    (htimes : max x.repeatCount 1 ≤ s.settings.maxRepeat) (htemplates : s.QuietRolls) :
    (answer bare s).2.SameKept (usualRolls x bare.seat (s.named bare.name)).2 := by
  have hsource := source_planOf_bare s.settings h.arguments
  have hplayer : HasPlain (s.named bare.name).transient ["$tPlayer"] :=
    List.forall_mem_singleton.mpr ⟨by decide, _, Std.ExtTreeMap.getElem?_insert_self, rfl⟩
  refine sameKept_answer_usual h.read h.command htimes hsource ?_ hplayer (htemplates.congr rfl)
  rcases hrun : run usualSource bare.seat (s.named bare.name) with ⟨first, t⟩
  exact firstRoll_of_roll (s := s.named bare.name) (hsource ▸ hrun) (.inr hsource)

/-- Rolls of the usual die in a state that the bot comes to from `s`, compared with a bare command
right after that state and with one in place of all. -/
theorem usualRolls_and_bare {bare : Message} {y : Invocation} (hbeyond : s.SameBeyond bare.seat t)
    (hbare : RollsBare s.settings bare y) (htimes : max y.repeatCount 1 ≤ s.settings.maxRepeat)
    (htemplates : s.QuietRolls) (hcount : y.repeatCount = x.repeatCount) :
    (usualRolls x bare.seat t).2.SameKept (answer bare { t with transient := ∅ }).2 ∧
    ((usualRolls x bare.seat t).2.records = (answer bare s).2.records ↔
      (s.world bare.seat).vars.SameLasting (t.world bare.seat).vars) ∧
    (t.dice = s.dice → (usualRolls x bare.seat t).2.dice = (answer bare s).2.dice) := by
  let cleared : Bot δ := { t with transient := ∅ }
  have hnow := sameKept_answer_bare hbare htimes htemplates
  have hafter : (answer bare cleared).2.SameKept _ :=
    sameKept_answer_bare (hbeyond.settings.symm ▸ hbare) (hbeyond.settings.symm ▸ htimes)
      (htemplates.congr hbeyond.candidates)
  refine ⟨.trans ⟨?_, ?_⟩ hafter.symm, ?_, fun hdice => ?_⟩
  · exact dice_usualRolls bare.seat hcount rfl rfl
  · rw [records_usualRolls, records_usualRolls]
    exact Records.keep_congr (.refl bare.seat t.records) ⟨rfl, rfl, rfl⟩
  · rw [hnow.records, records_usualRolls, records_usualRolls]
    refine eq_comm.trans ((Records.keep_eq_keep_iff hbeyond.records).trans ?_)
    -- the sender's name is no lasting variable
    exact ⟨fun h => ⟨h.player, h.group, h.seat⟩, fun h => ⟨h.player, h.group, h.seat⟩⟩
  · rw [hnow.dice]
    exact dice_usualRolls bare.seat hcount hbeyond.settings hdice

/-- Whatever the text assigns to `$tPlayer`, it is a plain value. -/
theorem hasPlain_textEvaluated (message : Message) (x : Invocation) (s : Bot δ) :
    HasPlain (textEvaluated message x s).2.transient ["$tPlayer"] := by
  have hheld := (holdsPlainAt_named message.seat message.name s).run (by decide) (by decide)
    (fun _ _ => id) (Expr.treePasses_of_forall (Expr.assignsOnly_of_forall fun _ => rfl)
      (Expr.parse (planOf s.settings x).source))
  exact List.forall_mem_singleton.mpr ⟨by decide, hheld.held⟩

theorem sameBeyond_textEvaluated (message : Message) (x : Invocation) (s : Bot δ) :
    s.SameBeyond message.seat (textEvaluated message x s).2 :=
  ((mirrors_sameBeyond message.seat s).respects (runLog message.seat _) (s.named message.name)
    (s.named message.name) ⟨rfl, ⟨rfl, rfl, rfl, .refl message.seat s.records⟩⟩).2.2

theorem sameKept_answer_reason {message : Message} (h : s.RollsForReason message x)
    (htemplates : s.QuietRolls) : (answer message s).2.SameKept
      (usualRolls x message.seat (textEvaluated message x s).2).2 := by
  have htemplates' := htemplates.congr (sameBeyond_textEvaluated message x s).candidates
  have hplayer := hasPlain_textEvaluated message x s
  have hnoRoll := h.noRoll
  rcases htext : textEvaluated message x s with ⟨first, t⟩
  rw [htext] at htemplates' hplayer hnoRoll
  refine sameKept_answer_usual h.read h.command h.times
    (rfl : (usualPlan s.settings x).source = usualSource) ?_ hplayer htemplates'
  rcases hsecond : run usualSource message.seat t with ⟨second, u⟩
  exact firstRoll_of_no_roll (s := s.named message.name) htext hnoRoll h.source hsecond

/-- A text that does not compile is not evaluated. -/
theorem snd_textEvaluated_of_not_compiles {message : Message}
    (h : compiles s.settings (planOf s.settings x).source = false) :
    (textEvaluated message x s).2 = s.named message.name := by
  unfold compiles at h
  cases hcompile : s.settings.machine.code.compile (planOf s.settings x).source with
  | ok p =>
    rw [hcompile] at h
    exact nomatch h
  | error fault => exact congrArg Prod.snd (run_of_error (s := s.named message.name) hcompile)

/-- What two messages are read as can be computed. -/
theorem exists_of_readBoth (settings : Settings) (message bare : Message)
    {p : Invocation → Invocation → Prop} [∀ x y, Decidable (p x y)]
    (h : (invocation? settings message).any
      (fun x => (invocation? settings bare).any fun y => p x y) = true) : ∃ x y, p x y := by
  obtain ⟨x, -, h⟩ := (Option.any_eq_true _ _).mp h
  obtain ⟨y, -, h⟩ := (Option.any_eq_true _ _).mp h
  exact ⟨x, y, of_decide_eq_true h⟩

/-- A text that turns out to be no roll has been evaluated by then. What that has done stays done,
and is all that the command does beyond a bare one: the bot is left as by the evaluation of the text
and a bare command after it. So the records are the same as after the bare command alone just if the
evaluation has changed no lasting variable that is seen at the seat, and the dice are the same if it
has not rolled any. Nothing is evaluated if the text does not compile. The dice can be of any kind,
and so they may keep a tally of the rolls (`Tallied`). -/
theorem answer_reason_roll {message bare : Message} {x y : Invocation}
    (hroll : s.RollsForReason message x) (hbare : RollsBare s.settings bare y)
    (hcount : y.repeatCount = x.repeatCount) (hseat : bare.seat = message.seat)
    (htemplates : s.QuietRolls) :
    let evaluated : Bot δ := (textEvaluated message x s).2
    (answer message s).2.SameKept (answer bare { evaluated with transient := ∅ }).2 ∧
    ((answer message s).2.records = (answer bare s).2.records ↔
      (s.world message.seat).vars.SameLasting (evaluated.world message.seat).vars) ∧
    (evaluated.dice = s.dice → (answer message s).2.dice = (answer bare s).2.dice) ∧
    (compiles s.settings (planOf s.settings x).source = false →
      (answer message s).2.SameKept (answer bare s).2) := by
  intro evaluated
  have htimes : max y.repeatCount 1 ≤ s.settings.maxRepeat := hcount ▸ hroll.times
  have hbeyond : s.SameBeyond bare.seat evaluated := hseat ▸ sameBeyond_textEvaluated message x s
  have hrolled := sameKept_answer_reason hroll htemplates
  obtain ⟨hafter, hrecords, hdice⟩ := usualRolls_and_bare hbeyond hbare htimes htemplates hcount
  rw [hseat, ← hrolled.records] at hrecords
  rw [hseat] at hdice hafter
  rw [← hrolled.dice] at hdice
  refine ⟨hrolled.trans hafter, hrecords, hdice, fun h => ?_⟩
  -- the evaluated bot is the one that the command starts from
  have hnothing : evaluated = s.named message.name := snd_textEvaluated_of_not_compiles h
  rw [hnothing] at hrecords hdice
  exact ⟨hdice rfl, hrecords.mpr ⟨rfl, rfl, rfl⟩⟩

/-- Words that are not known leave no trace but the reason, however often the die is rolled. -/
theorem answer_reason_roll_words :
    let s : Bot ScriptedDice := start {} ⟨[3, 5, 7, 9]⟩ 8
    let message : Message := { text := ".r 3# hello world", name := "Alice" }
    let bare : Message := { text := ".r 3#", name := "Alice" }
    (answer message s).2.SameKept (answer bare s).2 := by
  intro s message bare
  have hquiet : s.QuietRolls := quietRolls_of_onlyReplies (TemplateTable.onlyReplies_withReplies 8)
  obtain ⟨x, y, hroll, hbare, hcount, hdice, hlasting⟩ := exists_of_readBoth s.settings message bare
    (p := fun x y => s.RollsForReason message x ∧ RollsBare s.settings bare y ∧
      y.repeatCount = x.repeatCount ∧ (textEvaluated message x s).2.dice = s.dice ∧
      (s.world message.seat).vars.SameLasting
        ((textEvaluated message x s).2.world message.seat).vars) (by decide +kernel)
  obtain ⟨-, hrecords, hsameDice, -⟩ := answer_reason_roll hroll hbare hcount rfl hquiet
  exact ⟨hsameDice hdice, hrecords.mpr hlasting⟩

/-- Before a text turns out to be no roll it can store a value or roll dice, and dice can be rolled
by a template that gives the reason. -/
theorem not_answer_reason_roll :
    (¬∀ (s : Bot ScriptedDice) (message bare : Message) (x y : Invocation),
      s.RollsForReason message x → RollsBare s.settings bare y → y.repeatCount = x.repeatCount →
      bare.seat = message.seat → s.templates.OnlyReplies →
      (answer message s).2.records = (answer bare s).2.records) ∧
    (¬∀ (s : Bot ScriptedDice) (message bare : Message) (x y : Invocation),
      s.RollsForReason message x → RollsBare s.settings bare y → y.repeatCount = x.repeatCount →
      bare.seat = message.seat → s.templates.OnlyReplies →
      (answer message s).2.dice = (answer bare s).2.dice) ∧
    ¬∀ (s : Bot ScriptedDice) (message bare : Message) (x y : Invocation),
      s.RollsForReason message x → RollsBare s.settings bare y → y.repeatCount = x.repeatCount →
      bare.seat = message.seat → compiles s.settings (planOf s.settings x).source = false →
      (answer message s).2.dice = (answer bare s).2.dice := by
  let s : Bot ScriptedDice := start {} ⟨[3, 5, 7, 9]⟩ 8
  let bare : Message := { text := ".r", name := "Alice" }
  have honly : s.templates.OnlyReplies := TemplateTable.onlyReplies_withReplies 8
  refine ⟨fun h => ?_, fun h => ?_, fun h => ?_⟩
  · let message : Message := { text := ".r $mX=\"a\"", name := "Alice" }
    obtain ⟨x, y, hroll, hbare, hcount⟩ := exists_of_readBoth s.settings message bare
      (p := fun x y => s.RollsForReason message x ∧ RollsBare s.settings bare y ∧
        y.repeatCount = x.repeatCount) (by decide +kernel)
    have hdiffer : (answer message s).2.records ≠ (answer bare s).2.records := by decide +kernel
    exact hdiffer (h s message bare x y hroll hbare hcount rfl honly)
  · let message : Message := { text := ".r `\x7bd6\x7d`", name := "Alice" }
    obtain ⟨x, y, hroll, hbare, hcount⟩ := exists_of_readBoth s.settings message bare
      (p := fun x y => s.RollsForReason message x ∧ RollsBare s.settings bare y ∧
        y.repeatCount = x.repeatCount) (by decide +kernel)
    have hdiffer : (answer message s).2.dice ≠ (answer bare s).2.dice := by decide +kernel
    exact hdiffer (h s message bare x y hroll hbare hcount rfl honly)
  · let t : Bot ScriptedDice :=
      { s with templates := s.templates.set "core:rollReason" [⟨"\x7bd6\x7d", 1⟩] }
    let message : Message := { text := ".r ((", name := "Alice" }
    obtain ⟨x, y, hroll, hbare, hcount, hcompiles⟩ := exists_of_readBoth t.settings message bare
      (p := fun x y => t.RollsForReason message x ∧ RollsBare t.settings bare y ∧
        y.repeatCount = x.repeatCount ∧ compiles t.settings (planOf t.settings x).source = false)
      (by decide +kernel)
    have hdiffer : (answer message t).2.dice ≠ (answer bare t).2.dice := by decide +kernel
    exact hdiffer (h t message bare x y hroll hbare hcount rfl hcompiles)

end Bot

end DiceBot
