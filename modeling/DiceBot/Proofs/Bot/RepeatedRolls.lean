import DiceBot.Proofs.Bot.Evaluations
import DiceBot.Proofs.Bot.RollReason

/-!
# Rolls that are repeated

A roll command evaluates the expression of its arguments as often as its repeat marker says, or until
an evaluation fails, and leaves the dice and all variables as these evaluations one after the other
leave them: what was evaluated to find out whether the text is a roll is not evaluated again, and the
reply changes nothing (`Bot.roll_of_repeats`). A command that asks for too many repetitions evaluates
nothing, and all that is done is to draw up the reply (`Bot.answer_refusal`), which reads the name of
the bot (`Bot.sameStored_refusal`).

The built-in replies show the results in the order of the evaluations, or the fault of the one that
failed, if the templates of the replies fit into the capacity of a program
(`Bot.answer_repeated_roll`).
-/

namespace DiceBot

namespace Replies

/-- The reply to a roll that fails. -/
def rollFailedText : String := speaker ++ " could not roll: " ++ hole "$tError"

/-- The reply to a roll that was made more than once. -/
def rolledManyText : String :=
  hole "$tReasonText" ++ speaker ++ " rolled " ++ hole "$tTimes" ++ " times:\n" ++
    hole "$tResultText"

theorem hasText_rollFailed : HasText "core:rollFailed" rollFailedText ["$tPlayer", "$tError"]
    ["<".toList, "> could not roll: ".toList, []] :=
  ⟨by decide, rfl, by decide, by decide⟩

theorem hasText_rolledMany :
    HasText "core:rollMulti" rolledManyText ["$tReasonText", "$tPlayer", "$tTimes", "$tResultText"]
      [[], "<".toList, "> rolled ".toList, " times:\n".toList, []] :=
  ⟨by decide, rfl, by decide, by decide⟩

end Replies

open Replies

namespace Bot

variable {δ : Type} [DiceSource δ] {s t : Bot δ} {seat : Seat} {plan : RollPlan} {player : Value}

/-! ## Replies -/

omit [DiceSource δ] in
theorem rollsBuiltin_of_hasReplies (h : s.templates.HasReplies) : s.RollsBuiltin :=
  ⟨h.get? rfl, h.get? rfl⟩

/-- The reply to a roll that was made as often as this: the reason if there is one, then the player
and the results. -/
def rolledReply (player : String) (plan : RollPlan) (times : Nat) (outcomes : List Outcome) :
    String :=
  (if plan.reason = "" then "" else "For " ++ plan.reason ++ ", ") ++ "<" ++ player ++
    "> rolled " ++
    (if times = 1 then "" else (Value.int (Int64.ofNat times)).display ++ " times:\n") ++
    resultText plan outcomes

theorem rollFailed_eq (hcapacity : 4 ≤ s.settings.capacity) (htemplates : s.templates.HasReplies)
    (hplayer : s.transient["$tPlayer"]? = some player) (hplain : player.isComputed = false)
    (fault : Fault) (seat : Seat) : (rollFailed fault seat s).1 =
      "<" ++ player.display ++ "> could not roll: " ++ fault.message := by
  let u : Bot δ := { s with transient := s.transient.insert "$tError" (.text fault.message) }
  have hholds : Holds u.transient [("$tPlayer", player), ("$tError", .text fault.message)] :=
    (Holds.player hplayer hplain).insert_last (by decide) rfl (by simp)
  have hget : u.templates.get? "core:rollFailed" = builtin.lookup "core:rollFailed" :=
    htemplates.get? rfl
  have hshown : ("<" ++ player.display ++ "> could not roll: " ++ fault.message).toList =
      Pattern.splice ["<".toList, "> could not roll: ".toList, []]
        [player.display.toList, fault.message.toList] := by
    simp [Pattern.splice]
  obtain ⟨t, hrender, -⟩ := render_of_single seat hholds hget hasText_rollFailed hcapacity hshown
  exact congrArg Prod.fst hrender

theorem giveResults_many (hcapacity : 6 ≤ s.settings.capacity)
    (htemplates : s.templates.HasReplies) (hplayer : s.transient["$tPlayer"]? = some player)
    (hplain : player.isComputed = false) {times : Nat} (htimes : times ≠ 1)
    (outcomes : List Outcome) (reason : String) (seat : Seat) :
    (giveResults plan times outcomes seat reason s).1 = reason ++ "<" ++ player.display ++
      "> rolled " ++ (Value.int (Int64.ofNat times)).display ++ " times:\n" ++
      resultText plan outcomes := by
  let count : Value := .int (Int64.ofNat times)
  let result : Value := .text (resultText plan outcomes)
  let reasoned := s.transient.insert "$tReasonText" (.text reason)
  let u : Bot δ := { s with
    transient := (reasoned.insert "$tResultText" result).insert "$tTimes" count }
  have hreasoned : Holds reasoned [("$tReasonText", .text reason), ("$tPlayer", player)] :=
    (Holds.player hplayer hplain).insert (by decide) rfl (by simp)
  have hset : Holds u.transient [("$tReasonText", .text reason), ("$tPlayer", player),
      ("$tResultText", result), ("$tTimes", count)] :=
    (hreasoned.insert_last (by decide) rfl (by simp)).insert_last (by decide) rfl (by simp)
  -- the text names the number of rolls before their results, which are set the other way round
  have hholds : Holds u.transient [("$tReasonText", .text reason), ("$tPlayer", player),
      ("$tTimes", count), ("$tResultText", result)] := hset.mono (by simp)
  have hget : u.templates.get? "core:rollMulti" = builtin.lookup "core:rollMulti" :=
    htemplates.get? rfl
  have hshown : (reason ++ "<" ++ player.display ++ "> rolled " ++ count.display ++ " times:\n" ++
      resultText plan outcomes).toList =
      Pattern.splice [[], "<".toList, "> rolled ".toList, " times:\n".toList, []]
        [reason.toList, player.display.toList, count.display.toList,
          (resultText plan outcomes).toList] := by
    simp [Pattern.splice]
  obtain ⟨t, hrender, -⟩ := render_of_single seat hholds hget hasText_rolledMany hcapacity hshown
  unfold giveResults
  rw [Act.bind_of_eq (setTransient_eq s _ _), Act.bind_of_eq (setTransient_eq _ _ _), if_neg htimes,
    Act.bind_of_eq (setTransient_eq _ _ _)]
  exact congrArg Prod.fst hrender

theorem rollSucceeded_eq_rolledReply (hcapacity : 6 ≤ s.settings.capacity)
    (htemplates : s.templates.HasReplies) (hplayer : s.transient["$tPlayer"]? = some player)
    (hplain : player.isComputed = false) (times : Nat) (outcomes : List Outcome) (seat : Seat) :
    (rollSucceeded plan times outcomes seat s).1 =
      rolledReply player.display plan times outcomes := by
  obtain ⟨t, hreason, hsettings, hplayer', hcandidates⟩ :=
    giveReason_eq plan seat hcapacity (rollsBuiltin_of_hasReplies htemplates) hplayer
  have htemplates' : t.templates.HasReplies := htemplates.congr hcandidates
  rw [← hsettings] at hcapacity
  rw [rollSucceeded_eq, Act.bind_of_eq hreason]
  unfold rolledReply
  by_cases htimes : times = 1
  · rw [htimes, giveResults_once plan seat hcapacity (rollsBuiltin_of_hasReplies htemplates')
      hplayer' hplain]
    simp
  · rw [giveResults_many hcapacity htemplates' hplayer' hplain htimes, if_neg htimes]
    simp only [String.append_assoc]

/-! ## Too many rolls -/

/-- The bot when it draws up its reply to a roll that is to be repeated too often. -/
def refusing (s : Bot δ) (message : Message) (x : Invocation) : Bot δ :=
  let times : Value := .int (Int64.ofNat (max x.repeatCount 1))
  { s with transient := (s.named message.name).transient.insert "$tTimes" times }

/-- The reply reads the number of rolls and the name of the bot. It changes nothing if that name is
not stored as a computed value. -/
theorem sameStored_refusal {message : Message} (x : Invocation)
    (htemplates : s.templates.HasReplies)
    (hname : ∀ value, (s.world message.seat).vars.get? "core:botName" = some value →
      value.isComputed = false) :
    s.SameStored (render "core:rollTooMany" message.seat (s.refusing message x)).2 := by
  let t := s.refusing message x
  have hreads : t.templates.Passes (·.readsOnly ["$tTimes", "core:botName"]) "core:rollTooMany" :=
    TemplateTable.HasReplies.passes htemplates (by decide +kernel)
  have hheld : HasPlain t.transient ["$tTimes"] := by
    have hnone : HasPlain (s.transient.insert "$tPlayer" (.text message.name)) [] := nofun
    exact hnone.insert (by decide) rfl
  have hbotName : t.templates.Passes (·.readsOnly []) "core:botName" :=
    TemplateTable.HasReplies.passes htemplates (by decide +kernel)
  -- the name of the bot belongs to the seat, where nothing has been set
  have hstored : ∀ value, (t.world message.seat).vars.get? "core:botName" = some value →
      value.isComputed = false := by
    intro value hget
    refine hname value ?_
    have htier : Tier.ofName "core:botName" = .seat := by decide
    simp only [Scoped.get?, Aliases.resolve, htier, Scoped.tier] at hget ⊢
    exact hget
  have hrender : t.SameStored (render "core:rollTooMany" message.seat t).2 := by
    refine (sameStored_render hreads fun name hmem => ?_).1
    obtain rfl | rfl : name = "$tTimes" ∨ name = "core:botName" := by simpa using hmem
    · exact plain_load_of_hasPlain hheld (List.mem_singleton.mpr rfl) _
    · exact plain_load_of_unread hstored hbotName _
  exact ⟨hrender.dice, hrender.records⟩

theorem answer_refusal {message : Message} {x : Invocation}
    (hx : invocation? s.settings message = some x) (hcommand : x.command ∈ rollWords)
    (htimes : s.settings.maxRepeat < max x.repeatCount 1) {reply : String}
    (hreply : render "core:rollTooMany" message.seat (s.refusing message x) = (reply, t)) :
    answer message s = (some reply, { t with transient := ∅ }) :=
  answer_of_roll hx hcommand ((roll_of_too_many (s := s.named message.name) htimes).trans hreply)

/-! ## Repeated rolls -/

/-- What the command takes for its expression compiles, unless all of its text is the reason. -/
theorem exists_compile_of_roll {x : Invocation}
    (hroll : isNoRoll (run (planOf s.settings x).source seat s).1 = false ∨
      (planOf s.settings x).source = usualSource) :
    ∃ p, s.settings.machine.code.compile (planOf s.settings x).source = .ok p := by
  cases hcompile : s.settings.machine.code.compile (planOf s.settings x).source with
  | ok p => exact ⟨p, rfl⟩
  | error fault =>
    rcases hroll with hroll | hsource
    · obtain ⟨syntaxFault, -, rfl⟩ := CodeSettings.programOf_eq_error_iff.mp hcompile
      rw [run_of_error hcompile] at hroll
      cases hroll
    · rw [hsource] at hcompile
      cases hcompile

/-- What a roll command replies when its evaluations have come to the result and left the bot. -/
def RepliesTo (s t : Bot δ) (x : Invocation) (seat : Seat) (player : String) (reply : Option String) :
    Except Fault (List Outcome) → Prop
  | .ok outcomes =>
      let plan := planOf s.settings x
      let times := max x.repeatCount 1
      let (text, u) := rollSucceeded plan times outcomes seat t
      reply = some (text ++ listing x outcomes) ∧
      u.transient["$tResultText"]? = some (.text (resultText plan outcomes)) ∧
      (6 ≤ s.settings.capacity → text = rolledReply player plan times outcomes)
  | .error fault =>
      4 ≤ s.settings.capacity →
        reply = some ("<" ++ player ++ "> could not roll: " ++ fault.message)

section RepliesTo

variable {x : Invocation} (hsettled : t.SettledAt seat ["$tPlayer"])
  (htemplates : t.templates.HasReplies) (hsettings : t.settings = s.settings)
  (hplayer : t.transient["$tPlayer"]? = some player) (hplain : player.isComputed = false)

include htemplates hsettings hplayer hplain

theorem repliesTo_rollFailed (fault : Fault) : s.RepliesTo t x seat player.display
    (some (rollFailed fault seat t).1) (.error fault) := by
  intro hcapacity
  rw [← hsettings] at hcapacity
  rw [rollFailed_eq hcapacity htemplates hplayer hplain]

include hsettled

theorem repliesTo_rollSucceeded (outcomes : List Outcome) :
    s.RepliesTo t x seat player.display
      (some ((rollSucceeded (planOf s.settings x) (max x.repeatCount 1) outcomes seat t).1 ++
        listing x outcomes)) (.ok outcomes) := by
  refine ⟨rfl, (hsettled.rollSucceeded _ _ outcomes).2, fun hcapacity => ?_⟩
  rw [← hsettings] at hcapacity
  exact rollSucceeded_eq_rolledReply hcapacity htemplates hplayer hplain _ _ _

end RepliesTo

/-- A roll makes its evaluations one after the other, and its reply changes nothing that is kept. -/
theorem roll_of_repeats {x : Invocation} {before : Scoped}
    (hheld : s.HoldsAt seat (fun _ => true) "$tPlayer" (fun value => value.isComputed = false)
      before) (htemplates : s.templates.HasReplies)
    (htimes : max x.repeatCount 1 ≤ s.settings.maxRepeat)
    (hroll : isNoRoll (run (planOf s.settings x).source seat s).1 = false ∨
      (planOf s.settings x).source = usualSource) :
    ∃ (result : Except Fault (List Outcome)) (t : Bot δ) (player : Value),
      Repeats (planOf s.settings x).source seat (max x.repeatCount 1) s result t ∧
      (roll x seat s).2.SameKept t ∧ t.transient["$tPlayer"]? = some player ∧
      s.RepliesTo t x seat player.display (some (roll x seat s).1) result := by
  obtain ⟨p, hcompile⟩ := exists_compile_of_roll hroll
  obtain ⟨n, hn⟩ : ∃ n, max x.repeatCount 1 = n + 1 := ⟨max x.repeatCount 1 - 1, by omega⟩
  have hover := settledAt_runTimes hcompile hheld (quietRolls_of_hasReplies htemplates) n
  -- the first evaluation is the first of the repetitions, as the plan has not changed
  have hfirst := firstRoll_eq_of_roll hroll
  rw [← hn] at hover
  rcases hruns : runTimes (planOf s.settings x).source seat (max x.repeatCount 1) s with ⟨result, t⟩
  rw [hruns] at hover
  obtain ⟨hsettled, hsettings, hcandidates⟩ := hover
  obtain ⟨-, player, hplayer, hplain⟩ := hsettled.held "$tPlayer" (List.mem_singleton.mpr rfl)
  have hreplies : t.templates.HasReplies := htemplates.congr hcandidates
  refine ⟨result, t, player, Iff.mp runTimes_eq_iff hruns, ?_⟩
  cases result with
  | error fault =>
    rw [roll_of_runTimes_error htimes hfirst hruns]
    exact ⟨hsettled.rollFailed fault, hplayer,
      repliesTo_rollFailed (x := x) hreplies hsettings hplayer hplain fault⟩
  | ok outcomes =>
    rw [roll_of_runTimes_ok htimes hfirst hruns rfl]
    exact ⟨(hsettled.rollSucceeded _ _ outcomes).1, hplayer,
      repliesTo_rollSucceeded hsettled hreplies hsettings hplayer hplain outcomes⟩

theorem answer_of_repeats {message : Message} {x : Invocation}
    (hx : invocation? s.settings message = some x) (hcommand : x.command ∈ rollWords)
    (htemplates : s.templates.HasReplies) (htimes : max x.repeatCount 1 ≤ s.settings.maxRepeat)
    (hroll : ¬s.RollsForReason message x) :
    ∃ (result : Except Fault (List Outcome)) (t : Bot δ) (player : Value),
      Repeats (planOf s.settings x).source message.seat (max x.repeatCount 1)
        (s.named message.name) result t ∧
      (answer message s).2.SameKept t ∧ t.transient["$tPlayer"]? = some player ∧
      s.RepliesTo t x message.seat player.display (answer message s).1 result := by
  have hsource : isNoRoll (textEvaluated message x s).1 = false ∨
      (planOf s.settings x).source = usualSource := by
    by_contra hno
    rw [not_or, Bool.not_eq_false] at hno
    exact hroll ⟨hx, hcommand, htimes, hno.1, hno.2⟩
  obtain ⟨result, t, player, hrepeats, hkept, hplayer, hreply⟩ :=
    roll_of_repeats (holdsPlainAt_named message.seat message.name s) htemplates htimes hsource
  rcases hrolled : roll x message.seat (s.named message.name) with ⟨reply, u⟩
  rw [hrolled] at hkept hreply
  rw [answer_of_roll hx hcommand hrolled]
  exact ⟨result, t, player, hrepeats, ⟨hkept.dice, hkept.records⟩, hplayer, hreply⟩

/-- A roll command whose text is not all reason evaluates the expression of its arguments once, or as
often as its repeat marker says, each time in what the time before has left, and stops at the first
evaluation that fails. The dice and the records are left as these evaluations leave them. The reply
gives one result for each evaluation, in their order, or the fault of the one that has failed.

A roll command that asks for more repetitions than allowed evaluates nothing: all that is done is to
fill the reply, which depends on the number of repetitions and not on the arguments. No dice are
rolled for it and no variable is changed, unless the name of the bot, which the reply reads, is a
computed value at the seat. -/
theorem answer_repeated_roll {message : Message} {x : Invocation}
    (hx : invocation? s.settings message = some x) (hcommand : x.command ∈ rollWords)
    (htemplates : s.templates.HasReplies) :
    (max x.repeatCount 1 ≤ s.settings.maxRepeat → ¬s.RollsForReason message x →
      ∃ (result : Except Fault (List Outcome)) (t : Bot δ) (player : Value),
        Repeats (planOf s.settings x).source message.seat (max x.repeatCount 1)
          (s.named message.name) result t ∧
        (answer message s).2.SameKept t ∧ t.transient["$tPlayer"]? = some player ∧
        s.RepliesTo t x message.seat player.display (answer message s).1 result) ∧
    (s.settings.maxRepeat < max x.repeatCount 1 →
      (∃ reply t, render "core:rollTooMany" message.seat (s.refusing message x) = (reply, t) ∧
        answer message s = (some reply, { t with transient := ∅ })) ∧
      ((∀ value, (s.world message.seat).vars.get? "core:botName" = some value →
        value.isComputed = false) → s.SameStored (answer message s).2)) := by
  refine ⟨answer_of_repeats hx hcommand htemplates, fun htimes => ?_⟩
  rcases hreply : render "core:rollTooMany" message.seat (s.refusing message x) with ⟨reply, t⟩
  have hanswer := answer_refusal hx hcommand htimes hreply
  refine ⟨⟨reply, t, rfl, hanswer⟩, fun hname => ?_⟩
  have hsame := sameStored_refusal x htemplates hname
  rw [hreply] at hsame
  rw [hanswer]
  exact ⟨hsame.dice, hsame.records⟩

/-- Three dice for three rolls, and none for thirteen. -/
theorem answer_repeated_roll_three :
    let s : Bot ScriptedDice := start {} ⟨[2, 5, 3]⟩ 8
    let message : Message := { text := ".r 3#d6", name := "Ann" }
    let refused : Message := { text := ".r 13#d6", name := "Ann" }
    (∃ outcomes t, Evaluates "d6" message.seat (s.named "Ann") outcomes t ∧ outcomes.length = 3 ∧
      (answer message s).2.SameKept t ∧
      (answer message s).1 = some (rolledReply "Ann" ⟨"d6", "d6", ""⟩ 3 outcomes)) ∧
    s.SameStored (answer refused s).2 := by
  intro s message refused
  have htemplates : s.templates.HasReplies := (TemplateTable.onlyReplies_withReplies 8).hasReplies
  refine ⟨?_, ?_⟩
  · obtain ⟨x, hx, hcommand, htimes, hasm, hplan, hroll⟩ : ∃ x,
        invocation? s.settings message = some x ∧ x.command ∈ rollWords ∧
        max x.repeatCount 1 = 3 ∧ x.named? "asm" = none ∧
        planOf s.settings x = ⟨"d6", "d6", ""⟩ ∧ ¬s.RollsForReason message x :=
      Invocation.exists_of_read (by decide +kernel)
    have hruns : (runTimes "d6" message.seat 3 (s.named "Ann")).1.isOk = true ∧
        (runTimes "d6" message.seat 3 (s.named "Ann")).2.transient["$tPlayer"]? =
          some (.text "Ann") := by decide +kernel
    obtain ⟨result, t, player, hrepeats, hkept, hplayer, hreply⟩ :=
      (answer_repeated_roll hx hcommand htemplates).1 (by rw [htimes]; decide) hroll
    rw [hplan, htimes] at hrepeats
    rw [Iff.mpr runTimes_eq_iff hrepeats] at hruns
    obtain rfl : player = .text "Ann" := Option.some.inj (hplayer.symm.trans hruns.2)
    cases hrepeats with
    | failed => cases hruns.1
    | @succeeded _ outcomes hall hlength =>
      refine ⟨outcomes, t, hall, hlength, hkept, ?_⟩
      obtain ⟨hanswer, -, htext⟩ := hreply
      have hlisting : listing x outcomes = "" := by simp only [listing, hasm]
      rw [hanswer, htext (by decide), hlisting, String.append_empty, hplan, htimes]
      rfl
  · obtain ⟨x, hx, hcommand, htimes⟩ : ∃ x, invocation? s.settings refused = some x ∧
        x.command ∈ rollWords ∧ s.settings.maxRepeat < max x.repeatCount 1 :=
      Invocation.exists_of_read (by decide +kernel)
    have hname : (s.world refused.seat).vars.get? "core:botName" = none := by decide +kernel
    refine ((answer_repeated_roll hx hcommand htemplates).2 htimes).2 fun value hvalue => ?_
    rw [hname] at hvalue
    cases hvalue

/-- With a capacity that no reply template fits into the fault is not shown, and the name of the bot
may be a computed value that assigns a variable. -/
theorem not_answer_repeated_roll :
    (¬∀ (s : Bot ScriptedDice) (message : Message) (x : Invocation) (fault : Fault)
        (t : Bot ScriptedDice) (reply : String),
      invocation? s.settings message = some x → x.command ∈ rollWords →
      s.templates.HasReplies → max x.repeatCount 1 ≤ s.settings.maxRepeat →
      ¬s.RollsForReason message x →
      Repeats (planOf s.settings x).source message.seat (max x.repeatCount 1)
        (s.named message.name) (.error fault) t →
      (answer message s).1 = some reply → fault.message.toList <:+: reply.toList) ∧
    ¬∀ (s : Bot ScriptedDice) (message : Message) (x : Invocation),
      invocation? s.settings message = some x → x.command ∈ rollWords →
      s.templates.HasReplies → s.settings.maxRepeat < max x.repeatCount 1 →
      s.SameStored (answer message s).2 := by
  refine ⟨fun hreports => ?_, fun hkeeps => ?_⟩
  · let s : Bot ScriptedDice := start { capacity := 3 } ⟨[1]⟩ 8
    let message : Message := { text := ".r 1/0", name := "Alice" }
    have htemplates : s.templates.HasReplies :=
      (TemplateTable.onlyReplies_withReplies 8).hasReplies
    obtain ⟨x, hx, hcommand, htimes, hsource, hroll⟩ : ∃ x,
        invocation? s.settings message = some x ∧ x.command ∈ rollWords ∧
        max x.repeatCount 1 = 1 ∧ (planOf s.settings x).source = "1/0" ∧
        ¬s.RollsForReason message x :=
      Invocation.exists_of_read (by decide +kernel)
    have hanswer : (answer message s).1 =
        some "<\x7b$tPlayer\x7d> could not roll: \x7b$tError\x7d" := by decide +kernel
    have hfails : ((runTimes "1/0" message.seat 1 (s.named message.name)).1.map fun _ => ()).mapError
        Fault.message = .error "E1: expression too extreme, instruction capacity of 3 exceeded" := by
      decide +kernel
    rcases hruns : runTimes "1/0" message.seat 1 (s.named message.name) with ⟨fault | outcomes, t⟩
    · rw [hruns] at hfails
      have hmessage : fault.message = _ := Except.error.inj hfails
      have hinfix := hreports s message x fault t _ hx hcommand htemplates (by rw [htimes]; decide)
        hroll (by rw [hsource, htimes]; exact Iff.mp runTimes_eq_iff hruns) hanswer
      rw [hmessage] at hinfix
      revert hinfix
      decide
    · rw [hruns] at hfails
      cases hfails
  · let message : Message := { text := ".r 13#1", name := "Alice" }
    let name : Value := .computed .nothing "$mX=1"
    let s : Bot ScriptedDice := { start {} ⟨[1]⟩ 8 with
      records := ({} : Records).setSeatMap message.seat ((∅ : VariableMap).insert "core:botName" name) }
    have htemplates : s.templates.HasReplies :=
      (TemplateTable.onlyReplies_withReplies 8).hasReplies
    obtain ⟨x, hx, hcommand, htimes⟩ : ∃ x, invocation? s.settings message = some x ∧
        x.command ∈ rollWords ∧ s.settings.maxRepeat < max x.repeatCount 1 :=
      Invocation.exists_of_read (by decide +kernel)
    have hstored := (hkeeps s message x hx hcommand htemplates htimes).records.mapOf? (.player "")
    have hassigned : (((answer message s).2.records.mapOf? (.player "")).getD ∅)["$mX"]? =
        some (.int 1) := by decide +kernel
    rw [hstored] at hassigned
    have hnothing : ((s.records.mapOf? (.player "")).getD ∅)["$mX"]? = none := by decide +kernel
    rw [hnothing] at hassigned
    cases hassigned

end Bot

end DiceBot
