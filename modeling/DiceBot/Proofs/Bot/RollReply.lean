import DiceBot.Proofs.Bot.HeldVariables
import DiceBot.Proofs.Bot.Recording
import DiceBot.Proofs.Bot.Rolling

/-!
# Replies to rolls

The reply to a roll is made from the built-in templates when all evaluations are over. What they are
filled with is not looked through for placeholders, so names, reasons and expressions are shown as
they are (`Bot.rollSucceeded_once`). The sender's name alone is set before the expression is
evaluated, so it is the expression, and what that expands, that can replace it
(`Bot.answer_single_roll`).
-/

namespace DiceBot

namespace Replies

/-- How a reply to a roll gives the reason. -/
def reasonText : String := "For " ++ hole "$tReason" ++ ", "

/-- The reply to a single roll. -/
def rolledText : String := hole "$tReasonText" ++ speaker ++ " rolled " ++ hole "$tResultText"

theorem hasText_reason :
    HasText "core:rollReason" reasonText ["$tReason"] ["For ".toList, ", ".toList] :=
  ⟨by decide, rfl, by decide, by decide⟩

theorem hasText_rolled :
    HasText "core:roll" rolledText ["$tReasonText", "$tPlayer", "$tResultText"]
      [[], "<".toList, "> rolled ".toList, []] :=
  ⟨by decide, rfl, by decide, by decide⟩

end Replies

open Replies

namespace Bot

/-- The reply to a roll that was made once: the reason if there is one, then the player, how the
expression is shown, the trace if there is one, and the value. -/
def rollReply (player : String) (plan : RollPlan) (e : Evaluation) : String :=
  (if plan.reason = "" then "" else "For " ++ plan.reason ++ ", ") ++
    "<" ++ player ++ "> rolled " ++ plan.label ++ (if e.trace.render = "" then "" else "=" ++ e.trace.render) ++ "=" ++
    e.value.display

theorem resultLine_eq (label : String) (e : Evaluation) : resultLine label e =
    label ++ (if e.trace.render = "" then "" else "=" ++ e.trace.render) ++ "=" ++
      e.value.display := by
  unfold resultLine
  dsimp only
  by_cases h : e.trace.render = ""
  · rw [if_pos (by simp [h]), if_pos h, String.append_empty]
  · rw [if_neg (by simpa using h), if_neg h]
    simp only [String.append_assoc]

theorem resultText_singleton (plan : RollPlan) (o : Outcome) :
    resultText plan [o] = resultLine plan.label o.evaluation := by
  simp [resultText]

variable {δ : Type} [DiceSource δ] {s : Bot δ}

/-- A reply leaves the settings, the candidates and the transient variables as they are. -/
theorem render_of_single (seat : Seat) {reply text shown : String} {literals : List (List Char)}
    {entries : List (String × Value)} (h : Holds s.transient entries)
    (hget : s.templates.get? reply = builtin.lookup reply)
    (htext : HasText reply text (entries.map Prod.fst) literals)
    (hcapacity : entries.length + 2 ≤ s.settings.capacity)
    (hshown : shown.toList = Pattern.splice literals (entries.map (·.2.display.toList))) :
    ∃ t : Bot δ, render reply seat s = (shown, t) ∧ t.settings = s.settings ∧
      t.transient = s.transient ∧ t.templates.candidates = s.templates.candidates :=
  ⟨_, render_of_hasText htext hget hcapacity h hshown, rfl, rfl, TemplateTable.candidates_pick _ _⟩

/-- The templates of the replies to rolls are the built-in ones. -/
structure RollsBuiltin (s : Bot δ) : Prop where
  reason : s.templates.get? "core:rollReason" = Replies.builtin.lookup "core:rollReason"
  rolled : s.templates.get? "core:roll" = Replies.builtin.lookup "core:roll"

omit [DiceSource δ] in
theorem RollsBuiltin.congr {t : Bot δ} (h : s.RollsBuiltin)
    (hcandidates : t.templates.candidates = s.templates.candidates) : t.RollsBuiltin := by
  have hget : t.templates.get? = s.templates.get? := by
    funext name
    rw [TemplateTable.get?, TemplateTable.get?, hcandidates]
  exact ⟨by rw [hget, h.reason], by rw [hget, h.rolled]⟩

variable (plan : RollPlan) (seat : Seat) {player : Value}

theorem giveReason_eq (hcapacity : 6 ≤ s.settings.capacity) (htemplates : s.RollsBuiltin)
    (hplayer : s.transient["$tPlayer"]? = some player) :
    ∃ t : Bot δ, giveReason plan seat s =
        (if plan.reason = "" then "" else "For " ++ plan.reason ++ ", ", t) ∧
      t.settings = s.settings ∧ t.transient["$tPlayer"]? = some player ∧
      t.templates.candidates = s.templates.candidates := by
  unfold giveReason
  by_cases hnone : plan.reason = ""
  · rw [if_pos (by simp [hnone]), if_pos hnone]
    exact ⟨s, rfl, rfl, hplayer, rfl⟩
  · rw [if_neg (by simpa using hnone), if_neg hnone]
    let u : Bot δ := { s with transient := s.transient.insert "$tReason" (.text plan.reason) }
    have hplayer' : u.transient["$tPlayer"]? = some player := by
      rwa [Records.getElem?_insert_map, if_neg (by decide : "$tPlayer" ≠ "$tReason")]
    have hholds : Holds u.transient [("$tReason", .text plan.reason)] :=
      (Holds.nil _).insert (by decide) rfl (by simp)
    have hshown : ("For " ++ plan.reason ++ ", ").toList =
        Pattern.splice ["For ".toList, ", ".toList] [plan.reason.toList] := by
      simp [Pattern.splice]
    obtain ⟨t, hrender, hsettings, htransient, hcandidates⟩ :=
      render_of_single seat hholds htemplates.reason hasText_reason
        (Nat.le_trans (by decide : 1 + 2 ≤ 6) hcapacity) hshown
    exact ⟨t, (Act.bind_of_eq (setTransient_eq s _ _)).trans hrender, hsettings,
      by rwa [htransient], hcandidates⟩

theorem giveResults_once (hcapacity : 6 ≤ s.settings.capacity) (htemplates : s.RollsBuiltin)
    (hplayer : s.transient["$tPlayer"]? = some player) (hplain : player.isComputed = false)
    (outcomes : List Outcome) (reason : String) : (giveResults plan 1 outcomes seat reason s).1 =
      reason ++ "<" ++ player.display ++ "> rolled " ++ resultText plan outcomes := by
  let reasoned := s.transient.insert "$tReasonText" (.text reason)
  let u : Bot δ :=
    { s with transient := reasoned.insert "$tResultText" (.text (resultText plan outcomes)) }
  have hreasoned : Holds reasoned [("$tReasonText", .text reason), ("$tPlayer", player)] :=
    (Holds.player hplayer hplain).insert (by decide) rfl (by simp)
  have hholds : Holds u.transient [("$tReasonText", .text reason), ("$tPlayer", player),
      ("$tResultText", .text (resultText plan outcomes))] :=
    hreasoned.insert_last (by decide) rfl (by simp)
  have hshown :
      (reason ++ "<" ++ player.display ++ "> rolled " ++ resultText plan outcomes).toList =
        Pattern.splice [[], "<".toList, "> rolled ".toList, []]
          [reason.toList, player.display.toList, (resultText plan outcomes).toList] := by
    simp [Pattern.splice]
  obtain ⟨t, hrender, -⟩ := render_of_single seat hholds htemplates.rolled hasText_rolled
    (Nat.le_trans (by decide : 3 + 2 ≤ 6) hcapacity) hshown
  exact congrArg Prod.fst hrender

/-- The reply to a single roll shows what `$tPlayer` holds when the roll is over. -/
theorem rollSucceeded_once (hcapacity : 6 ≤ s.settings.capacity) (htemplates : s.RollsBuiltin)
    (hplayer : s.transient["$tPlayer"]? = some player) (hplain : player.isComputed = false)
    (o : Outcome) :
    (rollSucceeded plan 1 [o] seat s).1 = rollReply player.display plan o.evaluation := by
  obtain ⟨t, hreason, hsettings, hplayer', hcandidates⟩ :=
    giveReason_eq plan seat hcapacity htemplates hplayer
  rw [rollSucceeded_eq, Act.bind_of_eq hreason,
    giveResults_once plan seat (by rwa [hsettings]) (htemplates.congr hcandidates) hplayer' hplain,
    resultText_singleton, resultLine_eq, rollReply]
  simp only [String.append_assoc]

/-! ## The name of the sender -/

/-- The bot as it starts to carry out a command of a sender with the name. -/
def named (s : Bot δ) (name : String) : Bot δ :=
  { s with transient := s.transient.insert "$tPlayer" (.text name) }

variable {allowed : String → Bool} {Q : Value → Prop}

omit [DiceSource δ] in
theorem holdsAt_named (name : String) (hsources : (s.world seat).vars.AssignsOnly allowed)
    (hQ : Q (.text name)) :
    (s.named name).HoldsAt seat allowed "$tPlayer" Q ((s.named name).world seat).vars where
  aliases := rfl
  legacy := rfl
  candidates := rfl
  sources := hsources.set "$tPlayer" (Value.assignsOnly_of_plain rfl)
  held := ⟨_, Std.ExtTreeMap.getElem?_insert_self, hQ⟩

omit [DiceSource δ] in
/-- Whatever sources assign to the name, it is a plain value. -/
theorem holdsPlainAt_named (seat : Seat) (name : String) (s : Bot δ) :
    (s.named name).HoldsAt seat (fun _ => true) "$tPlayer" (fun value => value.isComputed = false)
      ((s.named name).world seat).vars :=
  holdsAt_named seat name ((s.world seat).vars.assignsOnly_of_forall fun _ => rfl) rfl

/-- After the first evaluation the sender's name is still held, if what was evaluated has assigned
no value of another kind. -/
theorem HoldsAt.firstRoll {before : Scoped} (x : Invocation) {seat : Seat}
    (h : s.HoldsAt seat allowed "$tPlayer" Q before)
    (hQ : allowed "$tPlayer" = true → ∀ value : Value, value.isComputed = false → Q value)
    (hsource : Expr.treePasses (·.assignsOnly allowed)
      (Expr.parse (planOf s.settings x).source) = true) :
    (firstRoll x seat s).2.HoldsAt seat allowed "$tPlayer" Q before := by
  have hname : Tier.ofName "$tPlayer" = .transient := by decide
  have hbase : "$tPlayer" ≠ baseVariable := by decide
  obtain ⟨first, t, hrun, hfirst⟩ := firstRoll_cases x seat s
  have ht : t.HoldsAt seat allowed "$tPlayer" Q before := by
    have hran := h.run hname hbase hQ hsource
    rwa [hrun] at hran
  rcases hfirst with hfirst | ⟨second, u, hsecond, hfirst⟩
  · rwa [hfirst]
  · have hran : (Bot.run usualSource seat t).2.HoldsAt seat allowed "$tPlayer" Q before :=
      ht.run hname hbase hQ rfl
    rw [hsecond] at hran
    rwa [hfirst]

/-- A single roll that succeeds is replied to with the reason, the player, the expression, its trace
and its value, each shown as it is whatever its characters. The outcome is one of the expression
that the plan gives, which is that of the arguments or, with all of the text as the reason, the
usual die. As the player is shown what `$tPlayer` holds when the roll is over. This is the sender's
name unless an assignment to `$tPlayer` stands in the expression of the arguments, in the source of
a computed value at the seat, or in a template. -/
theorem answer_single_roll {message : Message} {plan : RollPlan} {o : Outcome} {t : Bot δ}
    (hx : invocation? s.settings message = some x) (hcommand : x.command ∈ rollWords)
    (honce : max x.repeatCount 1 = 1) (htimes : 1 ≤ s.settings.maxRepeat)
    (hcapacity : 6 ≤ s.settings.capacity) (htemplates : s.RollsBuiltin)
    (hfirst : firstRoll x message.seat (s.named message.name) = ((plan, .ok o), t)) :
    (plan = planOf s.settings x ∨ plan = usualPlan s.settings x) ∧
    (∃ u : Bot δ, run plan.source message.seat u = (.ok o, t)) ∧
    ∃ player : Value, t.transient["$tPlayer"]? = some player ∧
      (answer message s).1 =
        some (rollReply player.display plan o.evaluation ++ listing x [o]) ∧
      (Expr.treePasses (·.assignsOnly (· != "$tPlayer"))
          (Expr.parse (planOf s.settings x).source) = true →
        (s.world message.seat).vars.AssignsOnly (· != "$tPlayer") →
        player = .text message.name) := by
  obtain ⟨hplan, houtcome⟩ := plan_of_firstRoll hfirst
  refine ⟨hplan, houtcome, ?_⟩
  -- some plain value is held whatever is assigned; that it is the name needs the last part
  have hheld := (holdsPlainAt_named message.seat message.name s).firstRoll x (fun _ _ => id)
    (Expr.treePasses_of_forall (Expr.assignsOnly_of_forall fun _ => rfl) _)
  rw [hfirst] at hheld
  obtain ⟨player, hplayer, hplain⟩ := hheld.held
  have hsettings : t.settings = s.settings := by
    have hsame := (mirrors_sameBeyond message.seat (s.named message.name)).respects
      (firstRollLog message.seat x) (s.named message.name) (s.named message.name) ⟨rfl, .refl _ _⟩
    rw [hfirst] at hsame
    exact hsame.2.2.settings
  refine ⟨player, hplayer, ?_, fun hsource hsources => ?_⟩
  · rcases hreply : rollSucceeded plan 1 [o] message.seat t with ⟨reply, u⟩
    have hrolled : reply = rollReply player.display plan o.evaluation := by
      rw [← rollSucceeded_once plan message.seat (by rwa [hsettings])
        (htemplates.congr hheld.candidates) hplayer hplain, hreply]
    have hroll : roll x message.seat (s.named message.name) = (reply ++ listing x [o], u) := by
      refine roll_of_rolled (by rwa [honce]) hfirst ?_ (by rw [honce]; exact hreply)
      rw [honce]
      rfl
    rw [answer_of_roll hx hcommand hroll, hrolled]
  · have hspared := (holdsAt_named message.seat message.name hsources
      (Q := fun value => value = .text message.name) rfl).firstRoll x nofun hsource
    rw [hfirst] at hspared
    obtain ⟨player', hplayer', rfl⟩ := hspared.held
    exact Option.some.inj (hplayer.symm.trans hplayer')

omit [DiceSource δ] in
/-- A bot that has not done anything yet has no sources but the built-in templates. -/
theorem assignsOnly_start (settings : Settings) (dice : δ) (templateSeed : UInt64)
    (hbuiltin : ∀ entry ∈ Replies.builtin, ∀ c ∈ entry.2,
      Expr.treePasses (·.assignsOnly allowed) (Expr.parseTemplate c.text) = true) :
    ((start settings dice templateSeed).world seat).vars.AssignsOnly allowed where
  entries place value h := by
    obtain ⟨tier, key⟩ := place
    cases tier <;>
      simp [Scoped.entries, Scoped.tier, world, start, Records.scopedAt, Records.playerMap?,
        Records.groupMap?, Records.seatMap, Records.seatMap?, Records.boundCard?] at h
  templates name c hc := by
    have hget : ((start settings dice templateSeed).world seat).vars.templates.get? name =
        Replies.builtin.lookup name := TemplateTable.onlyReplies_withReplies templateSeed name
    rw [hget] at hc
    cases hlookup : Replies.builtin.lookup name with
    | none =>
      rw [hlookup] at hc
      exact absurd hc List.not_mem_nil
    | some candidates =>
      rw [hlookup] at hc
      obtain ⟨front, back, hbuiltinEq, -⟩ := List.lookup_eq_some_iff.mp hlookup
      exact hbuiltin (name, candidates) (by rw [hbuiltinEq]; simp) c hc

/-- Braces in the sender's name and in the reason are shown, and nothing is put in for them. -/
theorem answer_single_roll_braces :
    let s : Bot ScriptedDice := start {} ⟨[7]⟩ 8
    let message : Message := { text := ".r 1d20+2 \x7b$tPlayer\x7d %s", name := "\x7bx\x7d" }
    ∃ o : Outcome, (answer message s).1 = some (rollReply "\x7bx\x7d"
      ⟨"1d20+2", "1d20+2", "\x7b$tPlayer\x7d %s"⟩ o.evaluation) := by
  intro s message
  obtain ⟨x, hx, hcommand, honce, hasm, hsource, hplan, hok⟩ : ∃ x,
      invocation? s.settings message = some x ∧ x.command ∈ rollWords ∧
      max x.repeatCount 1 = 1 ∧ x.named? "asm" = none ∧ (planOf s.settings x).source = "1d20+2" ∧
      (firstRoll x message.seat (s.named message.name)).1.1 =
        ⟨"1d20+2", "1d20+2", "\x7b$tPlayer\x7d %s"⟩ ∧
      (firstRoll x message.seat (s.named message.name)).1.2.isOk = true :=
    Invocation.exists_of_read (by decide +kernel)
  rcases hfirst : firstRoll x message.seat (s.named message.name) with ⟨⟨plan, fault | o⟩, t⟩
  · rw [hfirst] at hok
    exact nomatch hok
  · rw [hfirst] at hplan
    obtain rfl : plan = ⟨"1d20+2", "1d20+2", "\x7b$tPlayer\x7d %s"⟩ := hplan
    have htemplates : s.RollsBuiltin :=
      ⟨TemplateTable.onlyReplies_withReplies 8 _, TemplateTable.onlyReplies_withReplies 8 _⟩
    obtain ⟨-, -, player, -, hanswer, hname⟩ :=
      answer_single_roll hx hcommand honce (by decide) (by decide) htemplates hfirst
    have hplayer : player = .text message.name := by
      rw [hsource] at hname
      exact hname (by decide +kernel) (assignsOnly_start _ {} s.dice 8 (by decide +kernel))
    have hlisting : listing x [o] = "" := by simp only [listing, hasm]
    rw [hplayer, hlisting, String.append_empty] at hanswer
    exact ⟨o, hanswer⟩

/-- An expression that assigns `$tPlayer` names another player. -/
theorem not_answer_single_roll :
    ¬∀ (s : Bot ScriptedDice) (message : Message) (x : Invocation) (plan : RollPlan) (o : Outcome)
        (t : Bot ScriptedDice), invocation? s.settings message = some x → x.command ∈ rollWords →
      max x.repeatCount 1 = 1 → 1 ≤ s.settings.maxRepeat → 6 ≤ s.settings.capacity →
      s.templates.OnlyReplies →
      firstRoll x message.seat (s.named message.name) = ((plan, .ok o), t) →
      (answer message s).1 = some (rollReply message.name plan o.evaluation ++ listing x [o]) := by
  intro hreplies
  let s : Bot ScriptedDice := start {} ⟨[1]⟩ 8
  let message : Message := { text := ".r $tPlayer=5", name := "Alice" }
  obtain ⟨x, hx, hcommand, honce, hreason, hok⟩ : ∃ x,
      invocation? s.settings message = some x ∧ x.command ∈ rollWords ∧
      max x.repeatCount 1 = 1 ∧
      (firstRoll x message.seat (s.named message.name)).1.1.reason = "" ∧
      (firstRoll x message.seat (s.named message.name)).1.2.isOk = true :=
    Invocation.exists_of_read (by decide +kernel)
  rcases hfirst : firstRoll x message.seat (s.named message.name) with ⟨⟨plan, fault | o⟩, t⟩
  · rw [hfirst] at hok
    exact nomatch hok
  · rw [hfirst] at hreason
    have hreply := hreplies s message x plan o t hx hcommand honce (by decide) (by decide)
      (TemplateTable.onlyReplies_withReplies 8) hfirst
    have hanswer : (answer message s).1 = some "<5> rolled $tPlayer=5=5" := by decide +kernel
    rw [hanswer, rollReply, if_pos hreason, Option.some_inj] at hreply
    -- the second characters differ
    have hsecond := congrArg (fun reply : String => reply.toList[1]?) hreply
    simp [message] at hsecond

end Bot

end DiceBot
