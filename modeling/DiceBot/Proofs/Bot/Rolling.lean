import DiceBot.Proofs.Bot.Rendering

/-!
# Roll commands in their stages

A roll command evaluates the plan of its arguments, perhaps changes the plan
(`Bot.firstRoll_of_roll`, `Bot.firstRoll_of_no_roll`), rolls the remaining times and draws up its
reply (`Bot.roll_of_failed`, `Bot.roll_of_rolled`), which gives first the reason and then the
results (`Bot.rollSucceeded_eq`). The first evaluation and the remaining ones are the evaluations of
one source one after the other (`Bot.roll_of_runTimes_error`, `Bot.roll_of_runTimes_ok`).
-/

namespace DiceBot

namespace Bot

/-- The command words that roll. -/
def rollWords : List String := ["r", "rd", "roll"]

/-- The plan of a roll whose text is all reason. -/
def usualPlan (settings : Settings) (x : Invocation) : RollPlan :=
  ⟨usualSource, usualLabel settings, x.cleanText⟩

/-- How outcomes are shown, each on its line. -/
def resultText (plan : RollPlan) (outcomes : List Outcome) : String :=
  String.intercalate "\n" (outcomes.map fun o => resultLine plan.label o.evaluation)

variable {δ : Type} [DiceSource δ]

/-- The first part of a reply, which gives the reason if there is one. -/
def giveReason (plan : RollPlan) (seat : Seat) : Act δ String :=
  if plan.reason.isEmpty then pure ""
  else do
    setTransient "$tReason" (.text plan.reason)
    render "core:rollReason" seat

/-- The reply with its first part, which gives the results. -/
def giveResults (plan : RollPlan) (times : Nat) (outcomes : List Outcome) (seat : Seat)
    (reasonText : String) : Act δ String := do
  setTransient "$tReasonText" (.text reasonText)
  let lines := outcomes.map fun o => resultLine plan.label o.evaluation
  setTransient "$tResultText" (.text (String.intercalate "\n" lines))
  if times = 1 then render "core:roll" seat
  else do
    setTransient "$tTimes" (.int (Int64.ofNat times))
    render "core:rollMulti" seat

theorem rollSucceeded_eq (plan : RollPlan) (times : Nat) (outcomes : List Outcome) (seat : Seat) :
    (rollSucceeded plan times outcomes seat : Act δ String) =
      giveReason plan seat >>= giveResults plan times outcomes seat := by
  unfold rollSucceeded giveReason
  by_cases hnone : plan.reason.isEmpty = true
  · simp only [if_pos hnone]
    rfl
  · simp only [if_neg hnone, bind_assoc]
    rfl

variable {s t : Bot δ} {seat : Seat} {x : Invocation}

/-- A roll command at the seat of the message. -/
theorem answer_of_roll {message : Message} (hx : invocation? s.settings message = some x)
    (hcommand : x.command ∈ rollWords) {reply : String}
    (hroll : roll x message.seat
      { s with transient := s.transient.insert "$tPlayer" (.text message.name) } = (reply, t)) :
    answer message s = (some reply, { t with transient := ∅ }) := by
  have hcarry : (carryOut x message.seat : Act δ (Option String)) =
      some <$> roll x message.seat := by
    simp only [rollWords, List.mem_cons, List.not_mem_nil, or_false] at hcommand
    unfold carryOut
    rcases hcommand with h | h | h <;> simp only [h]
  exact answer_of_carryOut hx ((congrFun hcarry _).trans (Act.map_of_eq some hroll))

/-- The plan of the arguments is kept if it turns out to be a roll, or if it is the usual die. -/
theorem firstRoll_of_roll {first : Except Fault Outcome}
    (hrun : run (planOf s.settings x).source seat s = (first, t))
    (hroll : isNoRoll first = false ∨ (planOf s.settings x).source = usualSource) :
    firstRoll x seat s = ((planOf s.settings x, first), t) := by
  have htest : ¬(isNoRoll first && (planOf s.settings x).source ≠ usualSource) = true := by
    rcases hroll with h | h <;> simp [h]
  unfold firstRoll
  rw [Act.bind_of_eq (get_eq s)]
  dsimp only
  rw [Act.bind_of_eq hrun, if_neg htest]
  rfl

theorem firstRoll_eq_of_roll
    (hroll : isNoRoll (run (planOf s.settings x).source seat s).1 = false ∨
      (planOf s.settings x).source = usualSource) :
    firstRoll x seat s = ((planOf s.settings x, (run (planOf s.settings x).source seat s).1),
      (run (planOf s.settings x).source seat s).2) :=
  firstRoll_of_roll (Prod.eta _).symm hroll

/-- Otherwise the text is all reason, and the usual die is rolled. -/
theorem firstRoll_of_no_roll {first second : Except Fault Outcome} {u : Bot δ}
    (hrun : run (planOf s.settings x).source seat s = (first, t)) (hnoRoll : isNoRoll first = true)
    (hsource : (planOf s.settings x).source ≠ usualSource)
    (hsecond : run usualSource seat t = (second, u)) :
    firstRoll x seat s = ((usualPlan s.settings x, second), u) := by
  have htest : (isNoRoll first && (planOf s.settings x).source ≠ usualSource) = true := by
    simp [hnoRoll, hsource]
  unfold firstRoll
  rw [Act.bind_of_eq (get_eq s)]
  dsimp only
  rw [Act.bind_of_eq hrun, if_pos htest, Act.bind_of_eq hsecond]
  rfl

/-- The first evaluation is that of the plan of the arguments, or a second one after it. -/
theorem firstRoll_cases (x : Invocation) (seat : Seat) (s : Bot δ) :
    ∃ first t, run (planOf s.settings x).source seat s = (first, t) ∧
      (firstRoll x seat s = ((planOf s.settings x, first), t) ∨
        ∃ second u, run usualSource seat t = (second, u) ∧
          firstRoll x seat s = ((usualPlan s.settings x, second), u)) := by
  rcases hrun : run (planOf s.settings x).source seat s with ⟨first, t⟩
  refine ⟨first, t, rfl, ?_⟩
  by_cases hroll : isNoRoll first = false ∨ (planOf s.settings x).source = usualSource
  · exact .inl (firstRoll_of_roll hrun hroll)
  · rw [not_or, Bool.not_eq_false] at hroll
    rcases hsecond : run usualSource seat t with ⟨second, u⟩
    exact .inr ⟨second, u, rfl, firstRoll_of_no_roll hrun hroll.1 hroll.2 hsecond⟩

variable {plan : RollPlan} {u : Bot δ}

/-- The outcome is that of the plan that is gone by in the end. -/
theorem plan_of_firstRoll {first : Except Fault Outcome}
    (h : firstRoll x seat s = ((plan, first), t)) :
    (plan = planOf s.settings x ∨ plan = usualPlan s.settings x) ∧
      ∃ u : Bot δ, run plan.source seat u = (first, t) := by
  obtain ⟨first', u, hrun, hfirst | ⟨second, v, hsecond, hfirst⟩⟩ := firstRoll_cases x seat s
  · rw [hfirst] at h
    cases h
    exact ⟨.inl rfl, _, hrun⟩
  · rw [hfirst] at h
    cases h
    exact ⟨.inr rfl, _, hsecond⟩

/-- Evaluations are made one after the other, until one fails. -/
theorem runTimes_succ_of_error {source : String} {fault : Fault} (n : Nat)
    (hrun : run source seat s = (.error fault, t)) :
    runTimes source seat (n + 1) s = (.error fault, t) := by
  rw [runTimes, Act.bind_of_eq hrun]
  rfl

theorem runTimes_succ_of_ok {source : String} {o : Outcome} (n : Nat)
    (hrun : run source seat s = (.ok o, t)) :
    runTimes source seat (n + 1) s =
      ((runTimes source seat n t).1.map (o :: ·), (runTimes source seat n t).2) := by
  rw [runTimes, Act.bind_of_eq hrun]
  rcases hmore : runTimes source seat n t with ⟨fault | outcomes, u⟩
  · exact Act.bind_of_eq hmore
  · exact Act.bind_of_eq hmore

/-- A roll that is to be repeated too often is refused, and its arguments are not looked at. -/
theorem roll_of_too_many (htimes : s.settings.maxRepeat < max x.repeatCount 1) :
    roll x seat s = render "core:rollTooMany" seat { s with
      transient := s.transient.insert "$tTimes" (.int (Int64.ofNat (max x.repeatCount 1))) } := by
  unfold roll
  dsimp only
  rw [Act.bind_of_eq (get_eq s), if_pos htimes, Act.bind_of_eq (setTransient_eq s _ _)]

theorem roll_of_first_failed {fault : Fault} (htimes : max x.repeatCount 1 ≤ s.settings.maxRepeat)
    (hfirst : firstRoll x seat s = ((plan, .error fault), t)) :
    roll x seat s = rollFailed fault seat t := by
  unfold roll
  dsimp only
  rw [Act.bind_of_eq (get_eq s), if_neg (Nat.not_lt.mpr htimes), Act.bind_of_eq hfirst]

/-- A roll fails at the first evaluation that fails. -/
theorem roll_of_failed {fault : Fault} {o : Outcome}
    (htimes : max x.repeatCount 1 ≤ s.settings.maxRepeat)
    (hfirst : firstRoll x seat s = ((plan, .ok o), t))
    (hmore : runTimes plan.source seat (max x.repeatCount 1 - 1) t = (.error fault, u)) :
    roll x seat s = rollFailed fault seat u := by
  unfold roll
  dsimp only
  rw [Act.bind_of_eq (get_eq s), if_neg (Nat.not_lt.mpr htimes), Act.bind_of_eq hfirst]
  dsimp only
  rw [Act.bind_of_eq hmore]

/-- A roll all of whose evaluations succeed is replied to, with a listing if one was asked for. -/
theorem roll_of_rolled {o : Outcome} {outcomes : List Outcome} {reply : String} {v : Bot δ}
    (htimes : max x.repeatCount 1 ≤ s.settings.maxRepeat)
    (hfirst : firstRoll x seat s = ((plan, .ok o), t))
    (hmore : runTimes plan.source seat (max x.repeatCount 1 - 1) t = (.ok outcomes, u))
    (hreply : rollSucceeded plan (max x.repeatCount 1) (o :: outcomes) seat u = (reply, v)) :
    roll x seat s = (reply ++ listing x (o :: outcomes), v) := by
  unfold roll
  dsimp only
  rw [Act.bind_of_eq (get_eq s), if_neg (Nat.not_lt.mpr htimes), Act.bind_of_eq hfirst]
  dsimp only
  rw [Act.bind_of_eq hmore]
  dsimp only
  rw [Act.bind_of_eq hreply]
  rfl

/-! ## All evaluations -/

section RunTimes

variable {v : Bot δ} (htimes : max x.repeatCount 1 ≤ s.settings.maxRepeat)
  (hfirst : firstRoll x seat s = ((plan, (run plan.source seat u).1), (run plan.source seat u).2))

include htimes hfirst

/-- If the plan that is gone by is first evaluated in a state, the command makes all of its
evaluations from there, and fails if one of them does. -/
theorem roll_of_runTimes_error {fault : Fault}
    (hruns : runTimes plan.source seat (max x.repeatCount 1) u = (.error fault, v)) :
    roll x seat s = rollFailed fault seat v := by
  obtain ⟨n, hn⟩ : ∃ n, max x.repeatCount 1 = n + 1 := ⟨max x.repeatCount 1 - 1, by omega⟩
  rw [hn] at hruns
  rcases hrun : run plan.source seat u with ⟨fault' | o, t⟩
  · rw [hrun] at hfirst
    rw [runTimes_succ_of_error n hrun] at hruns
    cases hruns
    exact roll_of_first_failed htimes hfirst
  · rw [hrun] at hfirst
    rw [runTimes_succ_of_ok n hrun] at hruns
    rcases hmore : runTimes plan.source seat n t with ⟨fault' | outcomes, w⟩
    · rw [hmore] at hruns
      cases hruns
      exact roll_of_failed htimes hfirst (by rwa [hn])
    · rw [hmore] at hruns
      cases hruns

/-- It replies to all of them if they all succeed. -/
theorem roll_of_runTimes_ok {outcomes : List Outcome} {reply : String} {w : Bot δ}
    (hruns : runTimes plan.source seat (max x.repeatCount 1) u = (.ok outcomes, v))
    (hreply : rollSucceeded plan (max x.repeatCount 1) outcomes seat v = (reply, w)) :
    roll x seat s = (reply ++ listing x outcomes, w) := by
  obtain ⟨n, hn⟩ : ∃ n, max x.repeatCount 1 = n + 1 := ⟨max x.repeatCount 1 - 1, by omega⟩
  rw [hn] at hruns
  rcases hrun : run plan.source seat u with ⟨fault | o, t⟩
  · rw [runTimes_succ_of_error n hrun] at hruns
    cases hruns
  · rw [hrun] at hfirst
    rw [runTimes_succ_of_ok n hrun] at hruns
    rcases hmore : runTimes plan.source seat n t with ⟨fault | more, w'⟩
    · rw [hmore] at hruns
      cases hruns
    · rw [hmore] at hruns
      cases hruns
      exact roll_of_rolled htimes hfirst (by rwa [hn]) hreply

end RunTimes

end Bot

end DiceBot
