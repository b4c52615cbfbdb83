import DiceBot.Proofs.Bot.QuietReplies
import DiceBot.Proofs.Bot.RollReply

/-!
# Evaluations one after the other

A source that is evaluated several times at a seat is evaluated each time in what the time before has
left (`Bot.Evaluates`), until it has been evaluated as often as it should be or an evaluation fails
(`Bot.Repeats`). The loop of a roll command does just that (`Bot.runTimes_eq_iff`). What the bot is in
when the loop is over one of the evaluations has left (`Bot.exists_run_of_runTimes`), so that what
every evaluation sees to holds in the end (`Bot.settledAt_runTimes`).
-/

namespace DiceBot

namespace Bot

variable {δ : Type} [DiceSource δ] {source : String} {seat : Seat} {s t u : Bot δ}

/-- Evaluations of a source that succeed with the outcomes, each in the state that the one before it
has left. -/
inductive Evaluates (source : String) (seat : Seat) : Bot δ → List Outcome → Bot δ → Prop
  | done (s : Bot δ) : Evaluates source seat s [] s
  | next {s t u : Bot δ} {o : Outcome} {outcomes : List Outcome}
      (hrun : run source seat s = (.ok o, t)) (hmore : Evaluates source seat t outcomes u) :
      Evaluates source seat s (o :: outcomes) u

/-- A source is evaluated so many times, or up to the first failure. -/
inductive Repeats (source : String) (seat : Seat) (times : Nat) (s : Bot δ) :
    Except Fault (List Outcome) → Bot δ → Prop
  | succeeded {t : Bot δ} {outcomes : List Outcome} (hall : Evaluates source seat s outcomes t)
      (htimes : outcomes.length = times) : Repeats source seat times s (.ok outcomes) t
  | failed {t u : Bot δ} {outcomes : List Outcome} {fault : Fault}
      (hbefore : Evaluates source seat s outcomes t) (htimes : outcomes.length < times)
      (hrun : run source seat t = (.error fault, u)) : Repeats source seat times s (.error fault) u

theorem Repeats.next {o : Outcome} {n : Nat} {result : Except Fault (List Outcome)}
    (hrun : run source seat s = (.ok o, t)) (hmore : Repeats source seat n t result u) :
    Repeats source seat (n + 1) s (result.map (o :: ·)) u := by
  cases hmore with
  | succeeded hall htimes => exact .succeeded (.next hrun hall) (congrArg (· + 1) htimes)
  | failed hbefore htimes hfailed =>
    exact .failed (.next hrun hbefore) (Nat.succ_lt_succ htimes) hfailed

theorem repeats_runTimes (source : String) (seat : Seat) (n : Nat) (s : Bot δ) :
    Repeats source seat n s (runTimes source seat n s).1 (runTimes source seat n s).2 := by
  induction n generalizing s with
  | zero => exact .succeeded (.done s) rfl
  | succ n ih =>
    rcases hrun : run source seat s with ⟨fault | o, t⟩
    · rw [runTimes_succ_of_error n hrun]
      exact .failed (.done s) n.succ_pos hrun
    · rw [runTimes_succ_of_ok n hrun]
      exact (ih t).next hrun

theorem Evaluates.runTimes_eq {outcomes : List Outcome}
    (h : Evaluates source seat s outcomes t) (more : Nat) :
    runTimes source seat (outcomes.length + more) s =
      ((runTimes source seat more t).1.map (outcomes ++ ·), (runTimes source seat more t).2) := by
  induction h with
  | done s =>
    rw [List.length_nil, Nat.zero_add]
    rcases runTimes source seat more s with ⟨fault | outcomes, u⟩ <;> rfl
  | next hrun hmore ih =>
    rw [List.length_cons, Nat.add_right_comm, runTimes_succ_of_ok _ hrun, ih]
    rcases runTimes source seat more _ with ⟨fault | outcomes, u⟩ <;> rfl

/-- The loop makes just these evaluations. -/
theorem runTimes_eq_iff {n : Nat} {result : Except Fault (List Outcome)} :
    runTimes source seat n s = (result, t) ↔ Repeats source seat n s result t := by
  constructor
  · intro h
    have hrepeats := repeats_runTimes source seat n s
    rwa [h] at hrepeats
  · intro h
    cases h with
    | @succeeded t outcomes hall htimes =>
      have hruns := hall.runTimes_eq 0
      rw [Nat.add_zero, htimes] at hruns
      rw [hruns]
      show (Except.ok (outcomes ++ []), t) = _
      rw [List.append_nil]
    | failed hbefore htimes hrun =>
      obtain ⟨more, rfl⟩ := Nat.exists_eq_add_of_lt htimes
      rw [Nat.add_assoc, hbefore.runTimes_eq, runTimes_succ_of_error more hrun]
      rfl

/-- The last of the evaluations has left the bot as it is in the end, and it was made in a state with
what every evaluation keeps. -/
theorem exists_run_of_runTimes {P : Bot δ → Prop} (hP : Act.Preserves P (run source seat))
    (hs : P s) (n : Nat) :
    ∃ v, P v ∧ (runTimes source seat (n + 1) s).2 = (run source seat v).2 := by
  induction n generalizing s with
  | zero =>
    refine ⟨s, hs, ?_⟩
    rcases hrun : run source seat s with ⟨fault | o, t⟩
    · rw [runTimes_succ_of_error 0 hrun]
    · rw [runTimes_succ_of_ok 0 hrun]
      rfl
  | succ n ih =>
    rcases hrun : run source seat s with ⟨fault | o, t⟩
    · refine ⟨s, hs, ?_⟩
      rw [runTimes_succ_of_error (n + 1) hrun, hrun]
    · have ht : P t := by
        have hran := hP s hs
        rwa [hrun] at hran
      obtain ⟨v, hv, hlast⟩ := ih ht
      exact ⟨v, hv, by rw [runTimes_succ_of_ok (n + 1) hrun, hlast]⟩

/-! ## After the evaluations -/

theorem settings_run (source : String) (seat : Seat) (s : Bot δ) :
    (run source seat s).2.settings = s.settings :=
  ((mirrors_sameBeyond seat s).respects (runLog seat source) s s ⟨rfl, .refl seat s⟩).2.2.settings

/-- An evaluation of a source that compiles sees to it that the maps used at the seat exist. -/
theorem hasMaps_run {p : Program} (hcompile : s.settings.machine.code.compile source = .ok p) :
    (run source seat s).2.records.HasMaps seat := by
  rw [snd_run_of_ok hcompile, runProgram_eq_keep]
  exact Records.hasMaps_keep _ _ _

/-- When the evaluations of a source that compiles are over, the name of the player is held, and
nothing that quiet templates do changes what is kept. -/
theorem settledAt_runTimes {p : Program} {before : Scoped}
    (hcompile : s.settings.machine.code.compile source = .ok p)
    (hplayer : s.HoldsAt seat (fun _ => true) "$tPlayer" (fun value => value.isComputed = false)
      before) (htemplates : s.QuietRolls) (n : Nat) :
    (runTimes source seat (n + 1) s).2.SettledAt seat ["$tPlayer"] ∧
      (runTimes source seat (n + 1) s).2.settings = s.settings ∧
      (runTimes source seat (n + 1) s).2.templates.candidates = s.templates.candidates := by
  let P : Bot δ → Prop := fun t => t.settings = s.settings ∧
    t.HoldsAt seat (fun _ => true) "$tPlayer" (fun value => value.isComputed = false) before
  have hP : Act.Preserves P (run source seat) := fun t ⟨hsettings, hheld⟩ =>
    ⟨(settings_run source seat t).trans hsettings, hheld.run (by decide) (by decide)
      (fun _ _ => id) (Expr.treePasses_of_forall (Expr.assignsOnly_of_forall fun _ => rfl) _)⟩
  obtain ⟨v, hv, hlast⟩ := exists_run_of_runTimes hP ⟨rfl, hplayer⟩ n
  obtain ⟨hsettings, hheld⟩ := hP v hv
  have hcandidates : (run source seat v).2.templates.candidates = s.templates.candidates :=
    hheld.candidates.trans hplayer.candidates.symm
  rw [hlast]
  refine ⟨⟨hasMaps_run (hv.1 ▸ hcompile), ?_, htemplates.congr hcandidates⟩, hsettings, hcandidates⟩
  exact List.forall_mem_singleton.mpr ⟨by decide, hheld.held⟩

end Bot

end DiceBot
