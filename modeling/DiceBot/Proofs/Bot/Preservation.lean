import DiceBot.Proofs.Bot.TwoRuns
import DiceBot.Proofs.Machine.Preservation

/-!
# What commands preserve

A command changes a bot in four ways: it sets transient variables, draws templates, runs compiled
programs at its seat, and takes attributes out of the map of its seat. A property that survives
these at every seat (`Bot.Keeps`) survives every command, whatever comes of it.
-/

namespace DiceBot

variable {δ α β : Type}

/-! ## Acts -/

/-- After an act a property of the bot holds, whether or not it did before. -/
def Act.Establishes (P : Bot δ → Prop) (x : Act δ α) : Prop := ∀ s, P (x s).2

/-- The last part of a sequence decides what it establishes. -/
protected theorem Act.Establishes.bind {P : Bot δ → Prop} {x : Act δ α} {f : α → Act δ β}
    (hf : ∀ a, Act.Establishes P (f a)) : Act.Establishes P (x >>= f) := fun _ => hf _ _

/-- An act keeps a property of the bot. -/
def Act.Preserves (P : Bot δ → Prop) (x : Act δ α) : Prop := ∀ s, P s → P (x s).2

namespace Act.Preserves

variable {P : Bot δ → Prop}

protected theorem pure (a : α) : Act.Preserves P (pure a) := fun _ hs => hs

protected theorem get : Act.Preserves P get := fun _ hs => hs

protected theorem bind {x : Act δ α} {f : α → Act δ β} (hx : Act.Preserves P x)
    (hf : ∀ a, Act.Preserves P (f a)) : Act.Preserves P (x >>= f) :=
  fun s hs => hf _ _ (hx s hs)

end Act.Preserves

/-! ## Commands -/

namespace Bot

variable [DiceSource δ]

/-- A property that the steps of a command keep. A program run at a seat is one that was compiled,
and what a command takes out of a map it does not replace by anything. -/
structure Keeps (P : Bot δ → Prop) : Prop where
  transient : ∀ s vars, P s → P { s with transient := vars }
  pick : ∀ s name, P s → P { s with templates := (s.templates.pick name).2 }
  runProgram : ∀ seat p, p.LeavesOne → Act.Preserves P (runProgram seat p)
  restrict : ∀ s seat (vars : VariableMap), (∀ name ∈ vars, name ∈ s.records.seatMap seat) →
    P s → P { s with records := s.records.setSeatMap seat vars }

namespace Keeps

variable {P : Bot δ → Prop} (h : Keeps P)

include h

theorem mirrors (seat : Seat) : Mirrors seat fun s t => s = t ∧ P s :=
  .of_property h.transient h.pick (fun s p hp => h.runProgram seat p hp s)
    fun s vars => h.restrict s seat vars

theorem answer (message : Message) : Act.Preserves P (answer message) := fun s hs =>
  ((h.mirrors message.seat).answer s s ⟨rfl, hs⟩).2.2

theorem evaluate (source : String) (message : Message) :
    Act.Preserves P (evaluate source message) := fun s hs =>
  ((h.mirrors message.seat).evaluate source s s ⟨rfl, hs⟩).2.2

end Keeps

/-- What a run at a seat leaves is kept, also if it failed, and a property of the variables that
assignments and drawn templates keep holds of it. -/
theorem exists_keep_of_runProgram {P : Scoped → Prop}
    (hset : ∀ vars name value, P vars → P (Variables.set vars name value))
    (htemplate : ∀ vars name, P vars → P (Variables.template? vars name).2) {seat : Seat}
    {p : Program} (hp : p.LeavesOne) {s : Bot δ} (hs : P (s.world seat).vars) :
    ∃ w : World δ Scoped, P w.vars ∧ (runProgram seat p s).2 = s.keep seat w := by
  have hkeeps : s.settings.machine.Keeps (fun w : World δ Scoped => P w.vars) (fun _ => True) :=
    .of_vars _ hset htemplate fun _ _ => trivial
  have hevaluate := hkeeps.evaluate hp
  unfold Bot.runProgram EStateM.run
  cases hrun : s.settings.machine.evaluate p (s.world seat) with
  | ok e w => exact ⟨w, (hevaluate.of_ok hs hrun).1, rfl⟩
  | error fault w => exact ⟨w, (hevaluate.of_error hs hrun).1, rfl⟩

end Bot

end DiceBot
