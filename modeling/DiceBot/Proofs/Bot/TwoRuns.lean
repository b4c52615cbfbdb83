import DiceBot.Proofs.Bot.Steps

/-!
# A command in two states

What a bot does in one state is compared with what it does in another. An act respects a relation
between states (`Act.Respects`) if from related states it has the same result and leaves related
states again. A relation that the steps of a command respect (`Bot.Mirrors`) is respected by every
command. Some relations have a say only while templates are drawn for allowed names, and they are
respected by what draws no others (`Bot.Mirrors.of_draws`).

A property of a single state is the relation of a state to itself (`Bot.Mirrors.of_property`).
-/

namespace DiceBot

variable {δ α β : Type}

/-! ## Acts -/

/-- From related states an act has the same result and leaves related states. -/
def Act.Respects (R : Bot δ → Bot δ → Prop) (x : Act δ α) : Prop :=
  ∀ s t, R s t → (x s).1 = (x t).1 ∧ R (x s).2 (x t).2

namespace Act.Respects

variable {R : Bot δ → Bot δ → Prop}

protected theorem pure (a : α) : Act.Respects R (pure a) := fun _ _ h => ⟨rfl, h⟩

protected theorem bind {x : Act δ α} {f : α → Act δ β} (hx : Act.Respects R x)
    (hf : ∀ a, Act.Respects R (f a)) : Act.Respects R (x >>= f) := by
  intro s t h
  obtain ⟨hresult, hstate⟩ := hx s t h
  show (f (x s).1 (x s).2).1 = (f (x t).1 (x t).2).1 ∧ R (f (x s).1 (x s).2).2 (f (x t).1 (x t).2).2
  rw [← hresult]
  exact hf (x s).1 _ _ hstate

/-- An act may look at what is the same in related states. -/
protected theorem read {f : Bot δ → Act δ α} (hread : ∀ s t, R s t → f s = f t)
    (hf : ∀ s, Act.Respects R (f s)) : Act.Respects R (get >>= f) := by
  intro s t h
  show (f s s).1 = (f t t).1 ∧ R (f s s).2 (f t t).2
  rw [← hread s t h]
  exact hf s s t h

end Act.Respects

/-! ## Commands -/

namespace Bot

variable [DiceSource δ]

/-- A relation that the evaluation of a source respects is respected by any number of them. -/
theorem respects_runTimes {seat : Seat} {R : Bot δ → Bot δ → Prop} {source : String}
    (hrun : Act.Respects R (run source seat)) (n : Nat) :
    Act.Respects R (runTimes source seat n) := by
  induction n with
  | zero => exact .pure _
  | succ n ih =>
    refine .bind hrun fun result => ?_
    cases result with
    | error fault => exact .pure _
    | ok outcome =>
      refine .bind ih fun results => ?_
      cases results with
      | error fault => exact .pure _
      | ok outcomes => exact .pure _

/-- A relation that the steps of a command at a seat respect, as long as templates are drawn for
allowed names only. -/
structure Mirrors (seat : Seat) (R : Bot δ → Bot δ → Prop)
    (allowed : String → Prop := fun _ => True) : Prop where
  settings : ∀ s t, R s t → s.settings = t.settings
  aliases : ∀ s t, R s t → s.aliases = t.aliases
  seatMap : ∀ s t, R s t → s.records.seatMap seat = t.records.seatMap seat
  transient : ∀ s t (f : VariableMap → VariableMap), R s t →
    R { s with transient := f s.transient } { t with transient := f t.transient }
  pickTemplate : ∀ name, allowed name → Act.Respects R (pickTemplate name)
  runProgram : ∀ p, p.LeavesOne → ∀ s t, R s t →
    (∀ name ∈ s.settings.machine.drawn p (s.world seat), allowed name) →
      (runProgram seat p s).1 = (runProgram seat p t).1 ∧
        R (runProgram seat p s).2 (runProgram seat p t).2
  restrict : ∀ s t (vars : VariableMap), (∀ name ∈ vars, name ∈ s.records.seatMap seat) → R s t →
    R { s with records := s.records.setSeatMap seat vars }
      { t with records := t.records.setSeatMap seat vars }

namespace Mirrors

variable {seat : Seat} {R : Bot δ → Bot δ → Prop} {allowed : String → Prop}

/-- A property of the bot that the steps of a command at a seat keep. -/
theorem of_property {P : Bot δ → Prop}
    (htransient : ∀ s vars, P s → P { s with transient := vars })
    (hpick : ∀ s name, P s → P { s with templates := (s.templates.pick name).2 })
    (hrun : ∀ s p, p.LeavesOne → P s → P (Bot.runProgram seat p s).2)
    (hrestrict : ∀ s (vars : VariableMap), (∀ name ∈ vars, name ∈ s.records.seatMap seat) → P s →
      P { s with records := s.records.setSeatMap seat vars }) :
    Mirrors seat fun s t => s = t ∧ P s where
  settings _ _ h := congrArg Bot.settings h.1
  aliases _ _ h := congrArg Bot.aliases h.1
  seatMap _ _ h := by rw [h.1]
  transient s _ f h := ⟨by rw [h.1], htransient s _ h.2⟩
  pickTemplate name _ s _ h := ⟨by rw [h.1], by rw [h.1], hpick s name h.2⟩
  runProgram p hp s _ h _ := ⟨by rw [h.1], by rw [h.1], hrun s p hp h.2⟩
  restrict s _ vars hvars h := ⟨by rw [h.1], hrestrict s vars hvars h.2⟩

/-- An act that draws templates for allowed names only respects the relation from where it does. -/
theorem of_draws (h : Mirrors seat R allowed) {x : Act δ α} {s t : Bot δ} {names : List String}
    (hx : Act.Draws seat x s names) (hnames : ∀ name ∈ names, allowed name) (hst : R s t) :
    (x s).1 = (x t).1 ∧ R (x s).2 (x t).2 := by
  induction hx generalizing t with
  | pure a s => exact ⟨rfl, hst⟩
  | @bind α β x f s names names' hx hf ihx ihf =>
    obtain ⟨hresult, hstate⟩ :=
      ihx (fun name hname => hnames name (List.mem_append_left _ hname)) hst
    obtain ⟨hresult', hstate'⟩ :=
      ihf (fun name hname => hnames name (List.mem_append_right _ hname)) hstate
    show (f (x s).1 (x s).2).1 = (f (x t).1 (x t).2).1 ∧
      R (f (x s).1 (x s).2).2 (f (x t).1 (x t).2).2
    rw [← hresult]
    exact ⟨hresult', hstate'⟩
  | @look α f s names hview hf ih =>
    show (f s s).1 = (f t t).1 ∧ R (f s s).2 (f t t).2
    rw [← hview s t ⟨h.settings s t hst, h.aliases s t hst, h.seatMap s t hst⟩]
    exact ih hnames hst
  | setTransient name value s => exact ⟨rfl, h.transient s t (·.insert name value) hst⟩
  | clearTransient s => exact ⟨rfl, h.transient s t (fun _ => ∅) hst⟩
  | setSeatMap hvars => exact ⟨rfl, h.restrict _ t _ hvars hst⟩
  | pickTemplate name s => exact h.pickTemplate name (hnames name List.mem_cons_self) s t hst
  | runProgram hp s => exact h.runProgram _ hp s t hst hnames

theorem respects (h : Mirrors seat R) {x : Act δ α} (log : Act.Log seat x) : Act.Respects R x :=
  fun s _ hst => h.of_draws (log.draws s) (fun _ _ => trivial) hst

theorem answer {message : Message} (h : Mirrors message.seat R) :
    Act.Respects R (answer message) := h.respects (answerLog message)

theorem evaluate {message : Message} (h : Mirrors message.seat R) (source : String) :
    Act.Respects R (evaluate source message) := h.respects (evaluateLog source message)

end Mirrors

end Bot

end DiceBot
