import DiceBot.Bot.Answer
import DiceBot.Proofs.Code.Shape
import DiceBot.Proofs.Machine.DrawnNames

/-!
# The steps of a command

A command does only a few things with the state of a bot: it looks at settings, aliases and the map
of its seat, sets transient variables, draws templates, runs compiled programs at its seat, and
takes attributes out of the map of its seat. `Act.Draws` says that an act consists of such steps,
and which names it draws templates for, in its replies and in what these evaluate.

Which names these are can be computed along with the act (`Act.Log`). There is a log for each part
of a command, put together as the part is, and so for the answer to a message (`Bot.drawn`).
-/

namespace DiceBot

variable {δ α β : Type} [DiceSource δ]

/-- States that look the same to a command at a seat, apart from what the programs that it runs see
there. -/
structure Bot.SameView (seat : Seat) (s t : Bot δ) : Prop where
  settings : s.settings = t.settings
  aliases : s.aliases = t.aliases
  seatMap : s.records.seatMap seat = t.records.seatMap seat

/-- The act consists of steps of a command at the seat, and from this state it draws templates for
these names. A program that is run is one that was compiled, and what is taken out of a map is not
replaced by anything. -/
inductive Act.Draws (seat : Seat) : {α : Type} → Act δ α → Bot δ → List String → Prop
  | pure {α : Type} (a : α) (s : Bot δ) : Draws seat (pure a) s []
  | bind {α β : Type} {x : Act δ α} {f : α → Act δ β} {s : Bot δ} {names names' : List String}
      (hx : Draws seat x s names) (hf : Draws seat (f (x s).1) (x s).2 names') :
      Draws seat (x >>= f) s (names ++ names')
  | look {α : Type} {f : Bot δ → Act δ α} {s : Bot δ} {names : List String}
      (hview : ∀ s t, Bot.SameView seat s t → f s = f t) (hf : Draws seat (f s) s names) :
      Draws seat (get >>= f) s names
  | setTransient (name : String) (value : Value) (s : Bot δ) :
      Draws seat (Bot.setTransient name value) s []
  | clearTransient (s : Bot δ) : Draws seat Bot.clearTransient s []
  | setSeatMap {vars : VariableMap} {s : Bot δ}
      (hvars : ∀ name ∈ vars, name ∈ s.records.seatMap seat) :
      Draws seat (Bot.setSeatMap seat vars) s []
  | pickTemplate (name : String) (s : Bot δ) : Draws seat (Bot.pickTemplate name) s [name]
  | runProgram {p : Program} (hp : p.LeavesOne) (s : Bot δ) :
      Draws seat (Bot.runProgram seat p) s (s.settings.machine.drawn p (s.world seat))

/-- The names that an act draws templates for, from each state. -/
structure Act.Log (seat : Seat) (x : Act δ α) where
  names : Bot δ → List String
  draws : ∀ s, Act.Draws seat x s (names s)

namespace Act.Log

variable {seat : Seat}

protected def pure (a : α) : Act.Log seat (pure a : Act δ α) := ⟨fun _ => [], .pure a⟩

protected def bind {x : Act δ α} {f : α → Act δ β} (log : Act.Log seat x)
    (logs : ∀ a, Act.Log seat (f a)) : Act.Log seat (x >>= f) where
  names s := log.names s ++ (logs (x s).1).names (x s).2
  draws s := .bind (log.draws s) ((logs _).draws _)

protected def map {x : Act δ α} (f : α → β) (log : Act.Log seat x) : Act.Log seat (f <$> x) :=
  log.bind fun a => .pure (f a)

protected def ite {p : Prop} [Decidable p] {x y : Act δ α} (logx : Act.Log seat x)
    (logy : Act.Log seat y) : Act.Log seat (if p then x else y) where
  names s := if p then logx.names s else logy.names s
  draws s := by
    split
    · exact logx.draws s
    · exact logy.draws s

/-- An act may look at what is the same in states that look the same. -/
protected def look {f : Bot δ → Act δ α} (hview : ∀ s t, Bot.SameView seat s t → f s = f t)
    (logs : ∀ s, Act.Log seat (f s)) : Act.Log seat (get >>= f) where
  names s := (logs s).names s
  draws s := .look hview ((logs s).draws s)

protected def setTransient (name : String) (value : Value) :
    Act.Log (δ := δ) seat (Bot.setTransient name value) := ⟨fun _ => [], .setTransient name value⟩

/-- Attributes are taken out of the map of the seat before anything else is done. -/
protected def restrict (f : VariableMap → VariableMap)
    (hf : ∀ vars, ∀ name ∈ f vars, name ∈ vars) {rest : VariableMap → Act δ α}
    (logs : ∀ vars, Act.Log seat (rest vars)) :
    Act.Log seat (do
      let s ← get
      Bot.setSeatMap seat (f (s.records.seatMap seat))
      rest (s.records.seatMap seat)) where
  names s := (logs (s.records.seatMap seat)).names
    (Bot.setSeatMap seat (f (s.records.seatMap seat)) s).2
  -- the map is taken from the same state that what is left of it is put back into
  draws s := .look (fun s t h => by rw [h.seatMap])
    (.bind (.setSeatMap (hf _)) ((logs (s.records.seatMap seat)).draws _))

end Act.Log

namespace Bot

/-- What is left after names are erased was there before. -/
theorem mem_of_mem_eraseNames {names : List String} {vars : VariableMap} {name : String}
    (h : name ∈ (eraseNames names vars).2) : name ∈ vars := by
  induction names generalizing vars with
  | nil => exact h
  | cons erased names ih => exact Std.ExtTreeMap.mem_of_mem_erase (ih h)

variable (seat : Seat)

def runLog (source : String) : Act.Log (δ := δ) seat (run source seat) :=
  .look (fun s t h => by rw [h.settings]) fun s =>
    match hcompile : s.settings.machine.code.compile source with
    | .error _ => .pure _
    | .ok _ =>
        .bind ⟨_, .runProgram (CodeSettings.leavesOne_of_compile hcompile)⟩ fun
          | .error _ => .pure _
          | .ok _ => .pure _

def renderLog (name : String) : Act.Log (δ := δ) seat (render name seat) :=
  .bind ⟨_, .pickTemplate name⟩ fun
    | none => .pure _
    | some text => .look (fun s t h => by rw [h.settings]) fun s =>
        match hcompile : s.settings.machine.code.compileTemplate text with
        | .error _ => .pure _
        | .ok _ =>
            .bind ⟨_, .runProgram (CodeSettings.leavesOne_of_compileTemplate hcompile)⟩ fun
              | .error _ => .pure _
              | .ok _ => .pure _

/-- A transient variable is set for a template to speak of. -/
def setTransientRenderLog (variableName : String) (value : Value) (name : String) :
    Act.Log (δ := δ) seat (do
      setTransient variableName value
      render name seat) :=
  .bind (.setTransient variableName value) fun _ => renderLog seat name

/-! ### Rolling -/

def firstRollLog (x : Invocation) : Act.Log (δ := δ) seat (firstRoll x seat) :=
  .look (fun s t h => by rw [h.settings]) fun s =>
    .bind (runLog seat _) fun _ => .ite (.bind (runLog seat _) fun _ => .pure _) (.pure _)

def runTimesLog (source : String) : (n : Nat) → Act.Log (δ := δ) seat (runTimes source seat n)
  | 0 => .pure _
  | n + 1 => .bind (runLog seat source) fun
    | .error _ => .pure _
    | .ok _ => .bind (runTimesLog source n) fun
      | .error _ => .pure _
      | .ok _ => .pure _

def rollFailedLog (fault : Fault) : Act.Log (δ := δ) seat (rollFailed fault seat) :=
  setTransientRenderLog seat _ _ _

/-- The same steps follow whether or not a reason was given. -/
def shownLog {p : Prop} [Decidable p] {name name' name'' once often : String}
    {value value' value'' : Value} : Act.Log (δ := δ) seat (do
      setTransient name value
      setTransient name' value'
      if p then render once seat
      else do
        setTransient name'' value''
        render often seat) :=
  .bind (.setTransient name value) fun _ => .bind (.setTransient name' value') fun _ =>
    .ite (renderLog seat once) (setTransientRenderLog seat name'' value'' often)

def rollSucceededLog (plan : RollPlan) (times : Nat) (outcomes : List Outcome) :
    Act.Log (δ := δ) seat (rollSucceeded plan times outcomes seat) :=
  .ite (.bind (.pure "") fun _ => shownLog seat)
    (.bind (.setTransient _ _) fun _ => .bind (renderLog seat _) fun _ => shownLog seat)

def rollLog (x : Invocation) : Act.Log (δ := δ) seat (roll x seat) :=
  .look (fun s t h => by rw [h.settings]) fun _ =>
    .ite (setTransientRenderLog seat _ _ _) <| .bind (firstRollLog seat x) fun
      | (_, .error fault) => rollFailedLog seat fault
      | (_, .ok _) => .bind (runTimesLog seat _ _) fun
        | .error fault => rollFailedLog seat fault
        | .ok _ => .bind (rollSucceededLog seat _ _ _) fun _ => .pure _

/-! ### Attributes -/

def showAttributesLog (names : List String) :
    Act.Log (δ := δ) seat (showAttributes names seat) :=
  .look (fun s t h => by rw [h.seatMap]) fun _ =>
    .ite (renderLog seat _) (setTransientRenderLog seat _ _ _)

def deleteAttributesLog (names : List String) :
    Act.Log (δ := δ) seat (deleteAttributes names seat) :=
  .restrict (fun vars => (eraseNames names vars).2) (fun _ _ => mem_of_mem_eraseNames) fun vars =>
    setTransientRenderLog seat "$tResultText"
      (.text (String.intercalate " " (eraseNames names vars).1)) "core:stDeleted"

def clearAttributesLog : Act.Log (δ := δ) seat (clearAttributes seat) :=
  .restrict (fun _ => ∅) (fun _ _ hname => absurd hname Std.ExtTreeMap.not_mem_empty) fun vars =>
    setTransientRenderLog seat "$tCount" (.int (attributeCount vars)) "core:stCleared"

def recordEntriesLog : (entries : List AttributeEntry) →
    Act.Log (δ := δ) seat (recordEntries seat entries)
  | [] => .pure _
  | entry :: entries => .bind (runLog seat entry.source) fun
    | .error _ => .pure _
    | .ok _ => .look (fun s t h => by rw [h.aliases]) fun _ =>
      .bind (recordEntriesLog entries) fun
        | .error _ => .pure _
        | .ok _ => .pure _

def recordAttributesLog (entries : List AttributeEntry) :
    Act.Log (δ := δ) seat (recordAttributes entries seat) :=
  .bind (recordEntriesLog seat entries) fun
    | .ok _ => setTransientRenderLog seat _ _ _
    | .error (_, _) => .bind (.setTransient _ _) fun _ => setTransientRenderLog seat _ _ _

def attributesLog (x : Invocation) : Act.Log (δ := δ) seat (attributes x seat) :=
  .look (fun s t h => by rw [h.aliases]) fun _ =>
    .ite (showAttributesLog seat _) <| .ite (deleteAttributesLog seat _) <|
      .ite (clearAttributesLog seat) <|
        match AttributeEntry.all ((x.chop? subCommands).getD x).cleanText.toList with
        | [] => .pure _
        | _ :: _ => recordAttributesLog seat _

/-! ### Messages -/

def carryOutLog (x : Invocation) : Act.Log (δ := δ) seat (carryOut x seat) := by
  unfold carryOut
  split
  · exact .map some (rollLog seat x)
  · exact .map some (rollLog seat x)
  · exact .map some (rollLog seat x)
  · exact .map some (attributesLog seat x)
  · exact .pure _
  · exact .pure _

def answerLog (message : Message) : Act.Log (δ := δ) message.seat (answer message) :=
  .look (fun s t h => by rw [h.settings]) fun s =>
    match invocation? s.settings message with
    | none => .pure _
    | some x =>
        .bind (.setTransient _ _) fun _ => .bind (carryOutLog message.seat x) fun _ =>
          .bind ⟨_, .clearTransient⟩ fun _ => .pure _

/-- The names that the answer to a message draws templates for, in the order of the draws. -/
def drawn (message : Message) (s : Bot δ) : List String := (answerLog message).names s

-- the refusal of too many rolls speaks of the bot by a name that is a template itself
example : drawn { text := ".100#r" } (ofSeed {} 7) = ["core:rollTooMany", "core:botName"] := by
  decide +kernel

def evaluateLog (source : String) (message : Message) :
    Act.Log (δ := δ) message.seat (evaluate source message) :=
  .bind (runLog message.seat source) fun _ => .bind ⟨_, .clearTransient⟩ fun _ => .pure _

end Bot

end DiceBot
