import DiceBot.Proofs.Bot.AttributeRun
import DiceBot.Proofs.Bot.Cards
import DiceBot.Proofs.Code.Capacity
import DiceBot.Proofs.Expr.Spelling

/-!
# Integers of older records

An integer of the older records is kept under the name that it is written under, and stays there
whatever else happens (`Bot.getElem?_legacyMap_afterAll`). A name is looked up there by its canonical
form (`Scoped.legacy?_of_seat`). So what a name of the seat tier reads as, if no variable is stored
under it, is the integer that the older records of the player hold under its canonical form
(`Bot.evaluate_after_legacy`). What is written under a name that stands for another one is not found
under either of them (`Bot.not_evaluate_after_legacy`).
-/

namespace DiceBot

open Text

/-! ## A name as a source -/

theorem sentence_of_isName {name : List Char} (h : IsName name) :
    sentence name = [.name (String.ofList name)] := by
  have hblank : ∀ c ∈ ([] : List Char), isBlank c = true := nofun
  have hnothing : Ends [] := by simp [Ends]
  have hkinds := map_kind_tokenize_of_readsAs hblank (Lexeme.readsAs_name h) hnothing 0
  rw [List.append_nil, List.nil_append] at hkinds
  rw [sentence, hkinds]
  rfl

theorem Expr.parse_of_isName {name : String} (h : IsName name.toList) :
    Expr.parse name = .ok (.variable name) := by
  rw [Grammar.parse_eq_ok_iff, sentence_of_isName h, String.ofList_toList]
  exact .expression (.ofSum (.ofProduct (.ofSigned (.ofPower (.ofDice (.ofPrimary (.name name)))))))

/-! ## What the older records hold -/

theorem Records.getElem?_legacyMap_setLegacy (r : Records) (player written : String) (n : Int64)
    (other key : String) : ((r.setLegacy player written n).legacyMap other)[key]? =
      if other = player ∧ key = written then some n else (r.legacyMap other)[key]? := by
  by_cases hother : other = player
  · subst hother
    rw [legacyMap, setLegacy, Std.ExtTreeMap.getElem?_insert_self, Option.getD_some,
      getElem?_insert_map]
    simp only [true_and]
    rfl
  · rw [if_neg fun h => hother h.1, legacyMap, setLegacy, getElem?_insert_map, if_neg hother]
    rfl

namespace Bot

variable {δ : Type} [DiceSource δ] {s : Bot δ} {player key : String}

/-- An integer of the older records stays until one is written under the same name. -/
theorem getElem?_legacyMap_after {event : Event} (h : ∀ k, event ≠ .legacy player key k) :
    ((s.after event).records.legacyMap player)[key]? = (s.records.legacyMap player)[key]? := by
  have hseat : event.seat?.isSome →
      ((s.after event).records.legacyMap player)[key]? = (s.records.legacyMap player)[key]? := by
    intro hseat
    rw [Records.legacyMap, Records.legacyMap, (aliases_legacy_after hseat).2]
  cases event with
  | message | evaluation | bind | unbind => exact hseat rfl
  | legacy other written k =>
    have hother : ¬(player = other ∧ key = written) := fun ⟨hplayer, hkey⟩ =>
      h k (hplayer ▸ hkey ▸ rfl)
    exact (s.records.getElem?_legacyMap_setLegacy other written k player key).trans (if_neg hother)
  | templates | aliases => rfl

theorem getElem?_legacyMap_afterAll {events : List Event}
    (h : ∀ k, .legacy player key k ∉ events) :
    ((s.afterAll events).records.legacyMap player)[key]? = (s.records.legacyMap player)[key]? := by
  induction events generalizing s with
  | nil => rfl
  | cons event events ih =>
    have hfirst : ∀ k, event ≠ .legacy player key k := fun k heq =>
      h k (heq ▸ List.mem_cons_self)
    have hrest : ∀ k, .legacy player key k ∉ events := fun k hmem =>
      h k (List.mem_cons_of_mem event hmem)
    exact (ih hrest).trans (getElem?_legacyMap_after hfirst)

end Bot

/-! ## Looking an integer up -/

namespace Machine

variable {δ γ : Type} [DiceSource δ] [Variables γ] {name : String} {w : World δ γ}

/-- An integer of the older records is read where no variable is stored. -/
theorem load_of_legacy? (m : Machine) {n : Int64} (hget : Variables.get? w.vars name = none)
    (hlegacy : Variables.legacy? w.vars name = some n) : m.load name w = .ok (.int n) w := by
  have hlookUp : lookUp (m.expand m.limits.maxDepth) name w = .ok (.int n) w := by
    simp only [lookUp, hget, hlegacy]
  rw [load, resolve_eq, Eval.bind_of_ok hlookUp]
  rfl

/-- A name that stands for nothing reads as a text that says so. -/
theorem load_of_undefined (m : Machine) {vars : γ} (hget : Variables.get? w.vars name = none)
    (hlegacy : Variables.legacy? w.vars name = none)
    (htemplate : Variables.template? w.vars name = (none, vars)) :
    m.load name w = .ok (.text (undefinedText name)) { w with vars } := by
  have hlookUp : lookUp (m.expand m.limits.maxDepth) name w =
      .ok (.text (undefinedText name)) { w with vars } := by
    simp only [lookUp, hget, hlegacy, htemplate]
  rw [load, resolve_eq, Eval.bind_of_ok hlookUp]
  rfl

end Machine

/-! ## Evaluating a name -/

namespace Bot

variable {δ : Type} [DiceSource δ] {s : Bot δ} {message : Message} {name : String}

theorem fst_evaluate_of_compile {source : String} {p : Program}
    (h : s.settings.machine.code.compile source = .ok p) :
    (evaluate source message s).1 = (runProgram message.seat p s).1 := by
  unfold evaluate run
  rw [bind_assoc, Act.bind_of_eq (get_eq s), h]
  dsimp only
  rcases hrun : runProgram message.seat p s with ⟨result, t⟩
  rw [bind_assoc, Act.bind_of_eq hrun]
  cases result <;> rfl

theorem fst_runProgram_of_fault? {p : Program} {fault : Fault} (h : p.fault? = some fault)
    (seat : Seat) (s : Bot δ) : (runProgram seat p s).1 = .error fault := by
  have hrun : s.settings.machine.evaluate p (s.world seat) =
      .error fault { s.world seat with charged := 0 } := by
    unfold Machine.evaluate Machine.runProgram
    rw [Eval.modify_bind, h]
    rfl
  unfold runProgram EStateM.run
  rw [hrun]

omit [DiceSource δ] in
theorem compile_of_isName (h : IsName name.toList) (s : Bot δ) :
    s.settings.machine.code.compile name =
      .ok ((Expr.variable name).program s.settings.machine.code) :=
  CodeSettings.programOf_eq_ok_iff.mpr ⟨_, Expr.parse_of_isName h, rfl⟩

/-- Evaluating a name is loading it. -/
theorem evaluate_of_load (h : IsName name.toList) (hcapacity : 2 ≤ s.settings.capacity)
    {value : Value} {w : World δ Scoped}
    (hload : s.settings.machine.load name (s.world message.seat) = .ok value w) :
    (evaluate name message s).1.map Evaluation.value = .ok value := by
  obtain ⟨result, hvalue, hrun⟩ := runProgram_of_ok (e := .variable name)
    (Expr.complete_of_parse (Expr.parse_of_isName h)) hcapacity hload
  rw [fst_evaluate_of_compile (compile_of_isName h s), hrun]
  exact congrArg Except.ok hvalue

/-- The program that reads a name has two instructions. -/
theorem evaluate_of_capacity_lt (h : IsName name.toList) (hcapacity : s.settings.capacity < 2) :
    (evaluate name message s).1 = .error ⟨.programOverflow s.settings.capacity, none⟩ := by
  have hfault : ((Expr.variable name).program s.settings.machine.code).fault? =
      some ⟨.programOverflow s.settings.capacity, none⟩ :=
    (Program.fault?_emitAll_empty _ [.load name, .halt]).trans (if_pos hcapacity)
  rw [fst_evaluate_of_compile (compile_of_isName h s), fst_runProgram_of_fault? hfault]

/-- The integers of older records are reached under canonical names. If no variable is stored at the
seat under an unprefixed name, evaluating the name gives the integer that has been written under its
canonical form, whatever has happened since, unless another one has been written there. What has been
written under any other name has no part in it, even if this is the name itself: then it gives the
integer that the records have held under its canonical form before, or, if there is none and no
template has the name, the text that says that it is undefined. A program that reads a name needs
room for two instructions. -/
theorem evaluate_after_legacy (s : Bot δ) (written : String) (n : Int64) (events : List Event)
    (message : Message) {name : String} (hname : IsName name.toList)
    (htier : Tier.ofName name = .seat) :
    let t := (s.after (.legacy message.sender written n)).afterAll events
    let canonical := t.aliases.canonicalize name
    let before := (s.records.legacyMap message.sender)[canonical]?
    let result := (evaluate name message t).1.map Evaluation.value
    (∀ k, .legacy message.sender canonical k ∉ events) →
    (t.records.seatMap message.seat)[canonical]? = none →
    (2 ≤ t.settings.capacity →
      (canonical = written → result = .ok (.int n)) ∧
      (canonical ≠ written → ∀ k, before = some k → result = .ok (.int k)) ∧
      (canonical ≠ written → before = none → (t.templates.pick name).1 = none →
        result = .ok (.text (undefinedText name)))) ∧
    (t.settings.capacity < 2 →
      result = .error ⟨.programOverflow t.settings.capacity, none⟩) := by
  intro t canonical before result hevents hfree
  have hget : Variables.get? (t.world message.seat).vars name = none :=
    (Scoped.get?_of_seat htier _).trans hfree
  have hlegacy : Variables.legacy? (t.world message.seat).vars name =
      if canonical = written then some n else before := by
    calc Variables.legacy? (t.world message.seat).vars name
        = (t.records.legacyMap message.sender)[canonical]? := Scoped.legacy?_of_seat htier _
      _ = ((s.records.setLegacy message.sender written n).legacyMap message.sender)[canonical]? :=
          getElem?_legacyMap_afterAll hevents
      _ = if canonical = written then some n else before := by
          simp only [Records.getElem?_legacyMap_setLegacy, true_and]
          rfl
  refine ⟨fun hcapacity => ⟨fun hwritten => ?_, fun hwritten k hbefore => ?_,
    fun hwritten hbefore htemplate => ?_⟩, fun hcapacity => ?_⟩
  · rw [if_pos hwritten] at hlegacy
    exact evaluate_of_load hname hcapacity (Machine.load_of_legacy? _ hget hlegacy)
  · rw [if_neg hwritten, hbefore] at hlegacy
    exact evaluate_of_load hname hcapacity (Machine.load_of_legacy? _ hget hlegacy)
  · rw [if_neg hwritten, hbefore] at hlegacy
    -- the stream of the templates may have moved on
    have hpick : Variables.template? (t.world message.seat).vars name =
        (none, ((t.world message.seat).vars.template? name).2) :=
      Prod.ext htemplate rfl
    exact evaluate_of_load hname hcapacity (Machine.load_of_undefined _ hget hlegacy hpick)
  · show Except.map _ _ = _
    rw [evaluate_of_capacity_lt hname hcapacity]
    rfl

/-- An integer is found under an alias that is registered later. -/
theorem evaluate_after_legacy_alias :
    let s : Bot ScriptedDice := start {} ⟨[]⟩ 8
    let message : Message := { text := ".st dex 5", sender := "QQ:1" }
    let events : List Event := [.message message, .aliases "hp" ["HitPoints"]]
    let t := (s.after (.legacy message.sender "hp" 60)).afterAll events
    (evaluate "HitPoints" message t).1.map Evaluation.value = .ok (.int 60) := by
  intro s message events t
  have hcanonical : t.aliases.canonicalize "HitPoints" = "hp" := by decide +kernel
  have hlater : ∀ k, .legacy message.sender (t.aliases.canonicalize "HitPoints") k ∉ events := by
    intro k hmem
    simp [events] at hmem
  have hfree : (t.records.seatMap message.seat)[t.aliases.canonicalize "HitPoints"]? = none := by
    decide +kernel
  have hcapacity : 2 ≤ t.settings.capacity := by decide +kernel
  exact ((evaluate_after_legacy s "hp" 60 events message (by decide) (by decide) hlater hfree).1
    hcapacity).1 hcanonical

/-- What is written under an alias is not found, and what is written under the name is found only if
the program that reads it has room. -/
theorem not_evaluate_after_legacy :
    (¬∀ (s : Bot ScriptedDice) (name : String) (n : Int64) (message : Message),
      IsName name.toList → Tier.ofName name = .seat → 2 ≤ s.settings.capacity →
      (s.records.seatMap message.seat)[s.aliases.canonicalize name]? = none →
      (evaluate name message (s.after (.legacy message.sender name n))).1.map Evaluation.value =
        .ok (.int n)) ∧
    (¬∀ (s : Bot ScriptedDice) (name : String) (n : Int64) (message : Message),
      IsName name.toList → Tier.ofName name = .seat → s.aliases.canonicalize name = name →
      (s.records.seatMap message.seat)[name]? = none →
      (evaluate name message (s.after (.legacy message.sender name n))).1.map Evaluation.value =
        .ok (.int n)) := by
  constructor
  · intro hreached
    let s : Bot ScriptedDice := (start {} ⟨[]⟩ 8).after (.aliases "hp" ["HitPoints"])
    have hlost : (evaluate "HitPoints" { text := "" } (s.after (.legacy "" "HitPoints" 60))).1.map
        Evaluation.value = .ok (.text (undefinedText "HitPoints")) := by decide +kernel
    have hfound := hreached s "HitPoints" 60 { text := "" } (by decide) (by decide)
      (by decide +kernel) (by decide +kernel)
    rw [hlost] at hfound
    cases hfound
  · intro hreached
    let s : Bot ScriptedDice := start { capacity := 1 } ⟨[]⟩ 8
    have hrefused : (evaluate "hp" { text := "" } (s.after (.legacy "" "hp" 60))).1.map
        Evaluation.value = .error ⟨.programOverflow 1, none⟩ := by decide +kernel
    have hfound := hreached s "hp" 60 { text := "" } (by decide) (by decide)
      (by decide +kernel) (by decide +kernel)
    rw [hrefused] at hfound
    cases hfound

end Bot

end DiceBot
