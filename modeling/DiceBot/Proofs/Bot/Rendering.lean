import DiceBot.Proofs.Bot.FixedTemplates
import DiceBot.Proofs.Expr.Holes
import DiceBot.Proofs.Machine.ComputedBase
import DiceBot.Proofs.Machine.TreeEvaluation
import DiceBot.Proofs.Memory.Owners
import DiceBot.Proofs.Memory.Tiers

/-!
# Replies from templates

A program of a tree, run at a seat, comes to what the tree comes to in the world of that seat
(`Bot.runProgram_of_ok`, `Bot.runProgram_of_error`), and what it leaves is what the next command at
the seat sees (`Bot.vars_world_keep`).

A table that has the reply templates and no others (`TemplateTable.OnlyReplies`) has one text to draw
for most of them. A text whose placeholders are transient variables is filled with what these hold
(`Bot.render_of_variables`), so the reply is told from the literals of the text
(`Bot.render_of_hasText`).
-/

namespace DiceBot

/-! ## Tables of reply templates -/

namespace TemplateTable

/-- The table has the reply templates with their candidates, and perhaps others. -/
def HasReplies (table : TemplateTable) : Prop :=
  ∀ entry ∈ Replies.builtin, table.get? entry.1 = some entry.2

theorem OnlyReplies.hasReplies {table : TemplateTable} (h : table.OnlyReplies) :
    table.HasReplies := by
  have hlookup : ∀ entry ∈ Replies.builtin, Replies.builtin.lookup entry.1 = some entry.2 := by
    decide
  exact fun entry hentry => (h entry.1).trans (hlookup entry hentry)

theorem HasReplies.get? {table : TemplateTable} (h : table.HasReplies) {name : String}
    {candidates : List Candidate} (hlookup : Replies.builtin.lookup name = some candidates) :
    table.get? name = some candidates := by
  obtain ⟨front, back, hbuiltin, -⟩ := List.lookup_eq_some_iff.mp hlookup
  exact h (name, candidates) (by rw [hbuiltin]; simp)

theorem HasReplies.congr {table table' : TemplateTable} (h : table.HasReplies)
    (hcandidates : table'.candidates = table.candidates) : table'.HasReplies := by
  intro entry hentry
  rw [TemplateTable.get?, hcandidates]
  exact h entry hentry

variable {table : TemplateTable} {name : String}

theorem OnlyReplies.pick (h : table.OnlyReplies) (name : String) :
    (table.pick name).2.OnlyReplies := by
  intro other
  rw [get?, candidates_pick]
  exact h other

theorem pick_of_single {text : String} (h : table.get? name = some [⟨text, 1⟩]) :
    (table.pick name).1 = some text := by
  have hfixed : table.Fixed name := by
    rw [Fixed, h]
    exact Nat.le_refl 1
  rw [pick_fst_of_fixed hfixed, h]
  rfl

/-- The names of all reply templates have a colon. -/
theorem OnlyReplies.pick_of_not_mem (h : table.OnlyReplies) (hname : ':' ∉ name.toList) :
    table.pick name = (none, table) := by
  have hcolon : ∀ entry ∈ Replies.builtin, ':' ∈ entry.1.toList := by decide
  have hnone : table.get? name = none := by
    rw [h name]
    refine List.lookup_eq_none_iff.mpr fun entry hentry => bne_iff_ne.mpr ?_
    rintro rfl
    exact hname (hcolon entry hentry)
  unfold TemplateTable.pick
  rw [hnone]
  rfl

end TemplateTable

/-- A filled template shows the values between its literals, whatever these values are. -/
theorem Value.toList_display_filled {text : String} {literals : List (List Char)}
    {values : List Value}
    (hliterals : literalsAround? (placeholderTexts text) text.toList = some literals)
    (hlength : values.length = (placeholderTexts text).length) :
    (Value.filled text (placeholderTexts text) values).display.toList =
      Pattern.splice literals (values.map (·.display.toList)) := by
  rw [Value.filled, Value.display, String.toList_ofList, fillTemplate_of_literals hliterals hlength]

namespace Replies

/-- The reply has a single text, in which the named variables stand between the literals. -/
structure HasText (reply text : String) (names : List String) (literals : List (List Char)) :
    Prop where
  lookup : builtin.lookup reply = some [⟨text, 1⟩]
  parse : Expr.parseTemplate text = .ok (.template text (names.map .variable))
  literalsAround : literalsAround? (placeholderTexts text) text.toList = some literals
  length : names.length = (placeholderTexts text).length

theorem HasText.display_filled {reply text shown : String} {names : List String}
    {literals : List (List Char)} {values : List Value} (h : HasText reply text names literals)
    (hlength : values.length = names.length)
    (hshown : shown.toList = Pattern.splice literals (values.map (·.display.toList))) :
    (Value.filled text (placeholderTexts text) values).display = shown := by
  refine String.toList_inj.mp ?_
  rw [Value.toList_display_filled h.literalsAround (hlength.trans h.length), hshown]

end Replies

/-! ## Acts -/

/-- A sequence goes on with what its first part gives, in the state that it leaves. -/
theorem Act.bind_of_eq {δ α β : Type} {x : Act δ α} {f : α → Act δ β} {s t : Bot δ} {a : α}
    (h : x s = (a, t)) : (x >>= f) s = f a t := by
  show f (x s).1 (x s).2 = _
  rw [h]

theorem Act.map_of_eq {δ α β : Type} {x : Act δ α} (f : α → β) {s t : Bot δ} {a : α}
    (h : x s = (a, t)) : (f <$> x) s = (f a, t) := by
  show (f (x s).1, (x s).2) = _
  rw [h]

namespace Bot

variable {δ : Type}

theorem get_eq (s : Bot δ) : (get : Act δ (Bot δ)) s = (s, s) := rfl

theorem setTransient_eq (s : Bot δ) (name : String) (value : Value) :
    setTransient name value s = ((), { s with transient := s.transient.insert name value }) := rfl

/-- The answer to a command is what carrying it out gives. The name of the sender is set before,
and all transient variables are forgotten in the end. -/
theorem answer_of_carryOut [DiceSource δ] {s t : Bot δ} {message : Message} {x : Invocation}
    {reply : Option String} (hx : invocation? s.settings message = some x)
    (hcarry : carryOut x message.seat
      { s with transient := s.transient.insert "$tPlayer" (.text message.name) } = (reply, t)) :
    answer message s = (reply, { t with transient := ∅ }) := by
  unfold answer
  rw [Act.bind_of_eq (get_eq s), hx]
  dsimp only
  rw [Act.bind_of_eq (setTransient_eq s "$tPlayer" (.text message.name)), Act.bind_of_eq hcarry]
  rfl

/-! ## Worlds -/

/-- What a run leaves is what is seen at the seat from then on, if it has not changed what commands
cannot change. -/
theorem vars_world_keep (s : Bot δ) (seat : Seat) {w : World δ Scoped}
    (haliases : w.vars.aliases = s.aliases)
    (hlegacy : w.vars.legacy = (s.world seat).vars.legacy) :
    ((s.keep seat w).world seat).vars = w.vars := by
  have hlegacy' : (s.records.keep seat w.vars).legacy[seat.player]?.getD ∅ = w.vars.legacy := by
    rw [Records.legacy_keep, hlegacy]
    rfl
  show (s.records.keep seat w.vars).scopedAt seat w.vars.transient s.aliases w.vars.templates =
    w.vars
  rw [Records.scopedAt, Records.playerMap?_keep, Records.groupMap?_keep, Records.seatMap,
    Records.seatMap?_keep, hlegacy', ← haliases]
  rfl

variable [DiceSource δ] {s : Bot δ} {seat : Seat} {e : Expr} {v : Value} {w : World δ Scoped}

theorem runProgram_of_ok (he : e.Complete) (hfits : e.size + 1 ≤ s.settings.capacity)
    (h : e.value s.settings.machine s.settings.machine.load s.settings.usualSides false
      (s.world seat) = .ok v w) :
    ∃ result, result.value = v ∧ runProgram seat (e.program s.settings.machine.code) s =
      (.ok result, s.keep seat w) := by
  have hmap := Machine.map_value_evaluate_program (m := s.settings.machine) he hfits (s.world seat)
  obtain ⟨result, hresult, hvalue⟩ := Eval.ok_of_map (hmap.trans h)
  refine ⟨result, hvalue, ?_⟩
  unfold runProgram EStateM.run
  rw [hresult]

theorem runProgram_of_error {fault : Fault} (he : e.Complete)
    (hfits : e.size + 1 ≤ s.settings.capacity)
    (h : e.value s.settings.machine s.settings.machine.load s.settings.usualSides false
      (s.world seat) = .error fault w) :
    runProgram seat (e.program s.settings.machine.code) s = (.error fault, s.keep seat w) := by
  have hmap := Machine.map_value_evaluate_program (m := s.settings.machine) he hfits (s.world seat)
  unfold runProgram EStateM.run
  rw [Eval.error_of_map (hmap.trans h)]

/-! ## Filling templates -/

/-- Each of the names is a transient variable with its value, which is not evaluated. -/
def Holds (vars : VariableMap) (entries : List (String × Value)) : Prop :=
  ∀ entry ∈ entries, Tier.ofName entry.1 = .transient ∧ vars[entry.1]? = some entry.2 ∧
    entry.2.isComputed = false

namespace Holds

variable {vars : VariableMap} {entries : List (String × Value)} {name : String} {value : Value}

theorem nil (vars : VariableMap) : Holds vars [] := fun _ h => absurd h List.not_mem_nil

theorem cons (h : Holds vars entries) (htier : Tier.ofName name = .transient)
    (hget : vars[name]? = some value) (hplain : value.isComputed = false) :
    Holds vars ((name, value) :: entries) :=
  List.forall_mem_cons.mpr ⟨⟨htier, hget, hplain⟩, h⟩

/-- What is set is held, and what was held under other names still is. -/
theorem insert (h : Holds vars entries) (htier : Tier.ofName name = .transient)
    (hplain : value.isComputed = false) (hother : ∀ entry ∈ entries, entry.1 ≠ name) :
    Holds (vars.insert name value) ((name, value) :: entries) := by
  refine cons (fun entry hentry => ?_) htier Std.ExtTreeMap.getElem?_insert_self hplain
  rw [Records.getElem?_insert_map, if_neg (hother entry hentry)]
  exact h entry hentry

theorem mono {entries' : List (String × Value)} (h : Holds vars entries)
    (hsubset : ∀ entry ∈ entries', entry ∈ entries) : Holds vars entries' :=
  fun entry hentry => h entry (hsubset entry hentry)

/-- Variables that are set one after the other are held in this order. -/
theorem insert_last (h : Holds vars entries) (htier : Tier.ofName name = .transient)
    (hplain : value.isComputed = false) (hother : ∀ entry ∈ entries, entry.1 ≠ name) :
    Holds (vars.insert name value) (entries ++ [(name, value)]) := by
  refine (h.insert htier hplain hother).mono fun entry hentry => ?_
  rwa [List.mem_append, List.mem_singleton, or_comm, ← List.mem_cons] at hentry

theorem player (hget : vars["$tPlayer"]? = some value) (hplain : value.isComputed = false) :
    Holds vars [("$tPlayer", value)] :=
  (nil vars).cons (by decide) hget hplain

end Holds

theorem values_of_holds {entries : List (String × Value)} (h : Holds w.vars.transient entries)
    (m : Machine) (usual : Int64) :
    Expr.values m m.load usual false (entries.map fun entry => .variable entry.1) w =
      .ok (entries.map Prod.snd) w := by
  induction entries with
  | nil => rfl
  | cons entry entries ih =>
    obtain ⟨⟨htier, hvalue, hplain⟩, hmore⟩ := List.forall_mem_cons.mp h
    have hget : Variables.get? w.vars entry.1 = some entry.2 :=
      (Scoped.get?_of_transient htier _).trans hvalue
    have hload : m.load entry.1 w = .ok entry.2 w := Machine.resolve_of_get? _ hplain hget
    rw [List.map_cons, Expr.values, Expr.value, Eval.bind_of_ok hload, Eval.bind_of_ok (ih hmore)]
    rfl

theorem sizeOfParts_variables (entries : List (String × Value)) :
    Expr.sizeOfParts (entries.map fun entry => .variable entry.1) = entries.length := by
  induction entries with
  | nil => rfl
  | cons entry entries ih =>
    rw [List.map_cons, Expr.sizeOfParts, ih, Expr.size, List.length_cons, Nat.add_comm]

/-- A drawn template is filled with the transient variables that it names. -/
theorem render_of_variables {name text : String} {entries : List (String × Value)}
    (hpick : (s.templates.pick name).1 = some text)
    (hparse : Expr.parseTemplate text =
      .ok (.template text (entries.map fun entry => .variable entry.1)))
    (hcapacity : entries.length + 2 ≤ s.settings.capacity) (h : Holds s.transient entries) :
    let drawn : Bot δ := { s with templates := (s.templates.pick name).2 }
    render name seat s = ((Value.filled text (placeholderTexts text)
      (entries.map Prod.snd)).display, drawn.keep seat (drawn.world seat)) := by
  intro drawn
  have hcomplete := Expr.complete_of_parseTemplate hparse
  have hfits : (Expr.template text (entries.map fun entry => .variable entry.1)).size + 1 ≤
      drawn.settings.capacity := by
    rw [Expr.size, sizeOfParts_variables]
    exact hcapacity
  -- the parts are variables that are held, so filling the template needs nothing else
  have hvalues := values_of_holds (w := drawn.world seat) h drawn.settings.machine
    drawn.settings.usualSides
  have hvalue : (Expr.template text (entries.map fun entry => .variable entry.1)).value
      drawn.settings.machine drawn.settings.machine.load drawn.settings.usualSides false
      (drawn.world seat) = .ok (.filled text (placeholderTexts text) (entries.map Prod.snd))
        (drawn.world seat) := by
    rw [Expr.value, Eval.bind_of_ok hvalues]
    rfl
  obtain ⟨result, hresult, hrun⟩ := runProgram_of_ok hcomplete hfits hvalue
  have hdrawn : pickTemplate name s = (some text, drawn) := by
    rw [← hpick]
    rfl
  have hcompile : drawn.settings.machine.code.compileTemplate text =
      .ok ((Expr.template text (entries.map fun entry => .variable entry.1)).program
        drawn.settings.machine.code) :=
    CodeSettings.programOf_eq_ok_iff.mpr ⟨_, hparse, rfl⟩
  unfold render
  rw [Act.bind_of_eq hdrawn]
  dsimp only
  rw [Act.bind_of_eq (get_eq drawn), hcompile]
  dsimp only
  rw [Act.bind_of_eq hrun, ← hresult]
  rfl

/-- A reply with a single text shows what its variables hold between the literals. -/
theorem render_of_hasText {reply text shown : String} {literals : List (List Char)}
    {entries : List (String × Value)}
    (htext : Replies.HasText reply text (entries.map Prod.fst) literals)
    (hget : s.templates.get? reply = Replies.builtin.lookup reply)
    (hcapacity : entries.length + 2 ≤ s.settings.capacity) (hholds : Holds s.transient entries)
    (hshown : shown.toList = Pattern.splice literals (entries.map (·.2.display.toList))) :
    let drawn : Bot δ := { s with templates := (s.templates.pick reply).2 }
    render reply seat s = (shown, drawn.keep seat (drawn.world seat)) := by
  intro drawn
  have hpick : (s.templates.pick reply).1 = some text :=
    TemplateTable.pick_of_single (hget.trans htext.lookup)
  have hparse := htext.parse
  rw [List.map_map] at hparse
  have hdisplay : (Value.filled text (placeholderTexts text) (entries.map Prod.snd)).display =
      shown := by
    refine htext.display_filled (by rw [List.length_map, List.length_map]) ?_
    rw [hshown, List.map_map]
    rfl
  rw [render_of_variables hpick hparse hcapacity hholds, hdisplay]

end Bot

end DiceBot
