import DiceBot.Proofs.Bot.Conversation
import DiceBot.Proofs.Bot.Rendering
import DiceBot.Proofs.Expr.AttributeSource

/-!
# One attribute entry

What a plain entry does to the map of a seat, said without source, code or machine: the attribute
reads as what `attributeValue` says, and gets the value that `AttributeEntry.newValue` makes of it.
The source of the entry, run at the seat, does just that (`Bot.run_of_newValue_ok`), and if there is
no new value it changes nothing (`Bot.run_of_newValue_error`).
-/

namespace DiceBot

/-- What an attribute reads as at a seat with the map `vars`: what is stored under its canonical name,
else the integer of an older record, else a text saying that it is undefined. -/
def attributeValue (aliases : Aliases) (legacy : LegacyMap) (vars : VariableMap) (name : String) :
    Value :=
  match vars[aliases.canonicalize name]? with
  | some value => value
  | none =>
      match legacy[aliases.canonicalize name]? with
      | some n => .int n
      | none => .text (undefinedText name)

namespace AttributeEntry

/-- An integer changed within 64 bits. What is no integer cannot be changed. -/
def changed (sign : String) (change : Int → Int) : Value → Except Cause Int64
  | .int a =>
      match Checked.ofInt? (change a.toInt) with
      | some n => .ok n
      | none => .error (.arithmeticOverflow sign)
  | value => .error (.typeMismatch sign .int value.kind)

/-- The value that an entry gives an attribute which reads as `old`. -/
def newValue (entry : AttributeEntry) (old : Value) : Except Cause Int64 :=
  match entry.operator with
  | some '+' => changed "+" (· + entry.number.toInt) old
  | some '-' => changed "-" (· - entry.number.toInt) old
  | _ => .ok entry.number

end AttributeEntry

/-- No value of the map is evaluated when it is read. -/
def HoldsPlain (vars : VariableMap) : Prop :=
  ∀ (key : String) (value : Value), vars[key]? = some value → value.isComputed = false

theorem HoldsPlain.insert {vars : VariableMap} (h : HoldsPlain vars) (key : String) (n : Int64) :
    HoldsPlain (vars.insert key (.int n)) := by
  intro other value hvalue
  rw [Records.getElem?_insert_map] at hvalue
  split at hvalue
  · rw [← Option.some.inj hvalue]
    rfl
  · exact h other value hvalue

theorem HoldsPlain.attributeValue {vars : VariableMap} (h : HoldsPlain vars) (aliases : Aliases)
    (legacy : LegacyMap) (name : String) :
    (attributeValue aliases legacy vars name).isComputed = false := by
  unfold DiceBot.attributeValue
  cases hseat : vars[aliases.canonicalize name]? with
  | some value => exact h _ value hseat
  | none => cases legacy[aliases.canonicalize name]? <;> rfl

/-- An entry adds, subtracts or assigns its number. -/
theorem AttributeEntry.tree_cases (entry : AttributeEntry) :
    (entry.tree = .update .add entry.name (.int entry.number) ∧
      entry.newValue = changed "+" (· + entry.number.toInt)) ∨
    (entry.tree = .update .sub entry.name (.int entry.number) ∧
      entry.newValue = changed "-" (· - entry.number.toInt)) ∨
    (entry.tree = .assign entry.name (.int entry.number) ∧
      entry.newValue = fun _ => .ok entry.number) := by
  unfold tree newValue
  generalize entry.operator = operator
  split
  · exact .inl ⟨rfl, rfl⟩
  · exact .inr (.inl ⟨rfl, rfl⟩)
  · refine .inr (.inr ⟨rfl, funext fun old => ?_⟩)
    simp_all

/-! ## Names of attributes -/

theorem Tier.ofName_eq_seat_of_letters {name : String}
    (h : ∀ c ∈ name.toList, Text.isLetter c = true) : Tier.ofName name = .seat := by
  refine (Tier.ofName_eq_seat_iff name).mpr fun tag htag hfront => ?_
  have hdollar : ∀ tag ∈ Tier.tags, '$' ∈ tag.toList := by decide
  have hletter := h '$' (hfront.mem (hdollar tag htag))
  exact absurd hletter (by decide)

/-! ## Evaluation -/

section Evaluation

variable {δ : Type} [DiceSource δ] (m : Machine) {w : World δ Scoped}

/-- An attribute is read where no template has its name. -/
theorem Machine.load_attribute {name : String} (h : Tier.ofName name = .seat)
    (hplain : HoldsPlain w.vars.seat)
    (htemplate : w.vars.templates.pick name = (none, w.vars.templates)) :
    m.load name w = .ok (attributeValue w.vars.aliases w.vars.legacy w.vars.seat name) w := by
  have hpick : Variables.template? w.vars name = (none, w.vars) := by
    show w.vars.template? name = _
    simp only [Scoped.template?, htemplate]
  have hlookUp : lookUp (m.expand m.limits.maxDepth) name w =
      .ok (attributeValue w.vars.aliases w.vars.legacy w.vars.seat name) w := by
    unfold lookUp attributeValue
    rw [Scoped.get?_of_seat h, Scoped.legacy?_of_seat h, hpick]
    cases w.vars.seat[w.vars.aliases.canonicalize name]? with
    | some value => rfl
    | none => cases w.vars.legacy[w.vars.aliases.canonicalize name]? <;> rfl
  have hvalue := hplain.attributeValue w.vars.aliases w.vars.legacy name
  rw [load, resolve_eq, Eval.bind_of_ok hlookUp]
  cases hcases : attributeValue w.vars.aliases w.vars.legacy w.vars.seat name with
  | computed base source =>
    rw [hcases] at hvalue
    cases hvalue
  | _ => rfl

namespace AttributeEntry

/-- The new value, or the cause as a fault, with the value assigned. -/
def outcome (entry : AttributeEntry) (w : World δ Scoped) :
    EStateM.Result Fault (World δ Scoped) Value :=
  match entry.newValue (attributeValue w.vars.aliases w.vars.legacy w.vars.seat entry.name) with
  | .ok n => .ok (.int n) { w with vars := Variables.set w.vars entry.name (.int n) }
  | .error cause => .error ⟨cause, none⟩ w

omit [DiceSource δ] in
/-- An operator changes an integer as the exact operation on integers does, within 64 bits. -/
theorem combined_eq {op : Operator} {change : Int → Int} {n : Int64}
    (hop : ∀ a : Int64, op.apply a n = op.orOverflow (Checked.ofInt? (change a.toInt)))
    (old : Value) (w : World δ Scoped) :
    (Value.combined op old (.int n) : Eval δ Scoped Value) w =
      match changed op.symbol change old with
      | .ok n => .ok (.int n) w
      | .error cause => .error ⟨cause, none⟩ w := by
  cases old with
  | int a =>
    have happly : (Value.combined op (.int a) (.int n) : Eval δ Scoped Value) w =
        (Eval.ofCause (op.apply a n) >>= fun n => pure (.int n) : Eval δ Scoped Value) w := rfl
    rw [happly, hop, changed]
    cases Checked.ofInt? (change a.toInt) <;> rfl
  | _ => rfl

theorem value_tree {entry : AttributeEntry} (h : entry.Plain) (usual : Int64)
    (hplain : HoldsPlain w.vars.seat)
    (htemplate : w.vars.templates.pick entry.name = (none, w.vars.templates)) :
    entry.tree.value m m.load usual false w = entry.outcome w := by
  have hload := m.load_attribute (Tier.ofName_eq_seat_of_letters h.name_letters) hplain htemplate
  -- both operators read the attribute before they change it
  have hupdate : ∀ {op : Operator} {change : Int → Int},
      (∀ a : Int64, op.apply a entry.number = op.orOverflow (Checked.ofInt? (change a.toInt))) →
      (Expr.update op entry.name (.int entry.number)).value m m.load usual false w =
        match changed op.symbol change
          (attributeValue w.vars.aliases w.vars.legacy w.vars.seat entry.name) with
        | .ok n => .ok (.int n) { w with vars := Variables.set w.vars entry.name (.int n) }
        | .error cause => .error ⟨cause, none⟩ w := by
    intro op change hop
    have hcombined := combined_eq hop
      (attributeValue w.vars.aliases w.vars.legacy w.vars.seat entry.name) w
    rw [Expr.value, Eval.bind_of_ok hload, Expr.value, pure_bind]
    cases hchanged : changed op.symbol change
        (attributeValue w.vars.aliases w.vars.legacy w.vars.seat entry.name) with
    | ok n =>
      rw [hchanged] at hcombined
      rw [Eval.bind_of_ok hcombined]
      rfl
    | error cause =>
      rw [hchanged] at hcombined
      rw [Eval.bind_of_error hcombined]
  unfold outcome
  rcases entry.tree_cases with ⟨htree, hnew⟩ | ⟨htree, hnew⟩ | ⟨htree, hnew⟩
  · rw [htree, hnew]
    exact hupdate fun a => rfl
  · rw [htree, hnew]
    exact hupdate fun a => rfl
  · rw [htree, hnew]
    rfl

theorem size_tree_le (entry : AttributeEntry) : entry.tree.size ≤ 7 := by
  unfold tree
  split <;> simp [Expr.size]

end AttributeEntry

end Evaluation

/-! ## At a seat -/

/-- The integers that the older records hold for a player. -/
def Records.legacyMap (r : Records) (player : String) : LegacyMap := (r.legacy[player]?).getD ∅

namespace Bot

variable {δ : Type}

/-- A command at the seat sees the same in `t` as in `s`, but for the map of the seat, which is
`vars`, and the stream of the templates. The templates are those of the replies. -/
structure SameButMap (seat : Seat) (s : Bot δ) (vars : VariableMap) (t : Bot δ) : Prop where
  settings : t.settings = s.settings
  dice : t.dice = s.dice
  templates : t.templates.OnlyReplies
  vars : (t.world seat).vars = { (s.world seat).vars with seat := vars, templates := t.templates }

namespace SameButMap

variable {seat : Seat} {s t : Bot δ} {vars : VariableMap}

protected theorem refl (h : s.templates.OnlyReplies) (seat : Seat) :
    SameButMap seat s (s.records.seatMap seat) s := ⟨rfl, rfl, h, rfl⟩

theorem keep (h : SameButMap seat s vars t) {w : World δ Scoped} {vars' : VariableMap}
    (hdice : w.dice = t.dice) (htemplates : w.vars.templates = t.templates)
    (hvars : w.vars = { (t.world seat).vars with seat := vars' }) :
    SameButMap seat s vars' (t.keep seat w) where
  settings := h.settings
  dice := hdice.trans h.dice
  templates := by
    show w.vars.templates.OnlyReplies
    rw [htemplates]
    exact h.templates
  vars := by
    have haliases : w.vars.aliases = t.aliases := by
      rw [hvars]
      rfl
    have hlegacy : w.vars.legacy = (t.world seat).vars.legacy := by rw [hvars]
    rw [vars_world_keep t seat haliases hlegacy, hvars, h.vars]
    show _ = ({ (s.world seat).vars with seat := vars', templates := w.vars.templates } : Scoped)
    rw [htemplates]

variable {entry : AttributeEntry}

theorem fits (h : SameButMap seat s vars t) (entry : AttributeEntry)
    (hcapacity : 8 ≤ s.settings.capacity) : entry.tree.size + 1 ≤ t.settings.capacity := by
  have hsize := entry.size_tree_le
  rw [h.settings]
  omega

theorem compile_source (hentry : entry.Plain) : t.settings.machine.code.compile entry.source =
    .ok (entry.tree.program t.settings.machine.code) :=
  CodeSettings.programOf_eq_ok_iff.mpr ⟨_, hentry.parse_source, rfl⟩

variable [DiceSource δ]

theorem value_tree (h : SameButMap seat s vars t) (hentry : entry.Plain) (hvars : HoldsPlain vars) :
    entry.tree.value t.settings.machine t.settings.machine.load t.settings.usualSides false
      (t.world seat) =
    match entry.newValue
      (attributeValue s.aliases (s.records.legacyMap seat.player) vars entry.name) with
    | .ok n => .ok (.int n)
        { t.world seat with vars := Variables.set (t.world seat).vars entry.name (.int n) }
    | .error cause => .error ⟨cause, none⟩ (t.world seat) := by
  have hplain : HoldsPlain (t.world seat).vars.seat := by rwa [h.vars]
  -- no reply template goes by a name of letters
  have htemplate : t.templates.pick entry.name = (none, t.templates) :=
    h.templates.pick_of_not_mem fun hmem =>
      absurd (hentry.name_letters ':' hmem) (by decide)
  have hvalue : attributeValue (t.world seat).vars.aliases (t.world seat).vars.legacy
      (t.world seat).vars.seat entry.name =
        attributeValue s.aliases (s.records.legacyMap seat.player) vars entry.name := by
    rw [h.vars]
    rfl
  rw [AttributeEntry.value_tree t.settings.machine hentry t.settings.usualSides hplain htemplate,
    AttributeEntry.outcome, hvalue]

/-- An entry whose attribute has a new value stores it under the canonical name. -/
theorem run_of_newValue_ok (h : SameButMap seat s vars t) (hentry : entry.Plain)
    (hcapacity : 8 ≤ s.settings.capacity) (hvars : HoldsPlain vars) {n : Int64}
    (hnew : entry.newValue
      (attributeValue s.aliases (s.records.legacyMap seat.player) vars entry.name) = .ok n) :
    ∃ (o : Outcome) (t' : Bot δ), run entry.source seat t = (.ok o, t') ∧
      o.evaluation.value = .int n ∧
      SameButMap seat s (vars.insert (s.aliases.canonicalize entry.name) (.int n)) t' := by
  have hvalue := h.value_tree hentry hvars
  rw [hnew] at hvalue
  obtain ⟨result, hresult, hrun⟩ := runProgram_of_ok (Expr.complete_of_parse hentry.parse_source)
    (h.fits entry hcapacity) hvalue
  have hset := Scoped.set_of_seat (Tier.ofName_eq_seat_of_letters hentry.name_letters)
    (t.world seat).vars (.int n)
  have hrun' : run entry.source seat t =
      (.ok ⟨result, entry.tree.program t.settings.machine.code⟩, t.keep seat
        { t.world seat with vars := Variables.set (t.world seat).vars entry.name (.int n) }) := by
    unfold run
    rw [Act.bind_of_eq (get_eq t), compile_source hentry]
    dsimp only
    rw [Act.bind_of_eq hrun]
    rfl
  refine ⟨_, _, hrun', hresult, h.keep rfl ?_ ?_⟩
  · rw [hset]
    rfl
  · rw [hset, h.vars]
    rfl

/-- An entry whose attribute cannot be changed so leaves everything as it is. -/
theorem run_of_newValue_error (h : SameButMap seat s vars t) (hentry : entry.Plain)
    (hcapacity : 8 ≤ s.settings.capacity) (hvars : HoldsPlain vars) {cause : Cause}
    (hnew : entry.newValue
      (attributeValue s.aliases (s.records.legacyMap seat.player) vars entry.name) = .error cause) :
    ∃ t' : Bot δ, run entry.source seat t = (.error ⟨cause, none⟩, t') ∧
      SameButMap seat s vars t' := by
  have hvalue := h.value_tree hentry hvars
  rw [hnew] at hvalue
  have hrun := runProgram_of_error (Expr.complete_of_parse hentry.parse_source)
    (h.fits entry hcapacity) hvalue
  refine ⟨t.keep seat (t.world seat), ?_, h.keep rfl rfl ?_⟩
  · unfold run
    rw [Act.bind_of_eq (get_eq t), compile_source hentry]
    dsimp only
    rw [Act.bind_of_eq hrun]
    rfl
  · rw [h.vars]

end SameButMap

end Bot

end DiceBot
