import DiceBot.Proofs.Machine.Termination

/-!
# The place of a fault

A fault that an evaluation ends with has arisen in one step of it, where some expansions were open
(`Machine.Raises`): in an instruction of the innermost run, or on the way into an expansion. An
expansion that is refused for the limit has not been opened; one that does not compile, or whose
program is spoiled, has.

On its way out a fault passes the open expansions, and each adds its frame in front
(`Fault.leaving`). So the frames of the fault are those of the open expansions and no others, the
outermost first, and its source is the text that does not compile, if that is how it arose
(`Machine.frames_are_opened`).
-/

namespace DiceBot

/-! ## Before it leaves -/

theorem Expansion.place_of_compile {settings : CodeSettings} {x : Expansion} {fault : Fault}
    (h : x.compile settings = .error fault) : fault.place = some { source := some x.source } := by
  obtain ⟨syntaxFault, rfl⟩ := Expansion.exists_of_compile_eq_error h
  rfl

/-! ## On the way out -/

namespace Fault

/-- The expansions that a fault has passed, outermost first. -/
def frames (fault : Fault) : List String := (fault.place.getD {}).frames

/-- The text in which a syntax fault was found. -/
def source? (fault : Fault) : Option String := (fault.place.getD {}).source

/-- The fault as it is seen from outside the open expansions, of which the outermost comes first. -/
def leaving (fault : Fault) (opened : List Expansion) : Fault :=
  opened.foldr (fun x fault => fault.via x.frame) fault

variable (fault : Fault) (opened : List Expansion)

@[simp] theorem cause_leaving : (fault.leaving opened).cause = fault.cause := by
  induction opened with
  | nil => rfl
  | cons x opened ih => exact ih

@[simp] theorem frames_leaving :
    (fault.leaving opened).frames = opened.map Expansion.frame ++ fault.frames := by
  induction opened with
  | nil => rfl
  | cons x opened ih => exact congrArg (x.frame :: ·) ih

@[simp] theorem source?_leaving : (fault.leaving opened).source? = fault.source? := by
  induction opened with
  | nil => rfl
  | cons x opened ih => exact ih

theorem place_leaving_eq_none_iff :
    (fault.leaving opened).place = none ↔ opened = [] ∧ fault.place = none := by
  cases opened with
  | nil => exact ⟨fun h => ⟨rfl, h⟩, And.right⟩
  | cons x opened => exact ⟨fun h => (nomatch h), fun h => nomatch h.1⟩

end Fault

/-- The expansions that are waited for, outermost first. -/
def opened (callers : List Caller) : List Expansion := (callers.map Caller.expansion).reverse

@[simp] theorem length_opened (callers : List Caller) :
    (opened callers).length = callers.length := by
  simp [opened]

@[simp] theorem opened_cons (c : Caller) (callers : List Caller) :
    opened (c :: callers) = opened callers ++ [c.expansion] := by
  simp [opened]

theorem Stage.failed_eq (callers : List Caller) (fault : Fault) :
    Stage.failed callers fault = .finished (.error (fault.leaving (opened callers))) := by
  unfold Stage.failed Fault.leaving opened
  rw [List.foldr_reverse, List.foldl_map]

namespace Machine

variable {δ γ : Type} [DiceSource δ] [Variables γ]

/-! ## Where faults arise -/

/-- The next step goes into an expansion, for which the callers are going to wait. -/
inductive Enters : Stage × World δ γ → List Caller → Expansion → Prop
  /-- A name that stands for the expansion is read. -/
  | read {callers : List Caller} {run : Activation} {w : World δ γ} {x : Expansion}
      (h : run.Reads w x) : Enters (.running callers run, w) callers x
  /-- A template has come to a computed value. -/
  | again {c : Caller} {callers : List Caller} {forceMax : Bool} {f : Frame} {w : World δ γ}
      {x : Expansion} (h : Meaning.ofResult f.result c.expansion = .expansion x) :
      Enters (.running (c :: callers) ⟨forceMax, [], f⟩, w) callers x

/-- A fault arises in the next step, while the expansions are open, outermost first. -/
inductive Raises (m : Machine) : Stage × World δ γ → List Expansion → Fault → Prop
  /-- An instruction fails. -/
  | instruction {callers : List Caller} {forceMax : Bool} {i : Instruction}
      {code : List Instruction} {f : Frame} {w w' : World δ γ} {fault : Fault}
      (hload : ∀ name, i ≠ .load name)
      (hstep : m.step (fun _ => pure .nothing) forceMax i f w = .error fault w') :
      Raises m (.running callers ⟨forceMax, i :: code, f⟩, w) (opened callers) fault
  /-- An expansion is refused, for as many are open as the limit allows. -/
  | refused {s : Stage × World δ γ} {callers : List Caller} {x : Expansion}
      (h : Enters s callers x) (hfull : callers.length = m.limits.maxDepth) :
      Raises m s (opened callers) ⟨.nestingLimit m.limits.maxDepth, none⟩
  /-- An expansion has been opened, and its text is malformed. -/
  | malformed {s : Stage × World δ γ} {callers : List Caller} {x : Expansion} {fault : Fault}
      (h : Enters s callers x) (hroom : callers.length < m.limits.maxDepth)
      (hcompile : x.compile m.code = .error fault) : Raises m s (opened callers ++ [x]) fault
  /-- An expansion has been opened, and its program is spoiled. -/
  | spoiled {s : Stage × World δ γ} {callers : List Caller} {x : Expansion} {p : Program}
      {fault : Fault} (h : Enters s callers x) (hroom : callers.length < m.limits.maxDepth)
      (hcompile : x.compile m.code = .ok p) (hfault : p.fault? = some fault) :
      Raises m s (opened callers ++ [x]) fault

section Raises

variable {m : Machine} {s : Stage × World δ γ} {xs : List Expansion} {fault : Fault}

/-- A fault arises at no place, or as that of a text which does not compile. -/
theorem Raises.place_cases (h : m.Raises s xs fault) :
    (fault.place = none ∧ ∀ x : Expansion, x.compile m.code ≠ .error fault) ∨
      ∃ opened x, xs = opened ++ [x] ∧ x.compile m.code = .error fault := by
  have hnone : fault.place = none → ∀ x : Expansion, x.compile m.code ≠ .error fault := by
    intro hplace x hcompile
    rw [Expansion.place_of_compile hcompile] at hplace
    exact nomatch hplace
  cases h with
  | instruction _ hstep =>
    have hplace := (m.failsAsInstruction_step _ _ _ _ _ _ hstep).place_eq_none
    exact .inl ⟨hplace, hnone hplace⟩
  | refused => exact .inl ⟨rfl, hnone rfl⟩
  | malformed _ _ hcompile => exact .inr ⟨_, _, rfl, hcompile⟩
  | spoiled _ _ _ hfault =>
    have hplace : fault.place = none := by rw [Program.eq_of_fault? hfault]
    exact .inl ⟨hplace, hnone hplace⟩

theorem Raises.frames_eq_nil (h : m.Raises s xs fault) : fault.frames = [] := by
  unfold Fault.frames
  rcases h.place_cases with ⟨hplace, -⟩ | ⟨-, x, -, hcompile⟩
  · rw [hplace]
    rfl
  · rw [Expansion.place_of_compile hcompile]
    rfl

/-- A fault that arises where nothing is open has no place. -/
theorem Raises.place_eq_none_of_nil (h : m.Raises s [] fault) : fault.place = none := by
  rcases h.place_cases with ⟨hplace, -⟩ | ⟨opened, x, hopened, -⟩
  · exact hplace
  · exact absurd hopened.symm (List.append_ne_nil_of_right_ne_nil opened (List.cons_ne_nil x []))

theorem Raises.source?_eq_some_iff (h : m.Raises s xs fault) (text : String) :
    fault.source? = some text ↔
      ∃ x, xs.getLast? = some x ∧ x.compile m.code = .error fault ∧ text = x.source := by
  unfold Fault.source?
  rcases h.place_cases with ⟨hplace, hcompile⟩ | ⟨opened, x, rfl, hcompile⟩
  · rw [hplace]
    exact ⟨fun hsome => (nomatch hsome), fun ⟨x, _, herror, _⟩ => absurd herror (hcompile x)⟩
  · rw [Expansion.place_of_compile hcompile]
    constructor
    · intro hsome
      exact ⟨x, List.getLast?_concat, hcompile, (Option.some.inj hsome).symm⟩
    · rintro ⟨y, hlast, -, rfl⟩
      obtain rfl : x = y := Option.some.inj (List.getLast?_concat.symm.trans hlast)
      rfl

theorem Raises.length_le (hwithin : m.WithinDepth s.1) (h : m.Raises s xs fault) :
    xs.length ≤ m.limits.maxDepth := by
  cases h with
  | @instruction callers =>
    rw [length_opened]
    exact hwithin
  | refused _ hfull =>
    rw [length_opened]
    exact Nat.le_of_eq hfull
  | malformed _ hroom | spoiled _ hroom =>
    rw [List.length_append, length_opened]
    exact hroom

end Raises

section Step

variable {m : Machine} {w w' : World δ γ} {fault : Fault}

theorem raises_of_enter {s : Stage × World δ γ} {callers : List Caller} {run : Activation}
    {x : Expansion} (henters : Enters s callers x) (hdepth : callers.length ≤ m.limits.maxDepth)
    (h : m.enter callers run x w = (.finished (.error fault), w')) :
    ∃ xs bare, m.Raises s xs bare ∧ fault = bare.leaving xs := by
  have hopens := m.opens_enter callers run x w
  rw [h] at hopens
  generalize hend : ((.finished (.error fault), w') : Stage × World δ γ) = s' at hopens
  cases hopens with
  | refused hfull =>
    rw [Stage.failed_eq] at hend
    cases hend
    exact ⟨_, _, .refused henters (Nat.le_antisymm hdepth hfull), rfl⟩
  | malformed hroom hcompile =>
    rw [Stage.failed_eq, opened_cons] at hend
    cases hend
    exact ⟨_, _, .malformed henters hroom hcompile, rfl⟩
  | spoiled hroom hcompile hfault =>
    rw [Stage.failed_eq, opened_cons] at hend
    cases hend
    exact ⟨_, _, .spoiled henters hroom hcompile hfault, rfl⟩
  | started => exact nomatch hend

/-- A step that fails raises a fault, which leaves all expansions that are open. -/
theorem raises_of_next {callers : List Caller} {run : Activation}
    (hdepth : callers.length ≤ m.limits.maxDepth)
    (h : m.next (.running callers run, w) = (.finished (.error fault), w')) :
    ∃ xs bare, m.Raises (.running callers run, w) xs bare ∧ fault = bare.leaving xs := by
  have hmoves := m.moves_next callers run w
  rw [h] at hmoves
  generalize hend : ((.finished (.error fault), w') : Stage × World δ γ) = s at hmoves
  cases hmoves with
  | ended => exact nomatch hend
  | returned c callers forceMax f =>
    cases hmeaning : Meaning.ofResult f.result c.expansion with
    | value v =>
      rw [hmeaning] at hend
      exact nomatch hend
    | expansion x =>
      rw [hmeaning] at hend
      exact raises_of_enter (.again hmeaning) (Nat.le_of_succ_le hdepth) hend.symm
  | read _ forceMax name code f =>
    cases hmeaning : (meaning name w).1 with
    | value v =>
      rw [hmeaning] at hend
      exact nomatch hend
    | expansion x =>
      rw [hmeaning] at hend
      exact raises_of_enter (.read ⟨name, code, rfl, hmeaning⟩) hdepth hend.symm
  | worked => exact nomatch hend
  | failed _ forceMax code hload hstep =>
    rw [Stage.failed_eq] at hend
    cases hend
    exact ⟨_, _, .instruction hload hstep, rfl⟩

/-- What comes to an end from a run under way does so in a step from a run under way. -/
theorem exists_last_step (n : Nat) {callers : List Caller} {run : Activation}
    {outcome : Except Fault Evaluation}
    (h : m.next^[n] (.running callers run, w) = (.finished outcome, w')) :
    ∃ k callers' run' v, m.next^[k] (.running callers run, w) = (.running callers' run', v) ∧
      m.next (.running callers' run', v) = (.finished outcome, w') := by
  -- on the number of steps, from the front: the first step that ends a run is the last one
  induction n generalizing callers run w with
  | zero => exact nomatch h
  | succ n ih =>
    rw [Function.iterate_succ_apply] at h
    rcases hnext : m.next (.running callers run, w) with ⟨⟨callers', run'⟩ | outcome', v⟩
    · rw [hnext] at h
      obtain ⟨k, callers'', run'', u, hlast, hend⟩ := ih h
      exact ⟨k + 1, callers'', run'', u, by rwa [Function.iterate_succ_apply, hnext], hend⟩
    · rw [hnext, iterate_next_finished] at h
      exact ⟨0, callers, run, w, rfl, hnext.trans h⟩

end Step

/-! ## The place of the fault of an evaluation -/

/-- A spoiled program is refused with a fault that has no place. Any other fault of an evaluation
has arisen in a step of it. Its frames are those of the expansions that were open in this step,
outermost first, so there are no more than the limit allows. It has a source exactly if it is the
fault of compiling the innermost one of them, and then the text of that one. -/
theorem frames_are_opened (m : Machine) (p : Program) (w w' : World δ γ) (fault : Fault)
    (h : m.evaluate p w = .error fault w') :
    (p.fault? = some fault ∧ fault.place = none) ∨
      ∃ n s, ∃ xs : List Expansion, ∃ bare, m.next^[n] (.start p, { w with charged := 0 }) = s ∧
        m.next s = (.finished (.error fault), w') ∧ m.Raises s xs bare ∧
        fault.cause = bare.cause ∧ fault.frames = xs.map Expansion.frame ∧
        fault.frames.length ≤ m.limits.maxDepth ∧ (fault.place = none ↔ xs = []) ∧
        ∀ text, fault.source? = some text ↔
          ∃ x, xs.getLast? = some x ∧ x.compile m.code = .error bare ∧ text = x.source := by
  cases hfault : p.fault? with
  | some bare =>
    have hevaluate : m.evaluate p w = .error bare { w with charged := 0 } := by
      show m.runProgram m.load p { w with charged := 0 } = _
      unfold runProgram
      rw [hfault]
      rfl
    rw [hevaluate] at h
    cases h
    exact .inl ⟨rfl, by rw [Program.eq_of_fault? hfault]⟩
  | none =>
    obtain ⟨n, hn⟩ := m.leadsTo_evaluate p w
    have hstart : Stage.start p = .running [] ⟨p.forceMax, p.code.toList, {}⟩ := by
      unfold Stage.start
      rw [hfault]
    rw [h, hstart] at hn
    -- the steps from the start lead to the fault, and the last of them raises it
    obtain ⟨k, callers, run, v, hlast, hend⟩ := exists_last_step n hn
    rw [← hstart] at hlast
    have hwithin : m.WithinDepth (m.next^[k] (.start p, { w with charged := 0 })).1 :=
      withinDepth_iterate (withinDepth_start p) k
    rw [hlast] at hwithin
    obtain ⟨xs, bare, hraises, rfl⟩ := raises_of_next hwithin hend
    -- it brings no frames of its own
    have hframes : (bare.leaving xs).frames = xs.map Expansion.frame := by
      rw [Fault.frames_leaving, hraises.frames_eq_nil, List.append_nil]
    refine .inr ⟨k, _, xs, bare, hlast, hend, hraises, bare.cause_leaving xs, hframes, ?_, ?_, ?_⟩
    · rw [hframes, List.length_map]
      exact hraises.length_le hwithin
    · rw [Fault.place_leaving_eq_none_iff]
      refine ⟨And.left, ?_⟩
      rintro rfl
      exact ⟨rfl, hraises.place_eq_none_of_nil⟩
    · rw [Fault.source?_leaving]
      exact hraises.source?_eq_some_iff

/-- A variable whose expression reads a second one, whose expression is malformed. -/
theorem frames_are_opened_malformed :
    let m : Machine := {}
    let p : Program := (Program.empty 2).emitAll [.load "a", .halt]
    let vars : VariableMap :=
      ((∅ : VariableMap).insert "a" (.computed .nothing "b")).insert "b" (.computed .nothing "1+")
    let w : World ScriptedDice VariableMap := ⟨⟨[]⟩, vars, 0⟩
    ∃ fault w', m.evaluate p w = .error fault w' ∧ fault.source? = some "1+" ∧
      ∃ xs : List Expansion, xs.map Expansion.frame = ["computed `a`", "computed `b`"] ∧
        ∃ x bare, xs.getLast? = some x ∧ x.compile m.code = .error bare ∧ x.source = "1+" := by
  intro m p vars w
  cases hevaluate : m.evaluate p w with
  | ok e w' => exact nomatch hevaluate
  | error fault w' =>
    have hfault : fault.frames = ["computed `a`", "computed `b`"] ∧ fault.source? = some "1+" := by
      cases hevaluate
      exact ⟨rfl, rfl⟩
    rcases frames_are_opened m p w w' fault hevaluate with
      ⟨hspoiled, -⟩ | ⟨n, s, xs, bare, -, -, -, -, hframes, -, -, hsource⟩
    · exact nomatch hspoiled
    · obtain ⟨x, hlast, hcompile, htext⟩ := (hsource "1+").mp hfault.2
      exact ⟨fault, w', rfl, hfault.2, xs, hframes.symm.trans hfault.1, x, bare, hlast, hcompile,
        htext.symm⟩

end Machine

end DiceBot
