import DiceBot.Machine.Run
import DiceBot.Proofs.Code.Emission

/-!
# Capacity

What the capacity of a program has to do with its compilation. Whether a text is refused, and with
which fault, is settled by its tree. If it is not refused, its code is the same for all capacities,
and a program holds as much of that code as there is room for (`Expr.cutFrom_program`). The last
instruction is `halt`, and a program with room for all but that one is spoiled like any other
(`CodeSettings.capacity_truncates`).
-/

namespace DiceBot

namespace Program

/-- The program holds as much of the whole one as fits into the capacity, and it is spoiled if that
is not all. -/
structure CutFrom (p whole : Program) (capacity : Nat) : Prop where
  code : p.code.toList = whole.code.toList.take (min whole.size capacity)
  fault? : p.fault? = if capacity < whole.size then some ⟨.programOverflow capacity, none⟩ else none

theorem fault?_emitAll_empty (capacity : Nat) (code : List Instruction) :
    ((empty capacity).emitAll code).fault? =
      if capacity < code.length then some ⟨.programOverflow capacity, none⟩ else none := by
  have hcapacity : ((empty capacity).emitAll code).capacity = capacity :=
    capacity_emitAll (empty capacity) code
  have hoverflowed := overflowed_emitAll_empty capacity code
  by_cases hfits : capacity < code.length
  · rw [Program.fault?, if_pos (hoverflowed.mpr hfits), if_pos hfits, hcapacity]
  · have hsound : ¬((empty capacity).emitAll code).overflowed = true := fun h =>
      hfits (hoverflowed.mp h)
    rw [Program.fault?, if_neg hsound, if_neg hfits]

end Program

namespace Expr

variable (usual : Int64) (e : Expr)

/-- A program with room for the code and the `halt` after it holds both. -/
theorem exists_whole_program : ∃ room, (e.program ⟨room, usual⟩).fault? = none ∧
    (e.program ⟨room, usual⟩).code.toList = e.code usual ++ [.halt] := by
  -- the least room that suffices
  let code : List Instruction := e.code usual ++ [.halt]
  refine ⟨code.length, ?_, ?_⟩
  · show ((Program.empty code.length).emitAll code).fault? = none
    rw [Program.fault?_emitAll_empty, if_neg (Nat.lt_irrefl _)]
  · show ((Program.empty code.length).emitAll code).code.toList = code
    rw [Program.toList_emitAll_empty, List.take_length]

/-- All programs of an expression are cut from the one that holds everything. -/
theorem cutFrom_program {whole : Program} (h : whole.code.toList = e.code usual ++ [.halt])
    (capacity : Nat) : (e.program ⟨capacity, usual⟩).CutFrom whole capacity := by
  have hsize : whole.size = (e.code usual ++ [Instruction.halt]).length := by
    rw [← h, Array.length_toList]
    rfl
  constructor
  · show ((Program.empty capacity).emitAll (e.code usual ++ [.halt])).code.toList = _
    rw [Program.toList_emitAll_empty, h, hsize, Nat.min_comm, ← List.take_take, List.take_length]
  · rw [hsize]
    exact Program.fault?_emitAll_empty capacity (e.code usual ++ [.halt])

end Expr

namespace CodeSettings

/-- How what is built depends on the capacity. A fault does not, and it is one of syntax; the
programs are all cut from one of them that is whole. -/
def Truncates (build : Nat → Except Fault Program) : Prop :=
  (∃ fault, fault.code = "E2" ∧ ∀ capacity, build capacity = .error fault) ∨
    ∃ room whole, build room = .ok whole ∧ whole.fault? = none ∧
      whole.code.toList.getLast? = some .halt ∧
      ∀ capacity, ∃ p, build capacity = .ok p ∧ p.CutFrom whole capacity

theorem truncates_of_tree {build : Nat → Except Fault Program} (usual : Int64)
    (e : Expr) (h : ∀ capacity, build capacity = .ok (e.program ⟨capacity, usual⟩)) :
    Truncates build := by
  obtain ⟨room, hfault, hcode⟩ := e.exists_whole_program usual
  have hhalt : (e.program ⟨room, usual⟩).code.toList.getLast? = some .halt := by
    rw [hcode, List.getLast?_concat]
  exact .inr ⟨room, _, h room, hfault, hhalt,
    fun capacity => ⟨_, h capacity, e.cutFrom_program usual hcode capacity⟩⟩

/-- Reading a text has nothing to do with the capacity. -/
theorem truncates_programOf (usual : Int64) (text : String) (parsed : Except SyntaxFault Expr) :
    Truncates fun capacity => programOf ⟨capacity, usual⟩ text parsed := by
  cases parsed with
  | error syntaxFault => exact .inl ⟨syntaxFault.toFault text, rfl, fun _ => rfl⟩
  | ok e => exact truncates_of_tree usual e fun _ => rfl

/-- The capacity only cuts programs off. A source, or a template, is refused with the same syntax
fault for all capacities, or its programs are cut from one that is whole, and are spoiled exactly
if that has more instructions. A spoiled program is refused with its fault before anything is
done. -/
theorem capacity_truncates (usual : Int64) (text : String) :
    (Truncates fun capacity => compile ⟨capacity, usual⟩ text) ∧
    (Truncates fun capacity => compileTemplate ⟨capacity, usual⟩ text) ∧
    ∀ {δ γ : Type} [DiceSource δ] [Variables γ] (m : Machine) (p : Program) (w : World δ γ) fault,
      p.fault? = some fault →
        m.evaluate p w = .error fault { w with charged := 0 } ∧
        ∀ load : String → Eval δ γ Value, m.runProgram load p w = .error fault w := by
  refine ⟨truncates_programOf usual text _, truncates_programOf usual text _, ?_⟩
  intro δ γ _ _ m p w fault hp
  have hrun : ∀ (load : String → Eval δ γ Value) v, m.runProgram load p v = .error fault v := by
    intro load v
    unfold Machine.runProgram
    rw [hp]
    rfl
  exact ⟨hrun m.load { w with charged := 0 }, fun load => hrun load w⟩

/-- A source with room for all its instructions but the `halt`. -/
theorem capacity_truncates_halt :
    let p : Program := (Program.empty 4).emitAll
      [.text "x", .int 1, .die, .store, .halt]
    let w : World ScriptedDice VariableMap := ⟨⟨[3]⟩, ∅, 0⟩
    compile ⟨4, 6⟩ "x=d1" = .ok p ∧ p.fault? = some ⟨.programOverflow 4, none⟩ ∧
      ({} : Machine).evaluate p w = .error ⟨.programOverflow 4, none⟩ w := by
  intro p w
  obtain ⟨-, -, hevaluate⟩ := capacity_truncates 6 "x=d1"
  exact ⟨rfl, rfl, (hevaluate {} p w _ rfl).1⟩

end CodeSettings

end DiceBot
