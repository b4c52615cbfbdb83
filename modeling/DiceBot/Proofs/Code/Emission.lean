import DiceBot.Proofs.Expr.Recognition

/-!
# What a program holds

Instructions appended to a program that is not spoiled: as many of them as there is room for, and
the program is spoiled exactly when there was not room for all (`toList_emitAll`,
`overflowed_emitAll`). So the program of an expression that is not spoiled holds the whole postfix
code (`toList_code_program`), and whether it is spoiled can be told from the size of the tree.

`Expr.Complete` is what the parser makes sure of and the code relies on: a template has an
expression for each of its placeholders.
-/

namespace DiceBot

namespace Program

@[simp] theorem capacity_emit (p : Program) (i : Instruction) :
    (p.emit i).capacity = p.capacity := by
  unfold emit
  split <;> rfl

@[simp] theorem forceMax_emit (p : Program) (i : Instruction) :
    (p.emit i).forceMax = p.forceMax := by
  unfold emit
  split <;> rfl

/-- Where there is room an instruction is put at the end. -/
theorem emit_of_lt {p : Program} (hp : p.overflowed = false) (h : p.size < p.capacity)
    (i : Instruction) :
    (p.emit i).code.toList = p.code.toList ++ [i] ∧ (p.emit i).overflowed = false := by
  have hroom : p.hasRoom = true := by
    simpa [hasRoom, hp, size] using h
  rw [emit, dif_pos hroom]
  exact ⟨by simp, hp⟩

/-- Where there is no room an instruction spoils the program and nothing is added. -/
theorem emit_of_le {p : Program} (h : p.capacity ≤ p.size) (i : Instruction) :
    (p.emit i).code = p.code ∧ (p.emit i).overflowed = true := by
  have hroom : ¬p.hasRoom = true := by
    simp only [hasRoom, Bool.and_eq_true, decide_eq_true_eq, not_and, Nat.not_lt]
    exact fun _ => h
  rw [emit, dif_neg hroom]
  exact ⟨rfl, rfl⟩

/-- A spoiled program takes nothing more. -/
theorem emit_of_overflowed {p : Program} (hp : p.overflowed = true) (i : Instruction) :
    p.emit i = p := by
  have hroom : ¬p.hasRoom = true := by
    simp [hasRoom, hp]
  rw [emit, dif_neg hroom, ← hp]

@[simp] theorem capacity_emitAll (p : Program) (code : List Instruction) :
    (p.emitAll code).capacity = p.capacity := by
  induction code generalizing p with
  | nil => rfl
  | cons i code ih => exact (ih (p.emit i)).trans (capacity_emit p i)

@[simp] theorem forceMax_emitAll (p : Program) (code : List Instruction) :
    (p.emitAll code).forceMax = p.forceMax := by
  induction code generalizing p with
  | nil => rfl
  | cons i code ih => exact (ih (p.emit i)).trans (forceMax_emit p i)

theorem emitAll_of_overflowed {p : Program} (hp : p.overflowed = true) (code : List Instruction) :
    p.emitAll code = p := by
  induction code with
  | nil => rfl
  | cons i code ih => rwa [emitAll, List.foldl_cons, emit_of_overflowed hp]

/-- Of the instructions appended the program takes those that there is room for, and it is spoiled
exactly when that is not all of them. -/
theorem emitAll_spec {p : Program} (hp : p.overflowed = false) (code : List Instruction) :
    (p.emitAll code).code.toList = p.code.toList ++ code.take (p.capacity - p.size) ∧
      ((p.emitAll code).overflowed = true ↔ p.capacity - p.size < code.length) := by
  induction code generalizing p with
  | nil => exact ⟨by simp [emitAll], by simp [emitAll, hp]⟩
  | cons i code ih =>
    have hcons : p.emitAll (i :: code) = (p.emit i).emitAll code := rfl
    rw [hcons]
    -- the room left is what the induction counts down; without room nothing is added any more
    by_cases hroom : p.size < p.capacity
    · obtain ⟨hcode, hoverflowed⟩ := emit_of_lt hp hroom i
      have hsize : (p.emit i).size = p.size + 1 := by
        rw [size, ← Array.length_toList, hcode]
        simp [size]
      obtain ⟨k, hk⟩ : ∃ k, p.capacity - p.size = k + 1 := ⟨p.capacity - p.size - 1, by omega⟩
      have hk' : (p.emit i).capacity - (p.emit i).size = k := by
        rw [capacity_emit, hsize]
        omega
      obtain ⟨hlist, hspoiled⟩ := ih hoverflowed
      rw [hk, hlist, hspoiled, hk', hcode]
      exact ⟨by simp, by simp⟩
    · obtain ⟨hcode, hoverflowed⟩ := emit_of_le (Nat.le_of_not_lt hroom) i
      have hzero : p.capacity - p.size = 0 := by omega
      rw [emitAll_of_overflowed hoverflowed, hcode, hzero]
      exact ⟨by simp, by simp [hoverflowed]⟩

theorem toList_emitAll_empty (capacity : Nat) (code : List Instruction) :
    ((empty capacity).emitAll code).code.toList = code.take capacity := by
  have h := (emitAll_spec (p := empty capacity) rfl code).1
  simpa [empty, size] using h

theorem overflowed_emitAll_empty (capacity : Nat) (code : List Instruction) :
    ((empty capacity).emitAll code).overflowed = true ↔ capacity < code.length := by
  have h := (emitAll_spec (p := empty capacity) rfl code).2
  simpa [empty, size] using h

/-- A program is refused exactly when it is spoiled. -/
theorem fault?_eq_none_iff {p : Program} : p.fault? = none ↔ p.overflowed = false := by
  unfold fault?
  split <;> simp_all

end Program

namespace Expr

mutual

/-- The number of instructions of an expression. -/
def size : Expr → Nat
  | .int _ => 1
  | .usualSides => 1
  | .text _ => 1
  | .variable _ => 1
  | .template _ parts => sizeOfParts parts + 1
  | .negate e => size e + 1
  | .binary _ left right => size left + size right + 2
  | .die sides => size sides + 1
  | .dice count sides => size count + size sides + 1
  | .assign _ e => size e + 2
  | .update _ _ e => size e + 6

/-- The number of instructions of several expressions. -/
def sizeOfParts : List Expr → Nat
  | [] => 0
  | e :: es => size e + sizeOfParts es

end

mutual

theorem length_code (usual : Int64) : (e : Expr) → (e.code usual).length = e.size
  | .int _ => rfl
  | .usualSides => rfl
  | .text _ => rfl
  | .variable _ => rfl
  | .template s parts => by simp [code, size, length_codeOfParts usual parts]
  | .negate e => by simp [code, size, length_code usual e]
  | .binary op left right => by
    simp only [code, size, List.length_append, List.length_cons, List.length_nil,
      length_code usual left, length_code usual right]
    omega
  | .die sides => by simp [code, size, length_code usual sides]
  | .dice count sides => by
    simp [code, size, length_code usual count, length_code usual sides, Nat.add_assoc]
  | .assign name e => by simp [code, size, length_code usual e]
  | .update op name e => by simp [code, size, length_code usual e]

theorem length_codeOfParts (usual : Int64) :
    (es : List Expr) → (codeOfParts usual es).length = sizeOfParts es
  | [] => rfl
  | e :: es => by simp [codeOfParts, sizeOfParts, length_code usual e, length_codeOfParts usual es]

end

/-- The program of an expression is spoiled exactly when the tree is too large. -/
theorem overflowed_program {settings : CodeSettings} {e : Expr} :
    (e.program settings).overflowed = true ↔ settings.capacity < e.size + 1 := by
  rw [program, Program.overflowed_emitAll_empty, List.length_append, length_code]
  rfl

/-- A program that is not spoiled holds the whole code. -/
theorem toList_code_program {settings : CodeSettings} {e : Expr}
    (h : (e.program settings).overflowed = false) :
    (e.program settings).code.toList = e.code settings.usualSides ++ [.halt] := by
  have hfits : ¬(e.program settings).overflowed = true := by
    simp [h]
  rw [program, Program.overflowed_emitAll_empty] at hfits
  rw [program, Program.toList_emitAll_empty]
  exact List.take_of_length_le (Nat.le_of_not_lt hfits)

@[simp] theorem forceMax_program (settings : CodeSettings) (e : Expr) :
    (e.program settings).forceMax = false := by
  rw [program, Program.forceMax_emitAll]
  rfl

mutual

/-- Every template in the expression has an expression for each of its placeholders. -/
def Complete : Expr → Prop
  | .int _ => True
  | .usualSides => True
  | .text _ => True
  | .variable _ => True
  | .template s parts => parts.length = (placeholderTexts s).length ∧ CompleteParts parts
  | .negate e => Complete e
  | .binary _ left right => Complete left ∧ Complete right
  | .die sides => Complete sides
  | .dice count sides => Complete count ∧ Complete sides
  | .assign _ e => Complete e
  | .update _ _ e => Complete e

/-- The same for several expressions. -/
def CompleteParts : List Expr → Prop
  | [] => True
  | e :: es => Complete e ∧ CompleteParts es

end

theorem completeParts_iff {es : List Expr} : CompleteParts es ↔ ∀ e ∈ es, Complete e := by
  induction es with
  | nil => simp [CompleteParts]
  | cons e es ih => simp [CompleteParts, ih]

end Expr

namespace Grammar

/-- Expressions derived for the placeholders of a template complete it. -/
theorem complete_template {s : String} {es : List Expr}
    (hlength : es.length = (Hole.ofTemplate s).length)
    (h : ∀ p ∈ (Hole.ofTemplate s).zip es, p.2.Complete) : (Expr.template s es).Complete := by
  refine ⟨by simpa [placeholderTexts] using hlength, Expr.completeParts_iff.mpr fun e he => ?_⟩
  obtain ⟨i, hi, rfl⟩ := List.getElem_of_mem he
  have hi' : i < ((Hole.ofTemplate s).zip es).length := by
    rw [List.length_zip]
    omega
  have hpart := h _ (List.getElem_mem hi')
  rw [List.getElem_zip] at hpart
  exact hpart

theorem Derives.complete {n : Nat} {s : Nonterminal} {ks : List TokenKind} {e : Expr}
    (h : Derives n s ks e) : e.Complete := by
  induction h with
  | sum _ _ _ iha ihb => exact ⟨iha, ihb⟩
  | product _ _ _ iha ihb => exact ⟨iha, ihb⟩
  | power _ _ iha ihb => exact ⟨iha, ihb⟩
  | dice _ _ iha ihb => exact ⟨iha, ihb⟩
  | usual => trivial
  | int i => trivial
  | name x => trivial
  | text s => trivial
  | template hlength _ ih => exact complete_template hlength ih
  | expression _ ih | assign _ ih | update _ _ ih | ofSum _ ih | ofProduct _ ih | ofSigned _ ih
  | operand _ ih | negate _ ih | ofPower _ ih | ofDice _ ih | die _ ih | ofPrimary _ ih
  | stated _ ih | parentheses _ ih => exact ih

end Grammar

namespace Expr

/-- The tree of a source is complete. -/
theorem complete_of_parse {source : String} {e : Expr} (h : parse source = .ok e) : e.Complete :=
  (Grammar.parse_eq_ok_iff.mp h).complete

/-- The expressions of the placeholders of a template complete it. -/
theorem complete_of_parts {levels start : Nat} {s : String} {es : List Expr}
    (h : parts (rules levels) start (Hole.ofTemplate s) = .ok es) : (Expr.template s es).Complete := by
  obtain ⟨hlength, hderives⟩ :=
    Grammar.derives_of_parts (Grammar.rules_readsOnly levels).expression h
  exact Grammar.complete_template hlength fun p hp => (hderives p hp).complete

/-- A text taken as a template is the template of its placeholders. -/
theorem parseTemplate_eq_ok_iff {text : String} {e : Expr} : parseTemplate text = .ok e ↔
    ∃ es, parts (rules maxNesting) 0 (Hole.ofTemplate text) = .ok es ∧ e = .template text es := by
  constructor
  · intro h
    obtain ⟨es, hparts, h⟩ := Grammar.ok_of_bind h
    exact ⟨es, hparts, (Except.ok.inj h).symm⟩
  · rintro ⟨es, hparts, rfl⟩
    rw [parseTemplate, hparts]
    rfl

/-- The tree of a text taken as a template is complete. -/
theorem complete_of_parseTemplate {text : String} {e : Expr} (h : parseTemplate text = .ok e) :
    e.Complete := by
  obtain ⟨es, hparts, rfl⟩ := parseTemplate_eq_ok_iff.mp h
  exact complete_of_parts hparts

end Expr

end DiceBot
