import DiceBot.Proofs.Code.Emission
import Mathlib.Data.List.Forall2

/-!
# The stack as told from the code

How high the stack is before each instruction, and which values on it are texts that stand in the
code, can be told without running anything.

* `Instruction.effect` is what an instruction does to a stack, whatever the stack holds: values when
  the code runs, marks when it is only looked at. It is the one place where the arrangement of the
  operands is written down.
* `Code.firstUnderflow?` goes by heights alone and applies to any code.
* `Code.shapeAfter?` goes by marks. It accepts an assignment only with a name from the code under
  the value. The code of every complete expression adds one mark to any shape
  (`Expr.shapeAfter?_code`), so it never comes to an underflow, and what is compiled leaves one
  value (`Program.LeavesOne`).
-/

namespace DiceBot

namespace Instruction

/-- The number of values that an instruction takes off the stack. -/
def operands : Instruction → Nat
  | .int _ | .text _ | .load _ | .markLeft | .halt => 0
  | .negate | .die => 1
  | .swap | .binary _ | .dice | .store => 2
  | .fill _ placeholders => placeholders.length

/-- The number of values that an instruction puts in their place. -/
def results : Instruction → Nat
  | .markLeft | .halt => 0
  | .swap => 2
  | .int _ | .text _ | .load _ | .negate | .die | .binary _ | .dice | .store | .fill _ _ => 1

/-- The height of a stack after an instruction that finds its operands there. -/
def heightAfter (i : Instruction) (height : Nat) : Nat := height - i.operands + i.results

/-- What an instruction does to a stack that has its operands; `a` stands for the value that it
computes, if it computes one. -/
def effect {α : Type} (i : Instruction) (a : α) (stack : List α) : List α :=
  match i, stack with
  | .swap, b :: c :: stack => c :: b :: stack
  | .store, value :: _ :: stack => value :: stack
  | .markLeft, stack => stack
  | .halt, stack => stack
  | i, stack => a :: stack.drop i.operands

/-- The mark of the value that an instruction computes: the text of a `text` instruction. -/
def mark : Instruction → Option String
  | .text s => some s
  | _ => none

/-- Are the operands there, and is what is assigned to a text from the code? -/
def accepts (i : Instruction) (shape : List (Option String)) : Bool :=
  match i, shape with
  | .store, _ :: some _ :: _ => true
  | .store, _ => false
  | i, shape => i.operands ≤ shape.length

/-- The marks after an instruction. -/
def shape? (i : Instruction) (shape : List (Option String)) : Option (List (Option String)) :=
  if i.accepts shape then some (i.effect i.mark shape) else none

section Effect

variable {α : Type} {i : Instruction}

theorem length_effect {a : α} {stack : List α} (h : i.operands ≤ stack.length) :
    (i.effect a stack).length = i.heightAfter stack.length := by
  match i, stack with
  | .swap, [] | .swap, [_] | .store, [] | .store, [_] => simp [operands] at h
  | .swap, _ :: _ :: _ => simp [effect, heightAfter, operands, results]
  | .store, _ :: _ :: _ => simp [effect, heightAfter, operands, results]
  | .int _, _ | .text _, _ | .load _, _ | .negate, _ | .die, _ | .binary _, _ | .dice, _
  | .fill _ _, _ | .markLeft, _ | .halt, _ => simp [effect, heightAfter, operands, results]

/-- An instruction makes up no value besides the one that it computes. -/
theorem mem_effect {a b : α} {stack : List α} (h : b ∈ i.effect a stack) : b = a ∨ b ∈ stack := by
  unfold effect at h
  split at h
  · exact .inr (by simpa [or_left_comm] using h)
  · refine .inr ?_
    rcases List.mem_cons.mp h with rfl | h
    · exact List.mem_cons_self
    · exact List.mem_cons_of_mem _ (List.mem_cons_of_mem _ h)
  · exact .inr h
  · exact .inr h
  · exact (List.mem_cons.mp h).imp_right List.mem_of_mem_drop

/-- Two stacks that fit each other still do after an instruction that computes fitting values. -/
theorem forall₂_effect {β : Type} {R : α → β → Prop} {a : α} {b : β} {stack : List α}
    {stack' : List β} (hab : R a b) (h : List.Forall₂ R stack stack') :
    List.Forall₂ R (i.effect a stack) (i.effect b stack') := by
  match i, stack, stack', h with
  | .swap, _, _, .cons h₁ (.cons h₂ h) => exact .cons h₂ (.cons h₁ h)
  | .store, _, _, .cons h₁ (.cons _ h) => exact .cons h₁ h
  | .swap, _, _, .nil | .swap, _, _, .cons _ .nil => exact .cons hab .nil
  | .store, _, _, .nil | .store, _, _, .cons _ .nil => exact .cons hab .nil
  | .markLeft, _, _, h | .halt, _, _, h => exact h
  | .int _, _, _, h | .text _, _, _, h | .load _, _, _, h | .negate, _, _, h | .die, _, _, h
  | .binary _, _, _, h | .dice, _, _, h | .fill _ _, _, _, h =>
    exact .cons hab (List.forall₂_drop _ h)

/-- An instruction that finds its operands leaves what lies below them. -/
theorem effect_append {a : α} {stack : List α} (h : i.operands ≤ stack.length) (below : List α) :
    i.effect a (stack ++ below) = i.effect a stack ++ below := by
  match i, stack with
  | .swap, [] | .swap, [_] | .store, [] | .store, [_] => simp [operands] at h
  | .swap, _ :: _ :: _ | .store, _ :: _ :: _ | .markLeft, _ | .halt, _ => rfl
  | .int _, _ | .text _, _ | .load _, _ | .negate, _ | .die, _ | .binary _, _ | .dice, _
  | .fill _ _, _ => simp only [effect, List.drop_append_of_le_length h, List.cons_append]

end Effect

variable {i : Instruction} {shape shape' : List (Option String)}

theorem accepts_of_ne (hi : i ≠ .store) (shape : List (Option String)) :
    i.accepts shape = decide (i.operands ≤ shape.length) := by
  cases i with
  | store => exact (hi rfl).elim
  | _ => rfl

/-- An assignment is accepted only with a text from the code under the value. -/
theorem accepts_store (h : Instruction.store.accepts shape = true) :
    ∃ value name rest, shape = value :: some name :: rest := by
  match shape with
  | value :: some name :: rest => exact ⟨value, name, rest, rfl⟩
  | [] | [_] | _ :: none :: _ => exact nomatch h

theorem operands_le_of_accepts (h : i.accepts shape = true) : i.operands ≤ shape.length := by
  by_cases hi : i = .store
  · subst hi
    obtain ⟨value, name, rest, rfl⟩ := accepts_store h
    simp [operands]
  · rwa [accepts_of_ne hi, decide_eq_true_iff] at h

theorem accepts_append (h : i.accepts shape = true) (below : List (Option String)) :
    i.accepts (shape ++ below) = true := by
  by_cases hi : i = .store
  · subst hi
    obtain ⟨value, name, rest, rfl⟩ := accepts_store h
    rfl
  · rw [accepts_of_ne hi, decide_eq_true_iff] at h ⊢
    rw [List.length_append]
    omega

theorem shape?_eq_some_iff :
    i.shape? shape = some shape' ↔ i.accepts shape = true ∧ i.effect i.mark shape = shape' := by
  simp [shape?]

end Instruction

/-! ## Code -/

namespace Code

/-- The height of a stack after code that finds all its operands there. -/
def heightAfter (height : Nat) (code : List Instruction) : Nat :=
  code.foldl (fun height i => i.heightAfter height) height

/-- The first instruction for which the stack is not high enough, with the code before it. -/
def firstUnderflow? (height : Nat) : List Instruction → Option (List Instruction × Instruction)
  | [] => none
  | i :: code =>
      if height < i.operands then some ([], i)
      else (firstUnderflow? (i.heightAfter height) code).map fun (before, j) => (i :: before, j)

/-- The marks after code that accepts them. -/
def shapeAfter? (shape : List (Option String)) (code : List Instruction) :
    Option (List (Option String)) :=
  code.foldlM (fun shape i => i.shape? shape) shape

theorem heightAfter_cons (height : Nat) (i : Instruction) (code : List Instruction) :
    heightAfter height (i :: code) = heightAfter (i.heightAfter height) code := rfl

theorem firstUnderflow?_cons_of_le {height : Nat} {i : Instruction} (h : i.operands ≤ height)
    (code : List Instruction) :
    firstUnderflow? height (i :: code) =
      (firstUnderflow? (i.heightAfter height) code).map fun (before, j) => (i :: before, j) := by
  rw [firstUnderflow?, if_neg (Nat.not_lt.mpr h)]

/-- There is an underflow at an instruction exactly if all the code before it finds its operands
and leaves too few for it. -/
theorem firstUnderflow?_eq_some_iff {height : Nat} {code before : List Instruction}
    {i : Instruction} :
    firstUnderflow? height code = some (before, i) ↔
      (∃ after, code = before ++ i :: after) ∧ firstUnderflow? height before = none ∧
        heightAfter height before < i.operands := by
  induction code generalizing height before with
  | nil => simp [firstUnderflow?]
  | cons j code ih =>
    -- an underflow at the head leaves nothing to look for behind it
    by_cases hj : height < j.operands
    · rw [firstUnderflow?, if_pos hj]
      constructor
      · rintro ⟨⟩
        exact ⟨⟨code, rfl⟩, rfl, hj⟩
      · rintro ⟨⟨after, hcode⟩, hbefore, -⟩
        cases before with
        | nil =>
          obtain ⟨rfl, rfl⟩ := List.cons.inj hcode
          rfl
        | cons k before =>
          obtain ⟨rfl, rfl⟩ := List.cons.inj hcode
          simp [firstUnderflow?, hj] at hbefore
    · rw [firstUnderflow?_cons_of_le (Nat.le_of_not_lt hj)]
      cases before with
      | nil =>
        refine iff_of_false (by simp) ?_
        rintro ⟨⟨after, hcode⟩, -, hi⟩
        obtain ⟨rfl, rfl⟩ := List.cons.inj hcode
        exact hj hi
      | cons k before =>
        simp only [Option.map_eq_some_iff, Prod.mk.injEq, List.cons.injEq, Prod.exists,
          List.cons_append]
        constructor
        · rintro ⟨before', i', hfirst, ⟨rfl, rfl⟩, rfl⟩
          obtain ⟨⟨after, rfl⟩, hbefore, hi⟩ := ih.mp hfirst
          refine ⟨⟨after, rfl, rfl⟩, ?_, hi⟩
          rw [firstUnderflow?_cons_of_le (Nat.le_of_not_lt hj), hbefore, Option.map_none]
        · rintro ⟨⟨after, rfl, rfl⟩, hbefore, hi⟩
          rw [firstUnderflow?_cons_of_le (Nat.le_of_not_lt hj), Option.map_eq_none_iff] at hbefore
          exact ⟨before, i, ih.mpr ⟨⟨after, rfl⟩, hbefore, hi⟩, ⟨rfl, rfl⟩, rfl⟩

example : firstUnderflow? 0 [.int 1, .binary .add, .negate] = some ([.int 1], .binary .add) := rfl

@[simp] theorem shapeAfter?_nil (shape : List (Option String)) :
    shapeAfter? shape [] = some shape := rfl

theorem shapeAfter?_cons (shape : List (Option String)) (i : Instruction)
    (code : List Instruction) :
    shapeAfter? shape (i :: code) = (i.shape? shape).bind (shapeAfter? · code) := by
  rw [shapeAfter?, List.foldlM_cons]
  rfl

theorem shapeAfter?_append (shape : List (Option String)) (code code' : List Instruction) :
    shapeAfter? shape (code ++ code') = (shapeAfter? shape code).bind (shapeAfter? · code') := by
  rw [shapeAfter?, List.foldlM_append]
  rfl

section ShapeAfter

variable {shape shape' : List (Option String)} {code : List Instruction}

/-- Code that accepts the marks is accepted one instruction after the other. -/
theorem shapeAfter?_cons_eq_some_iff {i : Instruction} :
    shapeAfter? shape (i :: code) = some shape' ↔
      i.accepts shape = true ∧ shapeAfter? (i.effect i.mark shape) code = some shape' := by
  rw [shapeAfter?_cons, Option.bind_eq_some_iff]
  constructor
  · rintro ⟨next, hi, hcode⟩
    obtain ⟨haccepts, rfl⟩ := Instruction.shape?_eq_some_iff.mp hi
    exact ⟨haccepts, hcode⟩
  · rintro ⟨haccepts, hcode⟩
    exact ⟨_, Instruction.shape?_eq_some_iff.mpr ⟨haccepts, rfl⟩, hcode⟩

/-- Marks tell the height: code that accepts them has no underflow. -/
theorem heights_of_shapeAfter? (h : shapeAfter? shape code = some shape') :
    firstUnderflow? shape.length code = none ∧ heightAfter shape.length code = shape'.length := by
  induction code generalizing shape with
  | nil =>
    obtain rfl := Option.some.inj h
    exact ⟨rfl, rfl⟩
  | cons i code ih =>
    obtain ⟨haccepts, hcode⟩ := shapeAfter?_cons_eq_some_iff.mp h
    have hoperands := Instruction.operands_le_of_accepts haccepts
    have hrest := ih hcode
    rw [Instruction.length_effect hoperands] at hrest
    rw [firstUnderflow?_cons_of_le hoperands, Option.map_eq_none_iff]
    exact hrest

/-- Accepted code leaves what lies below its operands. -/
theorem shapeAfter?_append_below (h : shapeAfter? shape code = some shape')
    (below : List (Option String)) :
    shapeAfter? (shape ++ below) code = some (shape' ++ below) := by
  induction code generalizing shape with
  | nil =>
    obtain rfl := Option.some.inj h
    rfl
  | cons i code ih =>
    obtain ⟨haccepts, hcode⟩ := shapeAfter?_cons_eq_some_iff.mp h
    refine shapeAfter?_cons_eq_some_iff.mpr ⟨Instruction.accepts_append haccepts below, ?_⟩
    rw [Instruction.effect_append (Instruction.operands_le_of_accepts haccepts)]
    exact ih hcode

/-- A mark is the text of a `text` instruction. -/
theorem text_mem_of_shapeAfter? (h : shapeAfter? shape code = some shape') {name : String}
    (hname : some name ∈ shape') : some name ∈ shape ∨ .text name ∈ code := by
  induction code generalizing shape with
  | nil =>
    obtain rfl := Option.some.inj h
    exact .inl hname
  | cons i code ih =>
    rcases ih (shapeAfter?_cons_eq_some_iff.mp h).2 with hmark | htext
    · refine (Instruction.mem_effect hmark).symm.imp_right fun hi => ?_
      cases i with
      | text s =>
        obtain rfl : name = s := Option.some.inj hi
        exact List.mem_cons_self
      | _ => exact nomatch hi
    · exact .inr (List.mem_cons_of_mem _ htext)

/-- Where accepted code assigns, a text from the code before lies under the value. -/
theorem shapeAfter?_before_store {before after : List Instruction}
    (h : shapeAfter? [] (before ++ .store :: after) = some shape') :
    ∃ value name rest, shapeAfter? [] before = some (value :: some name :: rest) ∧
      .text name ∈ before := by
  rw [shapeAfter?_append, Option.bind_eq_some_iff] at h
  obtain ⟨shape, hbefore, hstore⟩ := h
  obtain ⟨value, name, rest, rfl⟩ :=
    Instruction.accepts_store (shapeAfter?_cons_eq_some_iff.mp hstore).1
  have hname : some name ∈ value :: some name :: rest :=
    List.mem_cons_of_mem _ List.mem_cons_self
  exact ⟨value, name, rest, hbefore,
    (text_mem_of_shapeAfter? hbefore hname).resolve_left List.not_mem_nil⟩

end ShapeAfter

end Code

namespace Expr

open Code (shapeAfter? shapeAfter?_append shapeAfter?_cons shapeAfter?_append_below)

mutual

/-- The code of a complete expression puts one value on the stack. -/
theorem shapeAfter?_code (usual : Int64) : (e : Expr) → e.Complete →
    ∃ u, shapeAfter? [] (e.code usual) = some [u]
  | .int _, _ => ⟨none, rfl⟩
  | .usualSides, _ => ⟨none, rfl⟩
  | .text s, _ => ⟨some s, rfl⟩
  | .variable _, _ => ⟨none, rfl⟩
  | .template s parts, ⟨hlength, hparts⟩ => by
    obtain ⟨us, hus, hcode⟩ := shapeAfter?_codeOfParts usual parts hparts
    have hfill : (Instruction.fill s (placeholderTexts s)).shape? us = some [none] := by
      refine Instruction.shape?_eq_some_iff.mpr ⟨?_, ?_⟩
      · simp [Instruction.accepts, Instruction.operands, hus, hlength]
      · simp [Instruction.effect, Instruction.operands, Instruction.mark, hus, hlength]
    exact ⟨none, by simp [code, shapeAfter?_append, shapeAfter?_cons, hcode, hfill]⟩
  | .negate e, he => by
    obtain ⟨u, hu⟩ := shapeAfter?_code usual e he
    refine ⟨none, ?_⟩
    rw [code, shapeAfter?_append, hu]
    rfl
  | .binary op left right, ⟨hleft, hright⟩ => by
    obtain ⟨u, hu⟩ := shapeAfter?_code usual left hleft
    obtain ⟨v, hv⟩ := shapeAfter?_code usual right hright
    have hmark : Instruction.markLeft.shape? [u] = some [u] := rfl
    -- the right operand is evaluated above the left one
    have hboth : shapeAfter? [u] (right.code usual) = some [v, u] :=
      shapeAfter?_append_below hv [u]
    refine ⟨none, ?_⟩
    simp only [code, shapeAfter?_append, shapeAfter?_cons, hu, hmark, hboth, Option.bind_some]
    rfl
  | .die sides, hsides => by
    obtain ⟨u, hu⟩ := shapeAfter?_code usual sides hsides
    refine ⟨none, ?_⟩
    rw [code, shapeAfter?_append, hu]
    rfl
  | .dice count sides, ⟨hcount, hsides⟩ => by
    obtain ⟨u, hu⟩ := shapeAfter?_code usual count hcount
    obtain ⟨v, hv⟩ := shapeAfter?_code usual sides hsides
    have hboth : shapeAfter? [u] (sides.code usual) = some [v, u] :=
      shapeAfter?_append_below hv [u]
    refine ⟨none, ?_⟩
    simp only [code, shapeAfter?_append, hu, hboth, Option.bind_some]
    rfl
  | .assign name e, he => by
    obtain ⟨u, hu⟩ := shapeAfter?_code usual e he
    have hname : (Instruction.text name).shape? [] = some [some name] := rfl
    have hboth : shapeAfter? [some name] (e.code usual) = some [u, some name] :=
      shapeAfter?_append_below hu [some name]
    refine ⟨u, ?_⟩
    simp only [code, List.cons_append, shapeAfter?_append, shapeAfter?_cons, hname, hboth,
      Option.bind_some]
    rfl
  | .update op name e, he => by
    obtain ⟨u, hu⟩ := shapeAfter?_code usual e he
    have hload : (Instruction.load name).shape? [] = some [none] := rfl
    have hmark : Instruction.markLeft.shape? [none] = some [none] := rfl
    have hboth : shapeAfter? [none] (e.code usual) = some [u, none] :=
      shapeAfter?_append_below hu [none]
    refine ⟨none, ?_⟩
    -- the operator comes first; then the name is pushed and swapped below the new value
    simp only [code, List.cons_append, shapeAfter?_append, shapeAfter?_cons, hload, hmark, hboth,
      Option.bind_some]
    rfl

/-- The code of several complete expressions puts as many values on the stack. -/
theorem shapeAfter?_codeOfParts (usual : Int64) : (es : List Expr) → CompleteParts es →
    ∃ us, us.length = es.length ∧ shapeAfter? [] (codeOfParts usual es) = some us
  | [], _ => ⟨[], rfl, rfl⟩
  | e :: es, ⟨he, hes⟩ => by
    obtain ⟨u, hu⟩ := shapeAfter?_code usual e he
    obtain ⟨us, hus, hcode⟩ := shapeAfter?_codeOfParts usual es hes
    refine ⟨us ++ [u], by simp [hus], ?_⟩
    rw [codeOfParts, shapeAfter?_append, hu, Option.bind_some]
    exact shapeAfter?_append_below hcode [u]

end

end Expr

/-! ## Programs -/

/-- The code of the program, if it fits, puts one value on the empty stack. -/
def Program.LeavesOne (p : Program) : Prop :=
  p.fault? = none → ∃ u, Code.shapeAfter? [] p.code.toList = some [u]

theorem Expr.leavesOne_program (settings : CodeSettings) {e : Expr} (he : e.Complete) :
    (e.program settings).LeavesOne := by
  intro hfits
  obtain ⟨u, hu⟩ := shapeAfter?_code settings.usualSides e he
  refine ⟨u, ?_⟩
  rw [toList_code_program (Program.fault?_eq_none_iff.mp hfits), Code.shapeAfter?_append, hu]
  rfl

namespace CodeSettings

variable {settings : CodeSettings} {p : Program}

theorem leavesOne_of_programOf {text : String} {parsed : Except SyntaxFault Expr}
    (hcomplete : ∀ e, parsed = .ok e → e.Complete) (h : settings.programOf text parsed = .ok p) :
    p.LeavesOne := by
  obtain ⟨e, hparsed, rfl⟩ := programOf_eq_ok_iff.mp h
  exact Expr.leavesOne_program settings (hcomplete e hparsed)

theorem leavesOne_of_compile {source : String} (h : settings.compile source = .ok p) :
    p.LeavesOne := leavesOne_of_programOf (fun _ => Expr.complete_of_parse) h

theorem leavesOne_of_compileTemplate {text : String} (h : settings.compileTemplate text = .ok p) :
    p.LeavesOne := leavesOne_of_programOf (fun _ => Expr.complete_of_parseTemplate) h

end CodeSettings

end DiceBot
