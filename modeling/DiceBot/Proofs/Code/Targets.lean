import DiceBot.Proofs.Code.Shape

/-!
# What code assigns to

An assignment takes the name from the stack when it is carried out. All the same the names that code
assigns to can be told without running it, since the marks say which text lies under the assigned
value (`Code.targets`). In compiled code this is always a name in front of an assigning sign: these
names are those that the tree of the expression assigns to, one after the other (`Expr.targets`,
`Expr.targets_code`).
-/

namespace DiceBot

namespace Expr

mutual

/-- The names that an expression assigns to, in the order in which it does; those in the
placeholders of its templates are among them. -/
def targets : Expr → List String
  | .int _ | .usualSides | .text _ | .variable _ => []
  | .template _ parts => targetsOfParts parts
  | .negate e | .die e => targets e
  | .binary _ left right | .dice left right => targets left ++ targets right
  | .assign name e | .update _ name e => targets e ++ [name]

/-- The names that several expressions assign to. -/
def targetsOfParts : List Expr → List String
  | [] => []
  | e :: es => targets e ++ targetsOfParts es

end

end Expr

/-- The name that an instruction assigns to, as far as the marks tell. -/
def Instruction.target? : Instruction → List (Option String) → Option String
  | .store, _ :: some name :: _ => some name
  | _, _ => none

namespace Code

/-- The names that code assigns to, one after the other, as far as the marks tell. -/
def targets (shape : List (Option String)) : List Instruction → List String
  | [] => []
  | i :: code => (i.target? shape).toList ++ targets (i.effect i.mark shape) code

theorem targets_append {shape shape' : List (Option String)} {code : List Instruction}
    (h : shapeAfter? shape code = some shape') (code' : List Instruction) :
    targets shape (code ++ code') = targets shape code ++ targets shape' code' := by
  induction code generalizing shape with
  | nil =>
    obtain rfl := Option.some.inj h
    rfl
  | cons i code ih =>
    simp only [List.cons_append, targets, ih (shapeAfter?_cons_eq_some_iff.mp h).2,
      List.append_assoc]

end Code

namespace Expr

open Code (targets_append shapeAfter?_append_below)

/-- Above any marks the code of a complete expression adds one. -/
theorem shapeAfter?_code_above (usual : Int64) (e : Expr) (he : e.Complete)
    (shape : List (Option String)) :
    ∃ u, Code.shapeAfter? shape (e.code usual) = some (u :: shape) := by
  obtain ⟨u, hu⟩ := shapeAfter?_code usual e he
  exact ⟨u, shapeAfter?_append_below hu shape⟩

mutual

/-- The names told from the code of a complete expression are those of the tree. -/
theorem targets_code (usual : Int64) (shape : List (Option String)) :
    (e : Expr) → e.Complete → Code.targets shape (e.code usual) = e.targets
  | .int _, _ | .usualSides, _ | .text _, _ | .variable _, _ => rfl
  | .template s parts, ⟨_, hparts⟩ => by
    obtain ⟨us, -, hus⟩ := shapeAfter?_codeOfParts usual parts hparts
    have habove : Code.shapeAfter? shape (codeOfParts usual parts) = some (us ++ shape) :=
      shapeAfter?_append_below hus shape
    rw [code, targets_append habove, targets_codeOfParts usual shape parts hparts]
    exact List.append_nil _
  | .negate e, he | .die e, he => by
    obtain ⟨u, hu⟩ := shapeAfter?_code_above usual e he shape
    rw [code, targets_append hu, targets_code usual shape e he]
    exact List.append_nil _
  | .binary op left right, ⟨hleft, hright⟩ => by
    obtain ⟨u, hu⟩ := shapeAfter?_code_above usual left hleft shape
    obtain ⟨v, hv⟩ := shapeAfter?_code_above usual right hright (u :: shape)
    have hrest : Code.targets (u :: shape) (.markLeft :: right.code usual ++ [.binary op]) =
        right.targets := by
      show Code.targets (u :: shape) (right.code usual ++ [.binary op]) = right.targets
      rw [targets_append hv, targets_code usual (u :: shape) right hright]
      exact List.append_nil _
    rw [code, List.append_assoc, targets_append hu, targets_code usual shape left hleft, hrest]
    rfl
  | .dice count sides, ⟨hcount, hsides⟩ => by
    obtain ⟨u, hu⟩ := shapeAfter?_code_above usual count hcount shape
    obtain ⟨v, hv⟩ := shapeAfter?_code_above usual sides hsides (u :: shape)
    rw [code, List.append_assoc, targets_append hu, targets_append hv,
      targets_code usual shape count hcount, targets_code usual (u :: shape) sides hsides]
    exact congrArg (count.targets ++ ·) (List.append_nil _)
  | .assign name e, he => by
    -- the name lies under the value when the value is there
    obtain ⟨u, hu⟩ := shapeAfter?_code_above usual e he (some name :: shape)
    show Code.targets (some name :: shape) (e.code usual ++ [.store]) = e.targets ++ [name]
    rw [targets_append hu, targets_code usual (some name :: shape) e he]
    rfl
  | .update op name e, he => by
    -- the name is put on top of the new value and swapped with it
    obtain ⟨u, hu⟩ := shapeAfter?_code_above usual e he (none :: shape)
    show Code.targets (none :: shape) (e.code usual ++ [.binary op, .text name, .swap, .store]) =
      e.targets ++ [name]
    rw [targets_append hu, targets_code usual (none :: shape) e he]
    rfl

theorem targets_codeOfParts (usual : Int64) (shape : List (Option String)) :
    (es : List Expr) → CompleteParts es →
      Code.targets shape (codeOfParts usual es) = targetsOfParts es
  | [], _ => rfl
  | e :: es, ⟨he, hes⟩ => by
    obtain ⟨u, hu⟩ := shapeAfter?_code_above usual e he shape
    rw [codeOfParts, targets_append hu, targets_code usual shape e he,
      targets_codeOfParts usual (u :: shape) es hes]
    rfl

end

end Expr

/-! ## Code that assigns to allowed names -/

variable {allowed : String → Prop}

/-- Code that accepts the marks, and assigns to allowed names only. -/
structure Code.Confined (allowed : String → Prop) (shape : List (Option String))
    (code : List Instruction) : Prop where
  accepted : ∃ shape', shapeAfter? shape code = some shape'
  assigns : ∀ name ∈ targets shape code, allowed name

namespace Code.Confined

variable {shape : List (Option String)} {i : Instruction} {code : List Instruction}

theorem accepts (h : Confined allowed shape (i :: code)) : i.accepts shape = true := by
  obtain ⟨shape', hshape⟩ := h.accepted
  exact (shapeAfter?_cons_eq_some_iff.mp hshape).1

theorem tail (h : Confined allowed shape (i :: code)) :
    Confined allowed (i.effect i.mark shape) code := by
  obtain ⟨shape', hshape⟩ := h.accepted
  exact ⟨⟨shape', (shapeAfter?_cons_eq_some_iff.mp hshape).2⟩,
    fun name hname => h.assigns name (List.mem_append_right _ hname)⟩

/-- An assignment finds an allowed name under the value. -/
theorem exists_of_store (h : Confined allowed shape (.store :: code)) :
    ∃ value name rest, shape = value :: some name :: rest ∧ allowed name := by
  obtain ⟨value, name, rest, rfl⟩ := Instruction.accepts_store h.accepts
  exact ⟨value, name, rest, rfl, h.assigns name List.mem_cons_self⟩

end Code.Confined

/-- An expression that assigns to allowed names only has a program that does. -/
theorem Expr.confined_program (settings : CodeSettings) (e : Expr) (he : e.Complete)
    (h : ∀ name ∈ e.targets, allowed name) (hfits : (e.program settings).fault? = none) :
    Code.Confined allowed [] (e.program settings).code.toList := by
  obtain ⟨u, hu⟩ := shapeAfter?_code settings.usualSides e he
  obtain ⟨v, hv⟩ := leavesOne_program settings he hfits
  refine ⟨⟨[v], hv⟩, fun name hname => h name ?_⟩
  rw [toList_code_program (Program.fault?_eq_none_iff.mp hfits), Code.targets_append hu,
    targets_code settings.usualSides [] e he] at hname
  simpa [Code.targets, Instruction.target?] using hname

/-! ## Sources -/

/-- The names that what was read from a text assigns to, none if that is no expression. -/
def targetsOf : Except SyntaxFault Expr → List String
  | .ok e => e.targets
  | .error _ => []

/-- The names that a source assigns to. -/
def sourceTargets (source : String) : List String := targetsOf (Expr.parse source)

/-- The names that are assigned to in the placeholders of a text taken as a template. -/
def templateTargets (text : String) : List String := targetsOf (Expr.parseTemplate text)

namespace CodeSettings

variable {settings : CodeSettings} {p : Program}

theorem confined_of_programOf {text : String} {parsed : Except SyntaxFault Expr}
    (hcomplete : ∀ e, parsed = .ok e → e.Complete) (h : settings.programOf text parsed = .ok p)
    (hallowed : ∀ name ∈ targetsOf parsed, allowed name) (hfits : p.fault? = none) :
    Code.Confined allowed [] p.code.toList := by
  obtain ⟨e, rfl, rfl⟩ := programOf_eq_ok_iff.mp h
  exact e.confined_program settings (hcomplete e rfl) hallowed hfits

end CodeSettings

end DiceBot
