import DiceBot.Proofs.Machine.Details

/-!
# The trace of a chain of operators

A chain `a₀ op₁ a₁ … opₙ aₙ` is a tree whose left spine is made of operators. Its code evaluates the
operands in turn, and each operator is executed with its result at the bottom of the stack, so all
of them are shown and none of those inside the operands.

* `Machine.ok_of_link`: what one link of the chain does to the frame.
* `Machine.ok_of_links`: behind the first link, every link shows its operator and operand and the
  details of the operand, by induction on the links.
* `Machine.trace_of_chain`: the trace in words, for every source that spells a chain.
-/

namespace DiceBot

/-- An operand as a trace shows it: an integer, and the details of its evaluation. -/
structure Operand where
  number : Int64
  details : List Detail

namespace Operand

/-- What an operand evaluated to. -/
def outcome (a : Operand) : Value × List Detail := (.int a.number, a.details)

/-- The number of an operand in words. -/
def spelled (a : Operand) : String := toString a.number.toInt

/-- The details of an operand in brackets, if there are any. -/
def bracketed (a : Operand) : String :=
  if a.details = [] then ""
  else "[" ++ String.intercalate "," (a.details.map Detail.render) ++ "]"

end Operand

/-- An operator of a chain with its right operand, in words. The sign of a power is `**`. -/
def linkText (link : Operator × Operand) : String :=
  " " ++ link.1.symbol ++ " " ++ link.2.spelled

/-- A chain in words: the first operand, and each operator with its right operand, every operand
followed by its details. In a bare beginning the first operand is without details, and those of the
second are written only if there is a third one. -/
def chainText (bare : Bool) (first : Operand) (links : List (Operator × Operand)) : String :=
  let detailed := fun link => linkText link ++ link.2.bracketed
  match bare, links with
  | true, [link] => first.spelled ++ linkText link
  | true, link :: more =>
      first.spelled ++ linkText link ++ link.2.bracketed ++ String.join (more.map detailed)
  | _, links => first.spelled ++ first.bracketed ++ String.join (links.map detailed)

/-- The result of the operators of a chain, from left to right. -/
def chainResult (n : Int64) (links : List (Operator × Operand)) : Except Cause Int64 :=
  links.foldlM (fun n link => link.1.apply n link.2.number) n

namespace Expr

/-- A chain of operators, nested to the left. -/
def leftChain (first : Expr) (links : List (Operator × Expr)) : Expr :=
  links.foldl (fun left link => .binary link.1 left link.2) first

/-- The code of the links of a chain. -/
def codeOfLinks (usual : Int64) (links : List (Operator × Expr)) : List Instruction :=
  links.flatMap fun link => .markLeft :: link.2.code usual ++ [.binary link.1]

theorem code_leftChain (usual : Int64) (first : Expr) (links : List (Operator × Expr)) :
    (leftChain first links).code usual = first.code usual ++ codeOfLinks usual links := by
  induction links generalizing first with
  | nil => simp [leftChain, codeOfLinks]
  | cons link links ih =>
    have hchain : leftChain first (link :: links) = leftChain (.binary link.1 first link.2) links := rfl
    rw [hchain, ih, code]
    simp [codeOfLinks]

theorem complete_leftChain {first : Expr} {links : List (Operator × Expr)} :
    (leftChain first links).Complete ↔ first.Complete ∧ ∀ link ∈ links, link.2.Complete := by
  induction links generalizing first with
  | nil => simp [leftChain]
  | cons link links ih =>
    have hchain : leftChain first (link :: links) = leftChain (.binary link.1 first link.2) links := rfl
    rw [hchain, ih, Complete]
    simp [and_assoc]

/-- Do the first two operands of a chain contain no operators and no counted dice? -/
def startsBare (usual : Int64) (first : Expr) (links : List (Operator × Expr)) : Bool :=
  ((first :: links.map Prod.snd).take 2).all (·.operators usual = 0)

end Expr

/-! ## What a link shows -/

namespace Trace

/-- A link behind a chain that has begun: its operator and operand, with the operand's details. -/
def piecesOf (link : Operator × Operand) : List TracePiece :=
  .operator link.1 link.2.number :: bracket link.2.details

/-- The links behind others, of which some details are still to be shown. -/
def piecesBehind (pending : List Detail) (links : List (Operator × Operand)) : List TracePiece :=
  if links = [] then [] else bracket pending ++ links.flatMap piecesOf

@[simp] theorem piecesBehind_nil (links : List (Operator × Operand)) :
    piecesBehind [] links = links.flatMap piecesOf := by
  cases links <;> rfl

/-- What is shown of a chain. -/
def piecesOfChain (bare : Bool) (first : Operand) (links : List (Operator × Operand)) :
    List TracePiece :=
  match bare, links with
  | true, link :: more =>
      .operand first.number :: .operator link.1 link.2.number ::
        piecesBehind link.2.details more
  | _, links => .operand first.number :: bracket first.details ++ links.flatMap piecesOf

variable (t : Trace) (link : Operator × Operand)

/-- The trace at the bottom of the stack after one more link, whose operand has so many operators
of its own. -/
def afterLink (left : Int64) (n : Nat) : Trace :=
  ((t.markLeft 1).pass link.2.details n).operator link.1 left link.2.number 1

/-- A link behind others shows first what is left of the details of the one before. -/
theorem afterLink_of_begun (left : Int64) (n : Nat) (hbegun : t.shown ≠ [])
    (hcounted : t.operators ≠ 0) :
    (t.afterLink link left n).shown = t.shown ++ bracket t.pending ++ piecesOf link ∧
      (t.afterLink link left n).pending = [] ∧ (t.afterLink link left n).operators ≠ 0 := by
  have hmore : ¬(t.operators = 0 ∧ n = 0) := fun h => hcounted h.1
  simp [afterLink, markLeft, pass, operator, count, piecesOf, hbegun, hmore]

/-- The first link has begun the chain. If there was no operator before it, it shows no details, and
those of its right operand are left for the link behind it. -/
theorem afterLink_first (left : Int64) (ds : List Detail) (k n : Nat) :
    let t := (({} : Trace).pass ds k).afterLink link left n
    t.shown ≠ [] ∧ t.operators ≠ 0 ∧ ∀ links,
      t.shown ++ piecesBehind t.pending links =
        piecesOfChain (decide (k + n = 0)) ⟨left, ds⟩ (link :: links) := by
  by_cases h : k = 0 ∧ n = 0
  · obtain ⟨rfl, rfl⟩ := h
    simp [afterLink, markLeft, pass, operator, count, piecesOfChain]
  · simp [afterLink, markLeft, pass, operator, count, piecesOfChain, piecesOf, h]

/-! ### Pieces in words -/

/-- Several pieces in words. -/
def textOf (pieces : List TracePiece) : String := String.join (pieces.map TracePiece.render)

@[simp] theorem textOf_nil : textOf [] = "" := rfl

@[simp] theorem textOf_cons (piece : TracePiece) (pieces : List TracePiece) :
    textOf (piece :: pieces) = piece.render ++ textOf pieces := by
  simp [textOf]

@[simp] theorem textOf_append (pieces pieces' : List TracePiece) :
    textOf (pieces ++ pieces') = textOf pieces ++ textOf pieces' := by
  simp [textOf]

@[simp] theorem textOf_bracket (a : Operand) : textOf (bracket a.details) = a.bracketed := by
  unfold Operand.bracketed
  cases a.details with
  | nil => rfl
  | cons d ds => simp [bracket, TracePiece.render]

theorem textOf_piecesOf (links : List (Operator × Operand)) :
    textOf (links.flatMap piecesOf) =
      String.join (links.map fun link => linkText link ++ link.2.bracketed) := by
  induction links with
  | nil => rfl
  | cons link links ih =>
    simp [ih, piecesOf, TracePiece.render, linkText, Operand.spelled, String.append_assoc]

theorem textOf_piecesOfChain (bare : Bool) (first : Operand) (links : List (Operator × Operand)) :
    textOf (piecesOfChain bare first links) = chainText bare first links := by
  cases bare with
  | false =>
    simp [piecesOfChain, chainText, textOf_piecesOf, TracePiece.render, Operand.spelled,
      String.append_assoc]
  | true =>
    match links with
    | [] => simp [piecesOfChain, chainText, TracePiece.render, Operand.spelled]
    | [link] =>
      simp [piecesOfChain, piecesBehind, chainText, linkText, TracePiece.render, Operand.spelled]
    | link :: link' :: more =>
      have hpieces : piecesOfChain true first (link :: link' :: more) =
          .operand first.number :: .operator link.1 link.2.number ::
            (bracket link.2.details ++ (link' :: more).flatMap piecesOf) := rfl
      rw [hpieces, textOf_cons, textOf_cons, textOf_append, textOf_bracket, textOf_piecesOf]
      simp [chainText, linkText, TracePiece.render, Operand.spelled, String.append_assoc]

end Trace

/-! ## Running a chain -/

theorem Eval.ok_of_ofCause_bind {δ γ α β : Type} {result : Except Cause α} {f : α → Eval δ γ β}
    {b : β} {w w' : World δ γ} (h : (Eval.ofCause result >>= f) w = .ok b w') :
    ∃ a, result = .ok a ∧ f a w = .ok b w' := by
  cases result with
  | ok a => exact ⟨a, rfl, h⟩
  | error cause => exact nomatch h

theorem Eval.mapM_cons_of_ok {δ γ α β : Type} {f : α → Eval δ γ β} {a : α} {as : List α} {b : β}
    {bs : List β} {w v w' : World δ γ} (hfirst : f a w = .ok b v)
    (hmore : as.mapM f v = .ok bs w') : (a :: as).mapM f w = .ok (b :: bs) w' := by
  rw [List.mapM_cons, bind_of_ok hfirst, bind_of_ok hmore]
  rfl

/-- Only an integer is an operand. -/
theorem Value.eq_int_of_operand {operator : String} {v : Value} {n : Int64}
    (h : v.operand operator = .ok n) : v = .int n := by
  cases v with
  | int k => rw [Except.ok.inj h]
  | _ => exact nomatch h

variable {δ γ : Type} [DiceSource δ] [Variables γ]

namespace Machine

variable {m : Machine} {load : String → Eval δ γ Value} {usual : Int64} {forceMax : Bool}
variable {w w' : World δ γ}

/-- One link of a chain, executed with the value of the chain before it at the bottom of the
stack. -/
theorem ok_of_link {op : Operator} {e : Expr} (he : e.Complete) {v : Value} {t : Trace} {f : Frame}
    (h : m.runCode load forceMax (.markLeft :: e.code usual ++ [.binary op]) ⟨[v], t⟩ w =
      .ok f w') :
    ∃ (left : Int64) (right : Operand) (n : Int64), v = .int left ∧
      e.noted m load usual forceMax w = .ok right.outcome w' ∧
      op.apply left right.number = .ok n ∧
      f = ⟨[.int n], t.afterLink (op, right) left (e.operators usual)⟩ := by
  have hcode : m.runCode load forceMax (.markLeft :: e.code usual ++ [.binary op]) ⟨[v], t⟩ =
      e.noted m load usual forceMax >>= fun right => m.step load forceMax (.binary op)
        ⟨[right.1, v], (t.markLeft 1).pass right.2 (e.operators usual)⟩ := by
    have hmark : m.step load forceMax .markLeft ⟨[v], t⟩ = pure ⟨[v], t.markLeft 1⟩ := rfl
    simp [hmark, runCode_append, Expr.runCode_code m load usual forceMax e he [v]]
  rw [hcode] at h
  obtain ⟨⟨b, ds⟩, w₁, hnoted, hstep⟩ := Eval.ok_of_bind h
  simp only [step] at hstep
  obtain ⟨left, hleft, hstep⟩ := Eval.ok_of_ofCause_bind hstep
  obtain ⟨right, hright, hstep⟩ := Eval.ok_of_ofCause_bind hstep
  obtain ⟨n, hresult, hpure⟩ := Eval.ok_of_ofCause_bind hstep
  obtain rfl := Value.eq_int_of_operand hleft
  obtain rfl := Value.eq_int_of_operand hright
  cases hpure
  exact ⟨left, ⟨right, ds⟩, n, rfl, hnoted, hresult, rfl⟩

/-- The links behind the first one. -/
theorem ok_of_links {links : List (Operator × Expr)} (hlinks : ∀ link ∈ links, link.2.Complete)
    {left : Int64} {t : Trace} {f : Frame} (hbegun : t.shown ≠ []) (hcounted : t.operators ≠ 0)
    (h : m.runCode load forceMax (Expr.codeOfLinks usual links) ⟨[.int left], t⟩ w = .ok f w') :
    ∃ (shown : List (Operator × Operand)) (n : Int64),
      shown.map Prod.fst = links.map Prod.fst ∧
      (links.map Prod.snd).mapM (·.noted m load usual forceMax) w =
        .ok (shown.map fun link => link.2.outcome) w' ∧
      chainResult left shown = .ok n ∧ f.stack = [.int n] ∧
      f.trace.shown = t.shown ++ Trace.piecesBehind t.pending shown := by
  induction links generalizing left t w with
  | nil =>
    cases h
    exact ⟨[], left, rfl, rfl, rfl, rfl, by simp [Trace.piecesBehind]⟩
  | cons link links ih =>
    obtain ⟨hlink, hlinks⟩ := List.forall_mem_cons.mp hlinks
    have hcode : Expr.codeOfLinks usual (link :: links) =
        (.markLeft :: link.2.code usual ++ [.binary link.1]) ++ Expr.codeOfLinks usual links := rfl
    rw [hcode, runCode_append] at h
    obtain ⟨f₁, w₁, hfirst, hrest⟩ := Eval.ok_of_bind h
    obtain ⟨left', right, n, hleft, hnoted, hresult, rfl⟩ := ok_of_link hlink hfirst
    obtain rfl : left = left' := Value.int.inj hleft
    obtain ⟨hshown, hpending, hoperators⟩ := t.afterLink_of_begun (link.1, right) left
      (link.2.operators usual) hbegun hcounted
    obtain ⟨shown, k, hops, hmore, hk, hstack, htrace⟩ := ih hlinks
      (by rw [hshown]; simp [hbegun]) hoperators hrest
    refine ⟨(link.1, right) :: shown, k, by simp [hops], ?_, ?_, hstack, ?_⟩
    · exact Eval.mapM_cons_of_ok hnoted hmore
    · rw [chainResult, List.foldlM_cons, hresult]
      exact hk
    · rw [htrace, hpending, Trace.piecesBehind_nil, hshown]
      simp [Trace.piecesBehind]

/-- The code of a chain of at least one operator, run from an empty frame. -/
theorem ok_of_leftChain {first : Expr} {links : List (Operator × Expr)} (hlinks : links ≠ [])
    (hcomplete : (Expr.leftChain first links).Complete) (hfirst : first.isPlain = true) {f : Frame}
    (h : m.runCode load forceMax ((Expr.leftChain first links).code usual) {} w = .ok f w') :
    ∃ (a : Operand) (shown : List (Operator × Operand)) (n : Int64),
      shown.map Prod.fst = links.map Prod.fst ∧
      (first :: links.map Prod.snd).mapM (·.noted m load usual forceMax) w =
        .ok (a.outcome :: shown.map fun link => link.2.outcome) w' ∧
      chainResult a.number shown = .ok n ∧ f.stack = [.int n] ∧
      f.trace.render = chainText (Expr.startsBare usual first links) a shown := by
  obtain ⟨hfirstComplete, hcomplete⟩ := Expr.complete_leftChain.mp hcomplete
  obtain ⟨link, links, rfl⟩ := List.exists_cons_of_ne_nil hlinks
  obtain ⟨hlink, hmore⟩ := List.forall_mem_cons.mp hcomplete
  have hcode : Expr.codeOfLinks usual (link :: links) =
      (.markLeft :: link.2.code usual ++ [.binary link.1]) ++ Expr.codeOfLinks usual links := rfl
  rw [Expr.code_leftChain, hcode, runCode_append,
    Expr.runCode_code m load usual forceMax first hfirstComplete [] {} (.inr hfirst)] at h
  obtain ⟨f₀, w₀, hrun₀, hrest⟩ := Eval.ok_of_bind h
  obtain ⟨⟨v, ds⟩, hnoted₀, rfl⟩ := Eval.ok_of_map hrun₀
  rw [runCode_append] at hrest
  obtain ⟨f₁, w₁, hrun₁, hrest⟩ := Eval.ok_of_bind hrest
  obtain ⟨left, right, n, rfl, hnoted₁, hresult, rfl⟩ := ok_of_link hlink hrun₁
  have hbare : Expr.startsBare usual first (link :: links) =
      decide (first.operators usual + link.2.operators usual = 0) := by
    simp [Expr.startsBare]
  -- the first link is shown without its details; behind it the trace has begun
  obtain ⟨hbegun, hcounted, hpieces⟩ := Trace.afterLink_first (link.1, right) left ds
    (first.operators usual) (link.2.operators usual)
  obtain ⟨shown, k, hops, hnoted, hk, hstack, htrace⟩ := ok_of_links hmore hbegun hcounted hrest
  refine ⟨⟨left, ds⟩, (link.1, right) :: shown, k, by simp [hops], ?_, ?_, hstack, ?_⟩
  · exact Eval.mapM_cons_of_ok hnoted₀ (Eval.mapM_cons_of_ok hnoted₁ hnoted)
  · rw [chainResult, List.foldlM_cons, hresult]
    exact hk
  · rw [← Trace.textOf_piecesOfChain, hbare, ← hpieces, ← htrace]
    rfl

/-- A program of an expression that has a result has run the code of the expression. -/
theorem ok_of_evaluate_program {settings : CodeSettings} {e : Expr} {result : Evaluation}
    (h : m.evaluate ((e.program settings).withForceMax forceMax) w = .ok result w') :
    ∃ f, m.runCode m.load forceMax (e.code settings.usualSides) {} { w with charged := 0 } =
      .ok f w' ∧ result = ⟨f.result, f.trace⟩ := by
  rw [evaluate, Eval.modify_bind, runProgram] at h
  cases hfault : ((e.program settings).withForceMax forceMax).fault? with
  | some fault =>
    simp only [hfault] at h
    cases h
  | none =>
    simp only [hfault] at h
    have hfits : (e.program settings).overflowed = false := Program.fault?_eq_none_iff.mp hfault
    have hcode : ((e.program settings).withForceMax forceMax).code.toList =
        e.code settings.usualSides ++ [.halt] := Expr.toList_code_program hfits
    rw [hcode, runCode_append] at h
    obtain ⟨f', v, hrun, hpure⟩ := Eval.ok_of_bind h
    cases hpure
    obtain ⟨f, v', hrun, hhalt⟩ := Eval.ok_of_bind hrun
    cases hhalt
    exact ⟨f', hrun, rfl⟩

/-- The trace of a chain of operators. Let a source spell the chain `first op₁ a₁ … opₙ aₙ` with at
least one operator and none inside `first`, and let its evaluation succeed. Then the operands,
evaluated one after the other from the same dice and variables, are integers and leave the dice and
variables that the evaluation leaves; the trace is the chain in words, with their numbers and with
what the evaluation of each noted; and reading the operators off from left to right gives the
result. -/
theorem trace_of_chain {settings : CodeSettings} {source : String} {p : Program} {first : Expr}
    {links : List (Operator × Expr)} {w w' : World δ γ} {result : Evaluation}
    (hp : settings.compile source = .ok p)
    (htree : Expr.parse source = .ok (Expr.leftChain first links)) (hlinks : links ≠ [])
    (hfirst : first.isPlain = true)
    (hrun : m.evaluate (p.withForceMax forceMax) w = .ok result w') :
    ∃ (a : Operand) (shown : List (Operator × Operand)) (n : Int64),
      shown.map Prod.fst = links.map Prod.fst ∧
      (first :: links.map Prod.snd).mapM (·.noted m m.load settings.usualSides forceMax)
          { w with charged := 0 } = .ok (a.outcome :: shown.map fun link => link.2.outcome) w' ∧
      result.trace.render =
        chainText (Expr.startsBare settings.usualSides first links) a shown ∧
      chainResult a.number shown = .ok n ∧ result.value = .int n := by
  obtain ⟨e, hparse, rfl⟩ := CodeSettings.programOf_eq_ok_iff.mp hp
  obtain rfl : Expr.leftChain first links = e := Except.ok.inj (htree.symm.trans hparse)
  obtain ⟨f, hcode, rfl⟩ := ok_of_evaluate_program hrun
  obtain ⟨a, shown, n, hops, hnoted, hn, hstack, htrace⟩ :=
    ok_of_leftChain hlinks (Expr.complete_of_parse htree) hfirst hcode
  refine ⟨a, shown, n, hops, hnoted, htrace, hn, ?_⟩
  show f.result = .int n
  rw [Frame.result, hstack]
  rfl

/-- The details of the second operand come before the third one if the chain begins without
operators. -/
theorem trace_of_chain_mixed :
    let links : List (Operator × Expr) :=
      [(.add, .variable "bonus"), (.sub, .dice (.int 2) (.int 6))]
    let w : World ScriptedDice VariableMap :=
      ⟨⟨[3, 5]⟩, (∅ : VariableMap).insert "bonus" (.int 3), 0⟩
    ∃ p result w' a shown n,
      ({} : CodeSettings).compile "1+bonus-2d6" = .ok p ∧
      ({} : Machine).evaluate (p.withForceMax false) w = .ok result w' ∧
      result.trace.render = "1 + 3[bonus=3] - 8[2d6=8]" ∧
      result.trace.render = chainText (Expr.startsBare 100 (.int 1) links) a shown ∧
      chainResult a.number shown = .ok n ∧ result.value = .int n := by
  intro links w
  let p : Program := (Expr.leftChain (.int 1) links).program {}
  have htext : (match ({} : Machine).evaluate (p.withForceMax false) w with
      | .ok result _ => result.trace.render
      | .error _ _ => "") = "1 + 3[bonus=3] - 8[2d6=8]" := by
    decide +kernel
  cases hrun : ({} : Machine).evaluate (p.withForceMax false) w with
  | error fault w' =>
    rw [hrun] at htext
    have hempty : "" = "1 + 3[bonus=3] - 8[2d6=8]" := htext
    exact absurd hempty (by decide)
  | ok result w' =>
    rw [hrun] at htext
    have hp : ({} : CodeSettings).compile "1+bonus-2d6" = .ok p := rfl
    have htree : Expr.parse "1+bonus-2d6" = .ok (Expr.leftChain (.int 1) links) := rfl
    obtain ⟨a, shown, n, -, -, htrace, hn, hvalue⟩ :=
      trace_of_chain hp htree (by simp [links]) rfl hrun
    exact ⟨p, result, w', a, shown, n, hp, hrun, htext, htrace, hn, hvalue⟩

end Machine

end DiceBot
