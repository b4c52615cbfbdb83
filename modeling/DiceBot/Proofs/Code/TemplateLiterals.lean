import DiceBot.Proofs.Code.Emission
import DiceBot.Proofs.Expr.Spelling
import DiceBot.Proofs.Expr.TwoReadings

/-!
# Template literals and whole templates

A text is a template as a whole, or as a literal between backticks in a source. As a literal it
starts one byte further to the right, and its placeholders are nested one level deeper. So both have
the same program or the same fault one byte apart, unless the literal runs out of levels
(`literal_agrees`).
-/

namespace DiceBot

open Text

/-! ## Tokens further to the right -/

/-- The token of a source that is placed that many bytes further to the right. -/
def Token.shift (d : Nat) (t : Token) : Token := ⟨t.kind, t.start + d, t.stop + d⟩

theorem tokensFrom_add (fuel start d : Nat) (cs : List Char) :
    tokensFrom fuel (start + d) cs = (tokensFrom fuel start cs).map (Token.shift d) := by
  induction fuel generalizing start cs with
  | zero => rfl
  | succ fuel ih =>
    rw [tokensFrom, tokensFrom, Nat.add_right_comm start d]
    cases cs.dropWhile isBlank with
    | nil => rfl
    | cons c rest =>
      dsimp only
      rw [Nat.add_right_comm _ d, ih]
      rfl

theorem tokenize_add (start d : Nat) (cs : List Char) :
    tokenize (start + d) cs = (tokenize start cs).map (Token.shift d) :=
  tokensFrom_add cs.length start d cs

namespace Expr

theorem peek_map_shift {us : List Token} (h : Ended us) (d : Nat) :
    peek (us.map (Token.shift d)) = (peek us).shift d := by
  obtain ⟨u, rest, rfl⟩ := h.exists_cons
  rfl

/-- The first reading is of a text one byte further to the right, and it gives up where it runs out
of levels. -/
def behindBacktick : Comparison where
  tokens ts us := ts = us.map (Token.shift 1) ∧ Ended us
  faults f f' := f = ⟨f'.cause, f'.offset + 1⟩
  givesUp f := f.cause = .tooDeep
  length_eq := by
    rintro ts us ⟨rfl, -⟩
    exact List.length_map _
  kind_eq := by
    rintro ts us ⟨rfl, hus⟩
    rw [peek_map_shift hus]
    rfl
  tail := by
    rintro ts us ⟨rfl, hus⟩ hkind
    exact ⟨List.map_tail.symm, hus.tail hkind⟩
  refused := by
    rintro ts us cause ⟨rfl, hus⟩ -
    rw [peek_map_shift hus]
    rfl
  hole := by
    rintro ts us s hole ⟨rfl, hus⟩ - -
    refine ⟨?_, ended_tokenize _ _⟩
    rw [peek_map_shift hus, ← tokenize_add]
    congr 1
    simp only [Token.shift]
    omega

/-! ## What a literal is read as -/

/-- A template with nothing behind it is read as a template by every rule on the way to it. -/
theorem assignmentRule_template (inner : Inner) (s : String) (start stop : Nat) {last : Token}
    (hlast : last.kind = .endOfInput) :
    assignmentRule inner [⟨.template s, start, stop⟩, last] =
      (parts inner (start + 1) (Hole.ofTemplate s)).map fun es => (.template s es, [last]) := by
  cases hparts : parts inner (start + 1) (Hole.ofTemplate s) with
  | error fault =>
    simp [assignmentRule, target?, sumRule, productRule, leftAssociative, operandRule, powerRule,
      diceRule, peek, primary, hparts, bind, Except.bind, Except.map]
  | ok es =>
    -- the end of input joins no chain
    simp [assignmentRule, target?, sumRule, productRule, leftAssociative, operandRule, powerRule,
      diceRule, peek, primary, hparts, hlast, bind, Except.bind, Except.map, pure, Except.pure,
      chain, joinsDice, joinsProduct, joinsSum]

theorem parse_literal {t : String} (ht : '\x60' ∉ t.toList) :
    parse ("`" ++ t ++ "`") =
      (parts (rules (maxNesting - 1)) 1 (Hole.ofTemplate t)).map (.template t) := by
  obtain ⟨c, more, htext, hc, hread⟩ := Lexeme.readsAs_template ht
  have hliteral : ("`" ++ t ++ "`").toList = c :: more := by
    rw [String.toList_append, String.toList_append, ← htext]
    rfl
  have hfirst : Lexeme.ofFirst c more = ⟨.template t, c :: more, []⟩ := by
    simpa using hread [] nofun
  have hexpression :
      (rules maxNesting).expression = assignmentRule (rules (maxNesting - 1)) := rfl
  unfold parse
  rw [hliteral, tokenize_of_ofFirst hc hfirst, hexpression, assignmentRule_template _ _ _ _ rfl]
  cases parts (rules (maxNesting - 1)) (0 + 1) (Hole.ofTemplate t) <;> rfl

theorem parseTemplate_eq (t : String) :
    parseTemplate t = (parts (rules maxNesting) 0 (Hole.ofTemplate t)).map (.template t) := by
  unfold parseTemplate
  cases parts (rules maxNesting) 0 (Hole.ofTemplate t) <;> rfl

theorem parse_literal_alike {t : String} (ht : '\x60' ∉ t.toList) :
    behindBacktick.Alike Eq (parse ("`" ++ t ++ "`")) (parseTemplate t) := by
  -- the literal is itself an expression, which takes one level
  have hrules : behindBacktick.InnerAlike (rules (maxNesting - 1)) (rules maxNesting) :=
    Comparison.rules_alike (Nat.sub_le _ _) fun _ _ => rfl
  have htokens : ∀ hole ∈ Hole.ofTemplate t,
      behindBacktick.tokens (tokenize (1 + hole.offset + 1) hole.inner)
        (tokenize (0 + hole.offset + 1) hole.inner) := by
    intro hole _
    refine ⟨?_, ended_tokenize _ _⟩
    rw [← tokenize_add]
    congr 1
    omega
  rw [parse_literal ht, parseTemplate_eq]
  refine (Comparison.parts_alike hrules.expression htokens).map ?_
  rintro es _ rfl
  rfl

end Expr

namespace CodeSettings

/-- A text without a backtick, as a literal and as a whole template. If the literal compiles, so
does the template, and to the same program. If it does not, but not for want of levels, the template
is refused with the same message one byte further to the left. And if only the template compiles,
the literal is nested too deeply. -/
theorem literal_agrees (settings : CodeSettings) (t : String) (ht : '\x60' ∉ t.toList) :
    (∀ p, settings.compile ("`" ++ t ++ "`") = .ok p → settings.compileTemplate t = .ok p) ∧
    ∀ fault, settings.compile ("`" ++ t ++ "`") = .error fault → ∃ message k,
      fault = ⟨.malformed message k, some { source := some ("`" ++ t ++ "`") }⟩ ∧
      (message ≠ SyntaxCause.tooDeep.message → ∃ offset, k = offset + 1 ∧
        settings.compileTemplate t =
          .error ⟨.malformed message offset, some { source := some t }⟩) ∧
      ∀ p, settings.compileTemplate t = .ok p → message = SyntaxCause.tooDeep.message := by
  have halike := Expr.parse_literal_alike ht
  unfold compile compileTemplate
  generalize Expr.parse ("`" ++ t ++ "`") = r at halike ⊢
  generalize Expr.parseTemplate t = r' at halike ⊢
  cases halike with
  | ok h =>
    subst h
    exact ⟨fun p hp => hp, fun fault hfault => nomatch hfault⟩
  | @error f f' h =>
    -- the same cause, one byte apart
    obtain rfl : f = ⟨f'.cause, f'.offset + 1⟩ := h
    refine ⟨fun p hp => (nomatch hp), fun fault hfault => ?_⟩
    obtain rfl := Except.error.inj hfault
    exact ⟨_, _, rfl, fun _ => ⟨_, rfl, rfl⟩, fun p hp => nomatch hp⟩
  | @lost f h =>
    refine ⟨fun p hp => (nomatch hp), fun fault hfault => ?_⟩
    obtain rfl := Except.error.inj hfault
    -- the literal has run out of levels, which says nothing of the template
    have hmessage : f.cause.message = SyntaxCause.tooDeep.message := congrArg _ h
    exact ⟨_, _, rfl, fun hne => absurd hmessage hne, fun _ _ => hmessage⟩

/-- The second placeholder holds no expression. -/
theorem literal_agrees_second_placeholder :
    let settings : CodeSettings := {}
    let message := "expected a value, found end of input"
    (∃ place, settings.compile "`力\x7bd\x7d\x7b1+\x7d`" = .error ⟨.malformed message 10, place⟩) ∧
      settings.compileTemplate "力\x7bd\x7d\x7b1+\x7d" =
        .error ⟨.malformed message 9, some { source := some "力\x7bd\x7d\x7b1+\x7d" }⟩ := by
  intro settings message
  obtain ⟨-, hrefused⟩ := literal_agrees settings "力\x7bd\x7d\x7b1+\x7d" (by decide)
  cases hcompile : settings.compile "`力\x7bd\x7d\x7b1+\x7d`" with
  | ok p => exact nomatch hcompile
  | error fault =>
    obtain ⟨message', k, rfl, htemplate, -⟩ := hrefused fault hcompile
    have hliteral : message' = message ∧ k = 10 := by
      cases hcompile
      exact ⟨rfl, rfl⟩
    obtain ⟨rfl, rfl⟩ := hliteral
    obtain ⟨offset, hoffset, hleft⟩ := htemplate (by decide)
    obtain rfl : offset = 9 := (Nat.succ.inj hoffset).symm
    exact ⟨⟨_, rfl⟩, hleft⟩

end CodeSettings

end DiceBot
