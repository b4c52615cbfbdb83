import DiceBot.Code.Compile
import DiceBot.Proofs.Expr.Completeness

/-!
# Compilation accepts the grammar

A source is compiled exactly when it is derived in the grammar within the nesting levels, and its
program is the postfix code of the tree that it is derived with. That tree is the only one, however
many levels are allowed, so the limit on nesting refuses sources but never reads one differently.
-/

namespace DiceBot

open Grammar

namespace Grammar

open DiceBot.Expr

/-- The tokens of a text are those of its sentence and the end of input. -/
theorem exists_tokenize_eq (start : Nat) (cs : List Char) :
    ∃ front last, tokenize start cs = front ++ [last] ∧ last.kind = .endOfInput ∧
      front.map Token.kind = sentence cs := by
  obtain ⟨front, last, heq, hlast, -⟩ := tokenize_eq_append start cs
  refine ⟨front, last, heq, hlast, ?_⟩
  rw [sentence, map_kind_tokenize 0 start, heq]
  simp

/-- A source has a tree exactly when the tree is derived within the nesting levels. -/
theorem parse_eq_ok_iff {source : String} {e : Expr} :
    parse source = .ok e ↔ Derives maxNesting .expression (sentence source.toList) e := by
  constructor
  · intro h
    obtain ⟨⟨e', rest⟩, hread, h⟩ := ok_of_bind h
    obtain ⟨⟨⟩, hend, h⟩ := ok_of_bind h
    obtain rfl : e' = e := Except.ok.inj h
    obtain ⟨front, heq, hd⟩ := (rules_readsOnly maxNesting).expression hread
    rw [map_kind_eq_sentence heq hd.endOfInput_notMem hend] at hd
    exact hd
  · intro hd
    obtain ⟨front, last, heq, hlast, hfront⟩ := exists_tokenize_eq 0 source.toList
    have hend : (peek [last]).kind = .endOfInput := hlast
    rw [← hfront] at hd
    have hread : (rules maxNesting).expression (front ++ [last]) = .ok (e, [last]) :=
      hd.rule_eq (by rw [hend]; decide)
    rw [parse, heq, hread]
    simp only [bind, Except.bind, expectEnd, hend]
    rfl

example : parse "d d6" = .ok (.dice (.die .usualSides) (.int 6)) := rfl

/-- A sentence is derived with at most one tree, whatever the levels. -/
theorem Derives.tree_unique {n m : Nat} {s : Nonterminal} {ks : List TokenKind} {e e' : Expr}
    (h : Derives n s ks e) (h' : Derives m s ks e') : e = e' := by
  -- both derivations are read by the rules with levels enough for the two, from any tokens
  -- of these kinds
  let front : List Token := ks.map fun k => ⟨k, 0, 0⟩
  have hfront : front.map Token.kind = ks := by
    simp only [front, List.map_map]
    exact List.map_id ks
  have hbound : s.bound ≤ looseness (peek []).kind := by
    cases s <;> decide
  have hread := ((h.mono (Nat.le_max_left n m)).reads hfront).rule_eq hbound
  have hread' := ((h'.mono (Nat.le_max_right n m)).reads hfront).rule_eq hbound
  rw [hread] at hread'
  exact congrArg Prod.fst (Except.ok.inj hread')

end Grammar

namespace CodeSettings

section ProgramOf

variable {settings : CodeSettings} {text : String} {parsed : Except SyntaxFault Expr}

/-- What a text is compiled to, as a source or as a template, is the program of its tree. -/
theorem programOf_eq_ok_iff {p : Program} :
    settings.programOf text parsed = .ok p ↔ ∃ e, parsed = .ok e ∧ p = e.program settings := by
  cases parsed with
  | error fault => simp [programOf]
  | ok e => simp [programOf, eq_comm]

/-- A text is refused for its syntax alone. -/
theorem programOf_eq_error_iff {fault : Fault} :
    settings.programOf text parsed = .error fault ↔
      ∃ syntaxFault, parsed = .error syntaxFault ∧ fault = syntaxFault.toFault text := by
  cases parsed with
  | error syntaxFault => simp [programOf, eq_comm]
  | ok e => simp [programOf]

end ProgramOf

/-- Compilation accepts exactly the sources that the grammar derives within 64 nesting levels, and
gives the postfix code of the tree, followed by `halt`. No source has a second tree, not even one
nested deeper. What is refused is refused as no expression. -/
theorem compile_iff_derives (settings : CodeSettings) (source : String) :
    (∀ p, settings.compile source = .ok p ↔
      ∃ e, Derives 64 .expression (sentence source.toList) e ∧
        p = (Program.empty settings.capacity).emitAll (e.code settings.usualSides ++ [.halt])) ∧
    (∀ n e e', Derives 64 .expression (sentence source.toList) e →
      Derives n .expression (sentence source.toList) e' → e' = e) ∧
    (∀ fault, settings.compile source = .error fault →
      fault.code = "E2" ∧ ∃ message offset, fault.cause = .malformed message offset) := by
  refine ⟨fun p => ?_, fun n e e' h h' => h'.tree_unique h, fun fault h => ?_⟩
  · rw [compile, programOf_eq_ok_iff]
    simp only [parse_eq_ok_iff, Expr.maxNesting, Expr.program]
  · obtain ⟨syntaxFault, -, rfl⟩ := programOf_eq_error_iff.mp h
    exact ⟨rfl, _, _, rfl⟩

end CodeSettings

end DiceBot
