import DiceBot.Expr.Lexer

/-!
# The token list of a text

What holds of `tokenize` for every text, whatever its tokens are.

* `tokenize_eq_append`: the list ends with the end of input, which stands nowhere else in it.
* `map_kind_tokenize`: where a text starts decides its offsets, not the kinds of its tokens.
-/

namespace DiceBot

namespace Lexeme

/-- An operator has one of its two kinds. -/
theorem orAssign_kind_ne {plain assigning kind : TokenKind} (hplain : plain ≠ kind)
    (hassigning : assigning ≠ kind) (c : Char) (cs : List Char) :
    (orAssign plain assigning c cs).kind ≠ kind := by
  fun_cases orAssign plain assigning c cs with
  | case1 => exact hassigning
  | case2 => exact hplain

/-- A literal is a token of its own kind or reports a fault. -/
theorem toLexeme_kind_ne {kind : String → TokenKind} (hkind : ∀ s, kind s ≠ .endOfInput)
    (quote : Char) (l : Literal) : (l.toLexeme quote kind).kind ≠ .endOfInput := by
  simp only [Literal.toLexeme]
  cases l.content with
  | ok content => exact hkind _
  | error fault => nofun

/-- What starts with a character is not the end of input. -/
theorem ofFirst_kind_ne (c : Char) (cs : List Char) : (ofFirst c cs).kind ≠ .endOfInput := by
  unfold ofFirst
  split
  case h_6 => exact orAssign_kind_ne (by decide) (by decide) _ cs
  case h_7 => exact orAssign_kind_ne (by decide) (by decide) _ cs
  case h_8 => exact orAssign_kind_ne (by decide) (by decide) _ cs
  case h_9 =>
    split
    · nofun
    · exact orAssign_kind_ne (by decide) (by decide) _ cs
  case h_10 => exact toLexeme_kind_ne (by simp) _ _
  case h_11 => exact toLexeme_kind_ne (by simp) _ _
  case h_12 =>
    split
    · simp only [run, intKind]
      split <;> nofun
    · split
      · nofun
      · split <;> nofun
  all_goals nofun

end Lexeme

/-- Behind white space a token is read, and the other tokens from where it ends. -/
theorem tokensFrom_of_dropWhile_eq_cons {cs rest : List Char} {c : Char}
    (h : cs.dropWhile Text.isBlank = c :: rest) (fuel start : Nat) :
    ∃ first stop, tokensFrom (fuel + 1) start cs =
      ⟨(Lexeme.ofFirst c rest).kind, first, stop⟩ ::
        tokensFrom fuel stop (Lexeme.ofFirst c rest).rest := by
  rw [tokensFrom, h]
  exact ⟨_, _, rfl⟩

/-- Behind the last token there is the end of input. -/
theorem tokensFrom_of_dropWhile_eq_nil {cs : List Char} (h : cs.dropWhile Text.isBlank = [])
    (fuel start : Nat) :
    ∃ stop, tokensFrom (fuel + 1) start cs = [⟨.endOfInput, stop, stop⟩] := by
  rw [tokensFrom, h]
  exact ⟨_, rfl⟩

theorem tokensFrom_eq_append (fuel start : Nat) (cs : List Char) :
    ∃ ts last, tokensFrom fuel start cs = ts ++ [last] ∧ last.kind = .endOfInput ∧
      ∀ t ∈ ts, t.kind ≠ .endOfInput := by
  induction fuel generalizing start cs with
  | zero => exact ⟨[], _, rfl, rfl, by simp⟩
  | succ fuel ih =>
    cases h : cs.dropWhile Text.isBlank with
    | nil =>
      obtain ⟨stop, heq⟩ := tokensFrom_of_dropWhile_eq_nil h fuel start
      exact ⟨[], _, heq, rfl, by simp⟩
    | cons c rest =>
      obtain ⟨first, stop, heq⟩ := tokensFrom_of_dropWhile_eq_cons h fuel start
      obtain ⟨ts, last, hrest, hlast, hts⟩ := ih stop (Lexeme.ofFirst c rest).rest
      refine ⟨_ :: ts, last, by rw [heq, hrest, List.cons_append], hlast, ?_⟩
      intro t ht
      rcases List.mem_cons.mp ht with rfl | ht
      · exact Lexeme.ofFirst_kind_ne c rest
      · exact hts t ht

/-- The token list of a text ends with the end of input, which stands nowhere else in it. -/
theorem tokenize_eq_append (start : Nat) (cs : List Char) :
    ∃ ts last, tokenize start cs = ts ++ [last] ∧ last.kind = .endOfInput ∧
      ∀ t ∈ ts, t.kind ≠ .endOfInput :=
  tokensFrom_eq_append cs.length start cs

theorem map_kind_tokensFrom (fuel start start' : Nat) (cs : List Char) :
    (tokensFrom fuel start cs).map Token.kind = (tokensFrom fuel start' cs).map Token.kind := by
  induction fuel generalizing start start' cs with
  | zero => rfl
  | succ fuel ih =>
    cases h : cs.dropWhile Text.isBlank with
    | nil =>
      obtain ⟨stop, heq⟩ := tokensFrom_of_dropWhile_eq_nil h fuel start
      obtain ⟨stop', heq'⟩ := tokensFrom_of_dropWhile_eq_nil h fuel start'
      rw [heq, heq']
      rfl
    | cons c rest =>
      obtain ⟨first, stop, heq⟩ := tokensFrom_of_dropWhile_eq_cons h fuel start
      obtain ⟨first', stop', heq'⟩ := tokensFrom_of_dropWhile_eq_cons h fuel start'
      rw [heq, heq', List.map_cons, List.map_cons, ih stop stop' (Lexeme.ofFirst c rest).rest]

/-- The kinds of tokens do not depend on where the text starts. -/
theorem map_kind_tokenize (start start' : Nat) (cs : List Char) :
    (tokenize start cs).map Token.kind = (tokenize start' cs).map Token.kind :=
  map_kind_tokensFrom cs.length start start' cs

end DiceBot
