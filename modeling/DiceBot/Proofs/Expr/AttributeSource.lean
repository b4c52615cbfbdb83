import DiceBot.Proofs.Code.Emission
import DiceBot.Proofs.Command.AttributeEntry

/-!
# Sources of attribute entries

The source that a plain entry stands for is an assignment, or an update by the operator, of the
number in parentheses (`AttributeEntry.parse_source`). Only a name that is read as dice would not do.
-/

namespace DiceBot

open Text

/-! ## Tokens -/

namespace Lexeme

variable {c : Char} {cs : List Char}

/-- A letter starts a name unless it stands for dice. -/
theorem ofFirst_of_isLetter (h : isLetter c = true)
    (hdice : ((c == 'd' || c == 'D') && isDiceBefore cs) = false) :
    ofFirst c cs = run (fun name => .name (String.ofList name)) continuesName c cs := by
  have hstarts : startsName c = true := by
    rw [startsName, h]
    rfl
  unfold ofFirst
  split
  case h_12 =>
    rw [if_neg (by simp [isDigit_of_isLetter h]), if_neg (by rw [hdice]; exact nofun),
      if_pos hstarts]
  all_goals exact absurd h (by decide)

theorem ofFirst_of_isDigit (h : c.isDigit = true) : ofFirst c cs = run intKind Char.isDigit c cs := by
  unfold ofFirst
  split
  case h_12 => rw [if_pos h]
  all_goals exact absurd h (by decide)

end Lexeme

theorem map_kind_tokensFrom_cons {cs rest : List Char} {c : Char} {lexeme : Lexeme}
    (h : cs.dropWhile isBlank = c :: rest) (hfirst : Lexeme.ofFirst c rest = lexeme)
    (fuel start : Nat) : (tokensFrom (fuel + 1) start cs).map Token.kind =
      lexeme.kind :: (tokensFrom fuel 0 lexeme.rest).map Token.kind := by
  obtain ⟨first, stop, heq⟩ := tokensFrom_of_dropWhile_eq_cons h fuel start
  rw [heq, hfirst, List.map_cons, map_kind_tokensFrom fuel stop 0]

namespace AttributeEntry

/-- The sign that assigns in the source of an entry. -/
def assigning (entry : AttributeEntry) : TokenKind :=
  match entry.operator with
  | some '+' => .plusAssign
  | some '-' => .minusAssign
  | _ => .assign

/-- The sign as it is spelled. -/
def signText (entry : AttributeEntry) : List Char :=
  match entry.operator with
  | some '+' => ['+', '=']
  | some '-' => ['-', '=']
  | _ => ['=']

/-- The tree of the source of a plain entry. -/
def tree (entry : AttributeEntry) : Expr :=
  match entry.operator with
  | some '+' => .update .add entry.name (.int entry.number)
  | some '-' => .update .sub entry.name (.int entry.number)
  | _ => .assign entry.name (.int entry.number)

theorem toList_source (entry : AttributeEntry) : entry.source.toList = entry.name.toList ++
    ' ' :: (entry.signText ++ ' ' :: '(' :: (entry.formula.toList ++ [')'])) := by
  unfold source signText
  generalize entry.operator = operator
  split <;> simp

theorem map_kind_sign (entry : AttributeEntry) (fuel : Nat) (rest : List Char) :
    (tokensFrom (fuel + 1) 0 (' ' :: (entry.signText ++ ' ' :: rest))).map Token.kind =
      entry.assigning :: (tokensFrom fuel 0 (' ' :: rest)).map Token.kind := by
  have hspace : ∀ {c : Char} (cs : List Char), isBlank c = false →
      (' ' :: c :: cs).dropWhile isBlank = c :: cs := fun cs hc => by
    rw [List.dropWhile_cons_of_pos (by decide), List.dropWhile_cons_of_neg (by simp [hc])]
  unfold signText assigning
  generalize entry.operator = operator
  split
  · exact map_kind_tokensFrom_cons (hspace _ (by decide)) rfl fuel 0
  · exact map_kind_tokensFrom_cons (hspace _ (by decide)) rfl fuel 0
  · exact map_kind_tokensFrom_cons (hspace _ (by decide)) rfl fuel 0

namespace Plain

variable {entry : AttributeEntry} (h : entry.Plain)

include h

theorem intKind_formula : Lexeme.intKind entry.formula.toList = .int entry.number := by
  have hmin : Int64.minValue.toInt ≤ (Lexeme.digitsValue entry.formula.toList : Int) := by
    have hneg : Int64.minValue.toInt ≤ 0 := by decide
    omega
  unfold Lexeme.intKind Checked.ofInt?
  rw [if_pos ⟨hmin, h.formula_fits⟩]
  rfl

theorem map_kind_name (fuel : Nat) (rest : List Char) :
    (tokensFrom (fuel + 1) 0 (entry.name.toList ++ ' ' :: rest)).map Token.kind =
      .name entry.name :: (tokensFrom fuel 0 (' ' :: rest)).map Token.kind := by
  obtain ⟨c, cs, hname, hc⟩ := h.legible.exists_name_eq
  have hcs : ∀ d ∈ cs, isLetter d = true := fun d hd => h.name_letters d (by simp [hname, hd])
  have hcontinues : ∀ d ∈ cs, continuesName d = true := fun d hd => by
    rw [continuesName, hcs d hd]
    rfl
  have hend : ∀ d ∈ (' ' :: rest).head?, continuesName d = false := by
    rintro d ⟨⟩
    decide
  -- a name that starts with `d` goes on with a letter, as it is not the sign for dice
  have hdice : ((c == 'd' || c == 'D') && Lexeme.isDiceBefore (cs ++ ' ' :: rest)) = false := by
    cases cs with
    | nil =>
      have hne : ∀ d, entry.name ≠ String.ofList [d] → c ≠ d := by
        rintro d hne rfl
        exact hne (String.toList_inj.mp (by simpa using hname))
      have hd : (c == 'd') = false := beq_eq_false_iff_ne.mpr (hne 'd' h.name_not_dice.1)
      have hD : (c == 'D') = false := beq_eq_false_iff_ne.mpr (hne 'D' h.name_not_dice.2)
      rw [hd, hD]
      rfl
    | cons d cs =>
      have hd : d.isDigit = false := isDigit_of_isLetter (hcs d (by simp))
      have hbefore : Lexeme.isDiceBefore (d :: cs ++ ' ' :: rest) = false := by
        simp [Lexeme.isDiceBefore, hcontinues d (by simp), hd]
      rw [hbefore, Bool.and_false]
  have hdrop : (entry.name.toList ++ ' ' :: rest).dropWhile isBlank = c :: (cs ++ ' ' :: rest) := by
    rw [hname, List.cons_append, List.dropWhile_cons_of_neg (by simp [isBlank_of_isLetter hc])]
  have htake : c :: (cs ++ ' ' :: rest).takeWhile continuesName = entry.name.toList := by
    rw [takeWhile_append_of_head hcontinues hend, hname]
  rw [map_kind_tokensFrom_cons hdrop (Lexeme.ofFirst_of_isLetter hc hdice) fuel 0, Lexeme.run]
  dsimp only
  rw [htake, String.ofList_toList, dropWhile_append_of_head hcontinues hend]

theorem map_kind_formula (fuel : Nat) :
    (tokensFrom (fuel + 1) 0 (entry.formula.toList ++ [')'])).map Token.kind =
      .int entry.number :: (tokensFrom fuel 0 [')']).map Token.kind := by
  obtain ⟨d, ds, hformula, hd⟩ := h.legible.exists_formula_eq
  have hds : ∀ d ∈ ds, d.isDigit = true := fun e he => h.formula_digits e (by simp [hformula, he])
  have hend : ∀ d ∈ [')'].head?, Char.isDigit d = false := by
    rintro d ⟨⟩
    rfl
  have hdrop : (entry.formula.toList ++ [')']).dropWhile isBlank = d :: (ds ++ [')']) := by
    rw [hformula, List.cons_append, List.dropWhile_cons_of_neg (by simp [isBlank_of_isDigit hd])]
  have htake : d :: (ds ++ [')']).takeWhile Char.isDigit = entry.formula.toList := by
    rw [takeWhile_append_of_head hds hend, hformula]
  rw [map_kind_tokensFrom_cons hdrop (Lexeme.ofFirst_of_isDigit hd) fuel 0, Lexeme.run]
  dsimp only
  rw [htake, h.intKind_formula, dropWhile_append_of_head hds hend]

theorem sentence_source : sentence entry.source.toList =
    [.name entry.name, entry.assigning, .openParen, .int entry.number, .closeParen] := by
  have hfuel : ∃ fuel, entry.source.toList.length = fuel + 6 := by
    obtain ⟨c, cs, hname, -⟩ := h.legible.exists_name_eq
    obtain ⟨d, ds, hformula, -⟩ := h.legible.exists_formula_eq
    refine ⟨entry.source.toList.length - 6, ?_⟩
    rw [toList_source, hname, hformula]
    simp only [List.cons_append, List.length_cons, List.length_append]
    omega
  obtain ⟨fuel, hfuel⟩ := hfuel
  have hopen : ∀ rest, (tokensFrom (fuel + 4) 0 (' ' :: '(' :: rest)).map Token.kind =
      .openParen :: (tokensFrom (fuel + 3) 0 rest).map Token.kind :=
    fun rest => map_kind_tokensFrom_cons (c := '(') rfl rfl _ 0
  rw [sentence, tokenize, hfuel, toList_source, h.map_kind_name, map_kind_sign, hopen,
    h.map_kind_formula]
  rfl

theorem parse_source : Expr.parse entry.source = .ok entry.tree := by
  have hnumber : Grammar.Derives 63 .expression
      (.openParen :: [.int entry.number] ++ [.closeParen]) (.int entry.number) :=
    .expression (.ofSum (.ofProduct (.ofSigned (.ofPower (.ofDice (.ofPrimary (.parentheses
      (.expression (.ofSum (.ofProduct (.ofSigned (.ofPower (.ofDice (.ofPrimary
        (.int entry.number)))))))))))))))
  rw [Grammar.parse_eq_ok_iff, h.sentence_source]
  unfold assigning tree
  generalize entry.operator = operator
  split
  · exact .expression (.update .plus hnumber)
  · exact .expression (.update .minus hnumber)
  · exact .expression (.assign hnumber)

end Plain

end AttributeEntry

end DiceBot
