import DiceBot.Command.AttributeEntry
import DiceBot.Expr.Lexer
import DiceBot.Proofs.Markup.Occurrences
import DiceBot.Proofs.Text.Letter
import DiceBot.Proofs.Text.Words

/-!
# Attribute entries that are written out

A legible entry (`AttributeEntry.Legible`) has a name of letters and digits for its formula. It is
written without white space, and what stands behind it is not part of it unless it can belong to the
formula (`AttributeEntry.meanings_written_append_iff`). So entries written with single spaces
between them are read back as they are (`AttributeEntry.all_written`), and entries written one
directly behind the other are so if no name but the first starts with the letter of the dice
operator (`AttributeEntry.all_glued_iff`). A plain entry (`AttributeEntry.Plain`) can be recorded,
too: its name does not stand for dice and its number has 64 bits.
-/

namespace DiceBot

open Text

namespace AttributeEntry

/-- The entry as it is written. -/
def written (entry : AttributeEntry) : String :=
  entry.name ++ String.ofList entry.operator.toList ++ entry.formula

/-- The number that the formula spells, if it is one. -/
def number (entry : AttributeEntry) : Int64 :=
  Int64.ofNat (Lexeme.digitsValue entry.formula.toList)

/-- A name of letters, an operator or none, and digits. -/
structure Legible (entry : AttributeEntry) : Prop where
  name_ne_empty : entry.name ≠ ""
  name_letters : ∀ c ∈ entry.name.toList, isLetter c = true
  operator : ∀ c ∈ entry.operator, isOperator c = true
  formula_ne_empty : entry.formula ≠ ""
  formula_digits : ∀ c ∈ entry.formula.toList, c.isDigit = true

instance (entry : AttributeEntry) : Decidable entry.Legible :=
  decidable_of_iff
    (entry.name ≠ "" ∧ (∀ c ∈ entry.name.toList, isLetter c = true) ∧
      entry.operator.all isOperator = true ∧ entry.formula ≠ "" ∧
      (∀ c ∈ entry.formula.toList, c.isDigit = true))
    ⟨fun ⟨h₁, h₂, h₃, h₄, h₅⟩ => ⟨h₁, h₂, (Option.all_eq_true ..).mp h₃, h₄, h₅⟩,
      fun h => ⟨h.name_ne_empty, h.name_letters, (Option.all_eq_true ..).mpr h.operator,
        h.formula_ne_empty, h.formula_digits⟩⟩

/-- A name of letters that does not stand for dice, an operator or none, and a number of 64 bits. -/
structure Plain (entry : AttributeEntry) : Prop where
  name_ne_empty : entry.name ≠ ""
  name_letters : ∀ c ∈ entry.name.toList, isLetter c = true
  name_not_dice : entry.name ≠ "d" ∧ entry.name ≠ "D"
  operator : ∀ c ∈ entry.operator, isOperator c = true
  formula_ne_empty : entry.formula ≠ ""
  formula_digits : ∀ c ∈ entry.formula.toList, c.isDigit = true
  formula_fits : (Lexeme.digitsValue entry.formula.toList : Int) ≤ Int64.maxValue.toInt

instance (entry : AttributeEntry) : Decidable entry.Plain :=
  decidable_of_iff
    (entry.name ≠ "" ∧ (∀ c ∈ entry.name.toList, isLetter c = true) ∧
      (entry.name ≠ "d" ∧ entry.name ≠ "D") ∧ entry.operator.all isOperator = true ∧
      entry.formula ≠ "" ∧ (∀ c ∈ entry.formula.toList, c.isDigit = true) ∧
      (Lexeme.digitsValue entry.formula.toList : Int) ≤ Int64.maxValue.toInt)
    ⟨fun ⟨h₁, h₂, h₃, h₄, h₅, h₆, h₇⟩ => ⟨h₁, h₂, h₃, (Option.all_eq_true ..).mp h₄, h₅, h₆, h₇⟩,
      fun h => ⟨h.name_ne_empty, h.name_letters, h.name_not_dice,
        (Option.all_eq_true ..).mpr h.operator, h.formula_ne_empty, h.formula_digits,
        h.formula_fits⟩⟩

theorem Plain.legible {entry : AttributeEntry} (h : entry.Plain) : entry.Legible :=
  ⟨h.name_ne_empty, h.name_letters, h.operator, h.formula_ne_empty, h.formula_digits⟩

/-- Does the name start with the letter of the dice operator? -/
def startsAsDice (entry : AttributeEntry) : Bool :=
  entry.name.toList.head?.any fun c => c == 'd' || c == 'D'

variable {c : Char}

/-! ## Characters -/

theorem isNameChar_of_isLetter (h : isLetter c = true) : isNameChar c = true := by
  have hblank := isBlank_of_isLetter h
  have hdecimal := isDecimal_of_isLetter h
  have hsign : [':', '=', '+', '-', '*', '/', '(', ')'].contains c = false := by
    simpa using ⟨ne_of_isLetter h (by decide), ne_of_isLetter h (by decide),
      ne_of_isLetter h (by decide), ne_of_isLetter h (by decide), ne_of_isLetter h (by decide),
      ne_of_isLetter h (by decide), ne_of_isLetter h (by decide), ne_of_isLetter h (by decide)⟩
  rw [isNameChar, hblank, hdecimal, hsign]
  rfl

theorem isOperator_iff : isOperator c = true ↔ c = ':' ∨ c = '=' ∨ c = '+' ∨ c = '-' := by
  simp [isOperator]

theorem isNameChar_of_isOperator (h : isOperator c = true) : isNameChar c = false := by
  rcases isOperator_iff.mp h with rfl | rfl | rfl | rfl <;> decide

theorem isNameChar_of_isDigit (h : c.isDigit = true) : isNameChar c = false := by
  have hdecimal : isDecimal c = true := by
    obtain ⟨hfirst, hlast⟩ := toNat_of_isDigit h
    have hcovers : coversCodePoint ((0x30, 0x39) :: decimalRanges.tail) c.toNat = true :=
      coversCodePoint_cons_iff.mpr ⟨hfirst, .inl hlast⟩
    exact hcovers
  rw [isNameChar, hdecimal, Bool.not_true, Bool.and_false, Bool.false_and]

theorem isBlank_of_isOperator (h : isOperator c = true) : isBlank c = false := by
  rcases isOperator_iff.mp h with rfl | rfl | rfl | rfl <;> decide

theorem isOperator_of_isDigit (h : c.isDigit = true) : isOperator c = false := by
  by_contra hoperator
  rcases isOperator_iff.mp (eq_true_of_ne_false hoperator) with rfl | rfl | rfl | rfl <;>
    exact absurd h (by decide)

/-- The only letters that can stand in a formula are those of the dice operator. -/
theorem isFormulaChar_iff_of_isLetter (h : isLetter c = true) :
    isFormulaChar c = true ↔ c = 'd' ∨ c = 'D' := by
  have hdigit := isDigit_of_isLetter h
  have hsign : ∀ d, isLetter d = false → ¬c = d := fun d hd => ne_of_isLetter h hd
  simp [isFormulaChar, hdigit, hsign '+' (by decide), hsign '-' (by decide),
    hsign '*' (by decide), hsign '/' (by decide), hsign '(' (by decide), hsign ')' (by decide)]

theorem takeWhile_isFormulaChar_eq_nil_iff {rest : List Char} :
    rest.takeWhile isFormulaChar = [] ↔ ∀ c ∈ rest.head?, isFormulaChar c = false := by
  cases rest with
  | nil => simp
  | cons c rest => cases hc : isFormulaChar c <;> simp [hc]

theorem toList_written (entry : AttributeEntry) : entry.written.toList =
    entry.name.toList ++ (entry.operator.toList ++ entry.formula.toList) := by
  simp [written]

namespace Legible

variable {entry : AttributeEntry} (h : entry.Legible)

include h

theorem exists_name_eq : ∃ c cs, entry.name.toList = c :: cs ∧ isLetter c = true := by
  cases hname : entry.name.toList with
  | nil => exact absurd (by simpa using hname) h.name_ne_empty
  | cons c cs => exact ⟨c, cs, rfl, h.name_letters c (by simp [hname])⟩

theorem exists_formula_eq : ∃ c cs, entry.formula.toList = c :: cs ∧ c.isDigit = true := by
  cases hformula : entry.formula.toList with
  | nil => exact absurd (by simpa using hformula) h.formula_ne_empty
  | cons c cs => exact ⟨c, cs, rfl, h.formula_digits c (by simp [hformula])⟩

theorem of_mem_written (hc : c ∈ entry.written.toList) :
    isLetter c = true ∨ c.isDigit = true ∨ isOperator c = true := by
  rw [toList_written, List.mem_append, List.mem_append] at hc
  rcases hc with hc | hc | hc
  · exact .inl (h.name_letters c hc)
  · exact .inr (.inr (h.operator c (by simpa using hc)))
  · exact .inr (.inl (h.formula_digits c hc))

theorem written_ne_nil : entry.written.toList ≠ [] := by
  obtain ⟨c, cs, hname, -⟩ := h.exists_name_eq
  rw [toList_written, hname]
  exact List.cons_ne_nil _ _

/-! ## Reading -/

/-- The operator and the digits behind the name end it. -/
theorem takeOperator_eq (rest : List Char) :
    takeOperator (trimLeft (entry.operator.toList ++ (entry.formula.toList ++ rest))) =
      (entry.operator, entry.formula.toList ++ rest) := by
  obtain ⟨d, ds, hformula, hdigit⟩ := h.exists_formula_eq
  cases hoperator : entry.operator with
  | none =>
    rw [hformula, Option.toList_none, List.nil_append, List.cons_append,
      trimLeft_cons_of_not_blank (isBlank_of_isDigit hdigit), takeOperator,
      if_neg (by simp [isOperator_of_isDigit hdigit])]
  | some c =>
    have hc : isOperator c = true := h.operator c hoperator
    rw [Option.toList_some, List.singleton_append,
      trimLeft_cons_of_not_blank (isBlank_of_isOperator hc), takeOperator, if_pos hc]

/-- So they end the characters that the name takes. -/
theorem takeWhile_isNameChar_eq (rest : List Char) :
    (entry.name.toList ++ (entry.operator.toList ++ (entry.formula.toList ++ rest))).takeWhile
      isNameChar = entry.name.toList := by
  obtain ⟨d, ds, hformula, hdigit⟩ := h.exists_formula_eq
  refine takeWhile_append_of_head (fun c hc => isNameChar_of_isLetter (h.name_letters c hc))
    fun c hc => ?_
  cases hoperator : entry.operator with
  | none =>
    rw [hoperator, hformula] at hc
    obtain rfl : d = c := by simpa using hc
    exact isNameChar_of_isDigit hdigit
  | some o =>
    rw [hoperator] at hc
    obtain rfl : o = c := by simpa using hc
    exact isNameChar_of_isOperator (h.operator o hoperator)

/-- An entry is read where it stands, with as much of what follows as can belong to its formula. -/
theorem pattern_written_append (rest : List Char) :
    pattern (entry.written.toList ++ rest) =
      some (entry.written.toList.length + (rest.takeWhile isFormulaChar).length,
        { entry with
          formula := entry.formula ++ String.ofList (rest.takeWhile isFormulaChar) }) := by
  obtain ⟨d, ds, hformula, hdigit⟩ := h.exists_formula_eq
  have htrim : trimLeft (entry.formula.toList ++ rest) = entry.formula.toList ++ rest := by
    rw [hformula, List.cons_append, trimLeft_cons_of_not_blank (isBlank_of_isDigit hdigit)]
  have hstart : (entry.formula.toList ++ rest).head?.any startsFormula = true := by
    rw [hformula]
    simp [startsFormula, hdigit]
  have hdigits : (entry.formula.toList ++ rest).takeWhile isFormulaChar =
      entry.formula.toList ++ rest.takeWhile isFormulaChar :=
    List.takeWhile_append_of_pos fun c hc => by simp [isFormulaChar, h.formula_digits c hc]
  have hempty : entry.name.toList.isEmpty = false := by
    simpa using h.name_ne_empty
  -- what is taken is told from what is left: all up to the formula, and the formula
  have hlength : (entry.name.toList ++ (entry.operator.toList ++ (entry.formula.toList ++
      rest))).length - (entry.formula.toList ++ rest).length +
      (entry.formula.toList ++ rest.takeWhile isFormulaChar).length =
      entry.written.toList.length + (rest.takeWhile isFormulaChar).length := by
    simp only [toList_written, List.length_append]
    omega
  rw [toList_written, List.append_assoc, List.append_assoc, pattern]
  dsimp only
  rw [h.takeWhile_isNameChar_eq, List.drop_left, h.takeOperator_eq rest]
  dsimp only
  rw [htrim, hstart, hdigits, hempty, hlength, ← toList_written]
  simp

/-- The entries from this one on are read as they were written if what follows cannot belong to
the formula of this one, and only then. -/
theorem meanings_written_append_iff {rest : List Char} {entries : List AttributeEntry} :
    Pattern.meanings pattern (entry.written.toList ++ rest) = entry :: entries ↔
      (∀ c ∈ rest.head?, isFormulaChar c = false) ∧ Pattern.meanings pattern rest = entries := by
  have hne : entry.written.toList ++ rest ≠ [] :=
    List.append_ne_nil_of_left_ne_nil h.written_ne_nil rest
  have hpos : 0 < entry.written.toList.length := List.length_pos_of_ne_nil h.written_ne_nil
  rw [Pattern.meanings_of_some hne (by omega) (h.pattern_written_append rest), List.cons.injEq,
    ← takeWhile_isFormulaChar_eq_nil_iff]
  constructor
  · rintro ⟨hentry, hrest⟩
    have hformula := congrArg (fun e : AttributeEntry => e.formula.toList) hentry
    have htaken : rest.takeWhile isFormulaChar = [] := by simpa using hformula
    rw [htaken, List.length_nil, Nat.add_zero, List.drop_left] at hrest
    exact ⟨htaken, hrest⟩
  · rintro ⟨htaken, hrest⟩
    rw [htaken, List.length_nil, Nat.add_zero, List.drop_left]
    exact ⟨by simp, hrest⟩

end Legible

theorem pattern_space (rest : List Char) : pattern (' ' :: rest) = none := by
  have hname : (' ' :: rest).takeWhile isNameChar = [] :=
    List.takeWhile_cons_of_neg (by decide)
  rw [pattern]
  dsimp only
  rw [hname]
  rfl

/-- Entries with single spaces between them are read as they were written. -/
theorem all_written {entries : List AttributeEntry} (h : ∀ entry ∈ entries, entry.Legible) :
    all (String.intercalate " " (entries.map written)).toList = entries := by
  rw [String.toList_intercalate]
  show pattern.meanings (List.intercalate [' '] _) = entries
  induction entries with
  | nil => rfl
  | cons entry entries ih =>
    obtain ⟨hentry, hentries⟩ := List.forall_mem_cons.mp h
    have hothers := ih hentries
    cases entries with
    | nil =>
      rw [List.map_singleton, List.map_singleton, List.intercalate_singleton,
        ← List.append_nil entry.written.toList]
      exact hentry.meanings_written_append_iff.mpr ⟨nofun, rfl⟩
    | cons entry' entries =>
      rw [List.map_cons, List.map_cons] at hothers ⊢
      rw [List.map_cons, List.map_cons, List.intercalate_cons_cons, List.append_assoc,
        List.singleton_append]
      refine hentry.meanings_written_append_iff.mpr ⟨?_, ?_⟩
      · rintro c ⟨⟩
        decide
      · rw [Pattern.meanings_of_none (pattern_space _), hothers]

theorem toList_join_written (entries : List AttributeEntry) :
    (String.join (entries.map written)).toList = entries.flatMap (·.written.toList) := by
  rw [String.toList_join, List.flatMap_map]

/-- What stands behind an entry can belong to its formula if it is an entry that starts as dice. -/
theorem Legible.head_not_formula_iff {entry : AttributeEntry} (h : entry.Legible)
    (rest : List Char) : (∀ c ∈ (entry.written.toList ++ rest).head?, isFormulaChar c = false) ↔
      entry.startsAsDice = false := by
  obtain ⟨c, cs, hname, hletter⟩ := h.exists_name_eq
  have hstart : entry.startsAsDice = isFormulaChar c := by
    rw [Bool.eq_iff_iff, isFormulaChar_iff_of_isLetter hletter, startsAsDice, hname]
    simp
  rw [toList_written, hname, hstart]
  simp

/-- Entries one directly behind the other are read as they were written exactly if no name but the
first starts with the letter of the dice operator. -/
theorem all_glued_iff {entries : List AttributeEntry} (h : ∀ entry ∈ entries, entry.Legible) :
    all (String.join (entries.map written)).toList = entries ↔
      ∀ entry ∈ entries.tail, entry.startsAsDice = false := by
  rw [toList_join_written]
  show pattern.meanings _ = entries ↔ _
  induction entries with
  | nil => exact iff_of_true rfl nofun
  | cons entry entries ih =>
    obtain ⟨hentry, hentries⟩ := List.forall_mem_cons.mp h
    rw [List.flatMap_cons, hentry.meanings_written_append_iff, ih hentries, List.tail_cons]
    cases entries with
    | nil => simp
    | cons entry' entries =>
      rw [List.flatMap_cons, (hentries entry' List.mem_cons_self).head_not_formula_iff,
        List.forall_mem_cons, List.tail_cons]

end AttributeEntry

end DiceBot
