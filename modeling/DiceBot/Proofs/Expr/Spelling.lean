import Mathlib.Data.List.Forall2
import DiceBot.Proofs.Expr.Spans
import DiceBot.Proofs.Text.Letter

/-!
# Spelling tokens

A kind of token that a source can hold (`TokenKind.Spellable`) is written in one way, some operators
in two (`TokenKind.spellings`). White space ends what is written, whatever stands behind it, so it
is read as one token again (`Lexeme.readsAs_of_mem_spellings`), and so are any tokens written with
single spaces between them (`tokenize_spelled`). No source holds other kinds of tokens
(`spellable_of_mem_tokenize`).
-/

namespace DiceBot

open Text

/-! ## Kinds and their spellings -/

/-- A name that is not read as dice: one that starts with a `d` goes on, and not with a digit. -/
def IsName : List Char → Prop
  | [] => False
  | c :: cs => startsName c = true ∧ (∀ e ∈ cs, continuesName e = true) ∧
      (c = 'd' ∨ c = 'D' → cs.head?.any (fun e => !e.isDigit) = true)

instance : DecidablePred IsName
  | [] => inferInstanceAs (Decidable False)
  | _ :: _ => inferInstanceAs (Decidable (_ ∧ _))

/-- The text with a backslash in front of each backslash and each quote. -/
def Literal.escape (content : List Char) : List Char :=
  content.flatMap fun c => if c = '\\' ∨ c = '\x22' then ['\\', c] else [c]

namespace TokenKind

/-- A kind of token that can be written: no fault and not the end of input. Integers have no sign,
names are not read as dice, and templates have no backtick. -/
def Spellable : TokenKind → Prop
  | .int n => 0 ≤ n.toInt
  | .name s => IsName s.toList
  | .template s => '\x60' ∉ s.toList
  | .endOfInput => False
  | .invalid _ => False
  | _ => True

instance : DecidablePred Spellable := fun kind => by
  cases kind <;> unfold Spellable <;> infer_instance

/-- The ways to write a token of the kind. -/
def spellings : TokenKind → List String
  | .int n => [toString n.toInt]
  | .name s => [s]
  | .text s => [String.ofList ('\x22' :: (Literal.escape s.toList ++ ['\x22']))]
  | .template s => [String.ofList ('\x60' :: (s.toList ++ ['\x60']))]
  | .dice => ["d", "D"]
  | .plus => ["+"]
  | .minus => ["-"]
  | .star => ["*"]
  | .slash => ["/"]
  | .percent => ["%"]
  | .caret => ["^", "**"]
  | .assign => ["="]
  | .plusAssign => ["+="]
  | .minusAssign => ["-="]
  | .starAssign => ["*="]
  | .slashAssign => ["/="]
  | .openParen => ["("]
  | .closeParen => [")"]
  | .endOfInput => []
  | .invalid _ => []

theorem Spellable.exists_spelling {kind : TokenKind} (h : kind.Spellable) :
    ∃ s, s ∈ kind.spellings := by
  cases kind with
  | endOfInput => exact h.elim
  | invalid fault => exact h.elim
  | _ => exact ⟨_, List.mem_cons_self⟩

end TokenKind

/-! ## White space behind a token -/

/-- The text is empty or starts with white space. -/
def Ends (rest : List Char) : Prop := ∀ c ∈ rest.head?, isBlank c = true

section Ends

variable {c : Char} {rest : List Char}

theorem isBlank_of_isNumeral (h : isNumeral c = true) : isBlank c = false :=
  eq_false_of_ne_true (not_covers_of_areApart (by decide : areApart 1000 _ _ = true) h)

theorem isBlank_of_continuesName (h : continuesName c = true) : isBlank c = false := by
  simp only [continuesName, Bool.or_eq_true, beq_iff_eq] at h
  rcases h with ((h | h) | rfl) | rfl
  · exact isBlank_of_isLetter h
  · exact isBlank_of_isNumeral h
  · decide
  · decide

theorem isBlank_of_startsName (h : startsName c = true) : isBlank c = false := by
  simp only [startsName, Bool.or_eq_true, beq_iff_eq] at h
  rcases h with (h | rfl) | rfl
  · exact isBlank_of_isLetter h
  · decide
  · decide

/-- No character of a class without white space comes first. -/
theorem Ends.head (h : Ends rest) {p : Char → Bool}
    (hp : ∀ {c}, p c = true → isBlank c = false) : ∀ c ∈ rest.head?, p c = false := by
  intro c hc
  by_contra hpc
  have hblank := h c hc
  rw [hp (eq_true_of_ne_false hpc)] at hblank
  exact nomatch hblank

theorem Ends.ne_cons (h : Ends rest) (hc : isBlank c = false) (cs : List Char) :
    rest ≠ c :: cs := by
  rintro rfl
  rw [h c rfl] at hc
  exact nomatch hc

end Ends

/-! ## Literals -/

namespace Literal

theorem ofQuoted_escape_append (content rest : List Char) :
    ofQuoted (escape content ++ '\x22' :: rest) =
      ⟨.ok content, escape content ++ ['\x22'], rest⟩ := by
  induction content with
  | nil => exact ofQuoted_quote rest
  | cons c content ih =>
    have hcons : escape (c :: content) =
        (if c = '\\' ∨ c = '\x22' then ['\\', c] else [c]) ++ escape content := rfl
    rw [hcons]
    split
    · next hescaped =>
      have hmeant : unescape c = some c := by rcases hescaped with rfl | rfl <;> rfl
      show ofQuoted ('\\' :: c :: (escape content ++ '\x22' :: rest)) = _
      rw [ofQuoted_escape hmeant, ih]
      rfl
    · next hplain =>
      rw [not_or] at hplain
      show ofQuoted (c :: (escape content ++ '\x22' :: rest)) = _
      rw [ofQuoted_plain hplain.2 hplain.1, ih]
      rfl

theorem ofTemplate_append {content : List Char} (h : '\x60' ∉ content) (rest : List Char) :
    ofTemplate (content ++ '\x60' :: rest) = ⟨.ok content, content ++ ['\x60'], rest⟩ := by
  induction content with
  | nil => exact ofTemplate_quote rest
  | cons c content ih =>
    rw [List.mem_cons, not_or] at h
    obtain ⟨hne, hmore⟩ := h
    rw [List.cons_append, ofTemplate_plain (Ne.symm hne), ih hmore]
    rfl

end Literal

/-! ## One token -/

namespace Lexeme

/-- The text is read as one token of the kind, whatever stands behind the white space that ends
it. -/
def ReadsAs (kind : TokenKind) (cs : List Char) : Prop :=
  ∃ c more, cs = c :: more ∧ isBlank c = false ∧
    ∀ rest, Ends rest → ofFirst c (more ++ rest) = ⟨kind, c :: more, rest⟩

theorem orAssign_of_ends {rest : List Char} (h : Ends rest) (plain assigning : TokenKind)
    (c : Char) : orAssign plain assigning c rest = ⟨plain, [c], rest⟩ := by
  fun_cases orAssign plain assigning c rest with
  | case1 cs => exact absurd rfl (h.ne_cons (by decide) cs)
  | case2 => rfl

theorem ofFirst_star {rest : List Char} (h : Ends rest) :
    ofFirst '*' rest = ⟨.star, ['*'], rest⟩ := by
  have hstar : ofFirst '*' rest = orAssign .star .starAssign '*' rest := by
    cases rest with
    | nil => rfl
    | cons d rest =>
      have hd : d ≠ '*' := fun heq => h.ne_cons (c := '*') (by decide) rest (by rw [heq])
      simp [ofFirst, hd]
  rw [hstar, orAssign_of_ends h]

theorem isDiceBefore_of_ends {rest : List Char} (h : Ends rest) : isDiceBefore rest = true := by
  cases rest with
  | nil => rfl
  | cons d rest =>
    have hd : continuesName d = false := h.head isBlank_of_continuesName d rfl
    simp [isDiceBefore, hd]

theorem ofFirst_dice {c : Char} (hc : c = 'd' ∨ c = 'D') {rest : List Char} (h : Ends rest) :
    ofFirst c rest = ⟨.dice, [c], rest⟩ := by
  rcases hc with rfl | rfl <;>
    rw [ofFirst_of_not_sign (by decide), if_neg (by decide), isDiceBefore_of_ends h] <;> rfl

/-! ### Integers -/

theorem intKind_toDigits {n : Int64} (h : 0 ≤ n.toInt) :
    intKind (Nat.toDigits 10 n.toInt.toNat) = .int n := by
  have hvalue : digitsValue (Nat.toDigits 10 n.toInt.toNat) = n.toInt.toNat :=
    Nat.ofDigitChars_ten_toDigits
  have hofInt : Checked.ofInt? n.toInt = some n := by
    unfold Checked.ofInt?
    rw [if_pos ⟨n.minValue_le_toInt, n.toInt_le⟩, Int64.ofInt_toInt]
  rw [intKind, hvalue, Int.toNat_of_nonneg h, hofInt]

theorem readsAs_int {n : Int64} (h : 0 ≤ n.toInt) : ReadsAs (.int n) (toString n.toInt).toList := by
  have hdigits : ∀ c ∈ Nat.toDigits 10 n.toInt.toNat, c.isDigit = true :=
    fun c hc => Nat.isDigit_of_mem_toDigits (by decide) (by decide) hc
  have htext : (toString n.toInt).toList = Nat.toDigits 10 n.toInt.toNat := by
    conv_lhs => rw [← Int.toNat_of_nonneg h]
    exact Nat.toList_repr
  have hkind := intKind_toDigits h
  rw [htext]
  cases hcs : Nat.toDigits 10 n.toInt.toNat with
  | nil => exact absurd hcs Nat.toDigits_ne_nil
  | cons c more =>
    rw [hcs] at hdigits hkind
    obtain ⟨hc, hmore⟩ := List.forall_mem_cons.mp hdigits
    refine ⟨c, more, rfl, isBlank_of_isDigit hc, fun rest hrest => ?_⟩
    have hhead := hrest.head isBlank_of_isDigit
    have hsign : c ∉ signs := fun hmem => by
      have hsigns : ∀ c ∈ signs, c.isDigit = false := by decide
      rw [hsigns c hmem] at hc
      exact nomatch hc
    rw [ofFirst_of_not_sign hsign, if_pos hc, run, takeWhile_append_of_head hmore hhead,
      dropWhile_append_of_head hmore hhead, hkind]

/-! ### Names -/

theorem startsName_signs : ∀ c ∈ signs, startsName c = false := by decide

theorem isDigit_of_startsName {c : Char} (h : startsName c = true) : c.isDigit = false := by
  simp only [startsName, Bool.or_eq_true, beq_iff_eq] at h
  rcases h with (h | rfl) | rfl
  · exact isDigit_of_isLetter h
  · decide
  · decide

theorem readsAs_name {cs : List Char} (h : IsName cs) : ReadsAs (.name (String.ofList cs)) cs := by
  cases cs with
  | nil => exact h.elim
  | cons c more =>
    obtain ⟨hc, hmore, hdice⟩ := h
    refine ⟨c, more, rfl, isBlank_of_startsName hc, fun rest hrest => ?_⟩
    have hhead := hrest.head isBlank_of_continuesName
    have hsign : c ∉ signs := fun hmem => by
      rw [startsName_signs c hmem] at hc
      exact nomatch hc
    have hnotDice : ((c == 'd' || c == 'D') && isDiceBefore (more ++ rest)) = false := by
      by_cases hd : c = 'd' ∨ c = 'D'
      · cases more with
        | nil => exact nomatch hdice hd
        | cons e more =>
          have he : e.isDigit = false := by simpa using hdice hd
          have hcontinues : continuesName e = true := hmore e List.mem_cons_self
          simp [isDiceBefore, hcontinues, he]
      · have hne : (c == 'd' || c == 'D') = false := by simpa using hd
        rw [hne, Bool.false_and]
    rw [ofFirst_of_not_sign hsign, if_neg (by simp [isDigit_of_startsName hc]),
      if_neg (by rw [hnotDice]; exact nofun), if_pos hc, run, takeWhile_append_of_head hmore hhead,
      dropWhile_append_of_head hmore hhead]

/-! ### All kinds -/

theorem readsAs_text (s : String) :
    ReadsAs (.text s) ('\x22' :: (Literal.escape s.toList ++ ['\x22'])) := by
  refine ⟨_, _, rfl, by decide, fun rest _ => ?_⟩
  show (Literal.ofQuoted (Literal.escape s.toList ++ ['\x22'] ++ rest)).toLexeme '\x22' .text = _
  rw [List.append_assoc, List.singleton_append, Literal.ofQuoted_escape_append]
  simp only [Literal.toLexeme, String.ofList_toList]

theorem readsAs_template {s : String} (h : '\x60' ∉ s.toList) :
    ReadsAs (.template s) ('\x60' :: (s.toList ++ ['\x60'])) := by
  refine ⟨_, _, rfl, by decide, fun rest _ => ?_⟩
  show (Literal.ofTemplate (s.toList ++ ['\x60'] ++ rest)).toLexeme '\x60' .template = _
  rw [List.append_assoc, List.singleton_append, Literal.ofTemplate_append h]
  simp only [Literal.toLexeme, String.ofList_toList]

/-- What is written for a token is read as a token of its kind. -/
theorem readsAs_of_mem_spellings {kind : TokenKind} (h : kind.Spellable) {s : String}
    (hs : s ∈ kind.spellings) : ReadsAs kind s.toList := by
  cases kind with
  | endOfInput => exact h.elim
  | invalid fault => exact h.elim
  | int n =>
    obtain rfl := List.mem_singleton.mp hs
    exact readsAs_int h
  | name name =>
    obtain rfl := List.mem_singleton.mp hs
    simpa using readsAs_name h
  | text content =>
    obtain rfl := List.mem_singleton.mp hs
    rw [String.toList_ofList]
    exact readsAs_text content
  | template content =>
    obtain rfl := List.mem_singleton.mp hs
    rw [String.toList_ofList]
    exact readsAs_template h
  | dice =>
    obtain rfl | rfl : s = "d" ∨ s = "D" := by simpa [TokenKind.spellings] using hs
    · exact ⟨'d', [], rfl, by decide, fun rest => ofFirst_dice (.inl rfl)⟩
    · exact ⟨'D', [], rfl, by decide, fun rest => ofFirst_dice (.inr rfl)⟩
  | caret =>
    obtain rfl | rfl : s = "^" ∨ s = "**" := by simpa [TokenKind.spellings] using hs
    · exact ⟨'^', [], rfl, by decide, fun rest _ => rfl⟩
    · exact ⟨'*', ['*'], rfl, by decide, fun rest _ => rfl⟩
  | star =>
    obtain rfl := List.mem_singleton.mp hs
    exact ⟨'*', [], rfl, by decide, fun rest => ofFirst_star⟩
  | plus | minus | slash =>
    -- these become assigning operators where `=` follows
    obtain rfl := List.mem_singleton.mp hs
    exact ⟨_, [], rfl, by decide, fun rest hrest => orAssign_of_ends hrest _ _ _⟩
  | _ =>
    obtain rfl := List.mem_singleton.mp hs
    exact ⟨_, _, rfl, by decide, fun rest _ => rfl⟩

end Lexeme

/-! ## All tokens -/

/-- Behind white space a token is read, and the other tokens from what it leaves. -/
theorem map_kind_tokenize_append {gap : List Char} {c : Char}
    (hgap : ∀ d ∈ gap, isBlank d = true) (hc : isBlank c = false) (start : Nat) (cs : List Char) :
    (tokenize start (gap ++ c :: cs)).map Token.kind = (Lexeme.ofFirst c cs).kind ::
      (tokenize start (Lexeme.ofFirst c cs).rest).map Token.kind := by
  obtain ⟨more, -, hcs, -⟩ := Lexeme.readsFront_ofFirst c cs
  have hlength := congrArg List.length hcs
  rw [List.length_append] at hlength
  have hfuel : (Lexeme.ofFirst c cs).rest.length ≤ gap.length + cs.length := by omega
  have hsource : (gap ++ c :: cs).length = gap.length + cs.length + 1 := by
    rw [List.length_append, List.length_cons, Nat.add_assoc]
  rw [tokenize, hsource, tokensFrom_append_cons hgap hc, List.map_cons,
    tokensFrom_eq_tokenize hfuel, map_kind_tokenize _ start]

theorem map_kind_tokenize_of_readsAs {gap : List Char} (hgap : ∀ d ∈ gap, isBlank d = true)
    {kind : TokenKind} {cs rest : List Char} (h : Lexeme.ReadsAs kind cs) (hrest : Ends rest)
    (start : Nat) : (tokenize start (gap ++ (cs ++ rest))).map Token.kind =
      kind :: (tokenize start rest).map Token.kind := by
  obtain ⟨c, more, rfl, hc, hread⟩ := h
  rw [List.cons_append, map_kind_tokenize_append hgap hc, hread rest hrest]

theorem map_kind_tokenize_intercalate {kinds : List TokenKind} {texts : List (List Char)}
    (h : List.Forall₂ Lexeme.ReadsAs kinds texts) {gap : List Char}
    (hgap : ∀ d ∈ gap, isBlank d = true) (start : Nat) :
    (tokenize start (gap ++ List.intercalate [' '] texts)).map Token.kind =
      kinds ++ [.endOfInput] := by
  induction h generalizing gap with
  | nil =>
    rw [List.intercalate_nil, List.append_nil, tokenize, tokensFrom_of_blank hgap (Nat.le_refl _)]
    rfl
  | @cons kind text kinds texts hread hmore ih =>
    cases texts with
    | nil =>
      have hnothing : Ends [] := by simp [Ends]
      have hend := map_kind_tokenize_of_readsAs hgap hread hnothing start
      cases hmore
      rw [List.append_nil] at hend
      rw [List.intercalate_singleton, hend]
      rfl
    | cons text' texts =>
      -- the space that ends this token is the white space in front of the next one
      have hspace : Ends ([' '] ++ List.intercalate [' '] (text' :: texts)) := by
        simp [Ends]
        decide
      rw [List.intercalate_cons_cons, List.append_assoc,
        map_kind_tokenize_of_readsAs hgap hread hspace, ih (by decide), List.cons_append]

/-- Tokens written one by one with single spaces between them are read back, and behind them is the
end of input. Every token that can be written is written in some way. -/
theorem tokenize_spelled {kinds : List TokenKind} (h : ∀ kind ∈ kinds, kind.Spellable) :
    (∃ texts : List String, List.Forall₂ (fun kind s => s ∈ kind.spellings) kinds texts) ∧
    ∀ texts : List String, List.Forall₂ (fun kind s => s ∈ TokenKind.spellings kind) kinds texts →
      (tokenize 0 (String.intercalate " " texts).toList).map Token.kind =
        kinds ++ [.endOfInput] := by
  constructor
  · induction kinds with
    | nil => exact ⟨[], .nil⟩
    | cons kind kinds ih =>
      obtain ⟨hkind, hkinds⟩ := List.forall_mem_cons.mp h
      obtain ⟨s, hs⟩ := hkind.exists_spelling
      obtain ⟨texts, htexts⟩ := ih hkinds
      exact ⟨s :: texts, .cons hs htexts⟩
  · intro texts htexts
    have hread : List.Forall₂ Lexeme.ReadsAs kinds (texts.map String.toList) := by
      rw [List.forall₂_map_right_iff]
      induction htexts with
      | nil => exact .nil
      | cons hs hmore ih =>
        obtain ⟨hkind, hkinds⟩ := List.forall_mem_cons.mp h
        exact .cons (Lexeme.readsAs_of_mem_spellings hkind hs) (ih hkinds)
    rw [String.toList_intercalate]
    have hgap : ∀ d ∈ ([] : List Char), isBlank d = true := nofun
    exact map_kind_tokenize_intercalate hread hgap 0

/-- Names that start as dice do, the largest integer, a quoted text with each character that is
escaped, a template with quotes, and the second spelling of each operator that has two. -/
theorem tokenize_spelled_names :
    (tokenize 0
        "D dex 9223372036854775807 ** * \"a\\\"\\\\n\" $d2 \x60\x7b1d6\x7d \"\x60".toList).map
        Token.kind =
      [.dice, .name "dex", .int 9223372036854775807, .caret, .star, .text "a\"\\n", .name "$d2",
        .template "\x7b1d6\x7d \"", .endOfInput] := by
  have hspellable : ∀ kind ∈ [.dice, .name "dex", .int 9223372036854775807, .caret, .star,
      .text "a\"\\n", .name "$d2", .template "\x7b1d6\x7d \""], TokenKind.Spellable kind := by
    decide
  have hspelled := (tokenize_spelled hspellable).2
    ["D", "dex", "9223372036854775807", "**", "*", "\"a\\\"\\\\n\"", "$d2",
      "\x60\x7b1d6\x7d \"\x60"]
    (by simp only [List.forall₂_cons]; decide)
  exact hspelled

/-! ## What tokens can be -/

namespace Lexeme

theorem spellable_intKind (digits : List Char) :
    (intKind digits).Spellable ∨ ∃ fault, intKind digits = .invalid fault := by
  unfold intKind
  cases h : Checked.ofInt? (digitsValue digits) with
  | none => exact .inr ⟨_, rfl⟩
  | some n =>
    have hn : n.toInt = digitsValue digits := Checked.toInt_of_ofInt? h
    exact .inl (by show 0 ≤ n.toInt; omega)

theorem spellable_orAssign {plain assigning : TokenKind} (hplain : plain.Spellable)
    (hassigning : assigning.Spellable) (c : Char) (cs : List Char) :
    (orAssign plain assigning c cs).kind.Spellable := by
  fun_cases orAssign plain assigning c cs with
  | case1 => exact hassigning
  | case2 => exact hplain

theorem not_mem_of_ofTemplate {cs content : List Char}
    (h : (Literal.ofTemplate cs).content = .ok content) : '\x60' ∉ content := by
  induction cs using Literal.ofTemplate.induct generalizing content with
  | case1 => cases h
  | case2 rest =>
    rw [Literal.ofTemplate_quote] at h
    cases h
    exact List.not_mem_nil
  | case3 c rest hquote ih =>
    rw [Literal.ofTemplate_plain hquote] at h
    obtain ⟨tail, htail, rfl⟩ := Literal.ok_of_push h
    rw [List.mem_cons, not_or]
    exact ⟨Ne.symm hquote, ih htail⟩

theorem spellable_toLexeme {l : Literal} {kind : String → TokenKind}
    (h : ∀ content, l.content = .ok content → (kind (String.ofList content)).Spellable)
    (quote : Char) :
    (l.toLexeme quote kind).kind.Spellable ∨
      ∃ fault, (l.toLexeme quote kind).kind = .invalid fault := by
  simp only [Literal.toLexeme]
  cases hcontent : l.content with
  | ok content => exact .inl (h content hcontent)
  | error fault => exact .inr ⟨fault, rfl⟩

/-- A longest run that is not read as dice is a name. -/
theorem isName_takeWhile {c : Char} {cs : List Char} (hc : startsName c = true)
    (hdice : ¬((c == 'd' || c == 'D') && isDiceBefore cs) = true) :
    IsName (c :: cs.takeWhile continuesName) := by
  refine ⟨hc, fun e he => List.mem_takeWhile_imp he, fun hd => ?_⟩
  have hd' : (c == 'd' || c == 'D') = true := by simpa using hd
  rw [hd', Bool.true_and] at hdice
  cases cs with
  | nil => exact absurd rfl hdice
  | cons e cs =>
    simp only [isDiceBefore, Bool.or_eq_true, Bool.not_eq_true', not_or, Bool.not_eq_false,
      Bool.not_eq_true] at hdice
    obtain ⟨hcontinues, he⟩ := hdice
    simp [List.takeWhile_cons_of_pos hcontinues, he]

/-- What is read is a token that can be written, or a fault. -/
theorem spellable_ofFirst (c : Char) (cs : List Char) :
    (ofFirst c cs).kind.Spellable ∨ ∃ fault, (ofFirst c cs).kind = .invalid fault := by
  unfold ofFirst
  split
  case h_6 => exact .inl (spellable_orAssign (by trivial) (by trivial) _ cs)
  case h_7 => exact .inl (spellable_orAssign (by trivial) (by trivial) _ cs)
  case h_8 => exact .inl (spellable_orAssign (by trivial) (by trivial) _ cs)
  case h_9 =>
    split
    · exact .inl trivial
    · exact .inl (spellable_orAssign (by trivial) (by trivial) _ cs)
  case h_10 => exact spellable_toLexeme (fun _ _ => by trivial) _
  case h_11 =>
    refine spellable_toLexeme (fun content hcontent => ?_) _
    show '\x60' ∉ (String.ofList content).toList
    rw [String.toList_ofList]
    exact not_mem_of_ofTemplate hcontent
  case h_12 =>
    split
    · exact spellable_intKind _
    · split
      · exact .inl trivial
      · next hdice =>
        split
        · next hc =>
          refine .inl ?_
          show IsName (String.ofList _).toList
          rw [String.toList_ofList]
          exact isName_takeWhile hc hdice
        · exact .inr ⟨_, rfl⟩
  all_goals exact .inl trivial

end Lexeme

/-- A token of a source is the end of input, a fault, or one that can be written. -/
theorem spellable_of_mem_tokenize {start : Nat} {cs : List Char} {t : Token}
    (h : t ∈ tokenize start cs) :
    t.kind = .endOfInput ∨ (∃ fault, t.kind = .invalid fault) ∨ t.kind.Spellable := by
  unfold tokenize at h
  generalize cs.length = fuel at h
  induction fuel generalizing start cs with
  | zero =>
    obtain rfl := List.mem_singleton.mp h
    exact .inl rfl
  | succ fuel ih =>
    cases hcs : cs.dropWhile isBlank with
    | nil =>
      obtain ⟨stop, heq⟩ := tokensFrom_of_dropWhile_eq_nil hcs fuel start
      rw [heq] at h
      obtain rfl := List.mem_singleton.mp h
      exact .inl rfl
    | cons c rest =>
      obtain ⟨first, stop, heq⟩ := tokensFrom_of_dropWhile_eq_cons hcs fuel start
      rw [heq] at h
      rcases List.mem_cons.mp h with rfl | h
      · exact .inr (Lexeme.spellable_ofFirst c rest).symm
      · exact ih h

end DiceBot
