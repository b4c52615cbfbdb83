import Mathlib.Data.List.TakeWhile
import DiceBot.Proofs.Expr.Tokens
import DiceBot.Proofs.Text.Bytes
import DiceBot.Proofs.Text.Words

/-!
# Where tokens lie in a source

Between tokens there is nothing but white space, and what a token is does not depend on what stands
behind it. One token covers a front of the text, and is read alike where the text ends behind it
(`Lexeme.readsFront_ofFirst`). The tokens of a text are then laid out one behind the other
(`Laid`, `laid_tokenize`), and what that says of their offsets is put together in
`tokenize_covers`.
-/

namespace DiceBot

open Text

/-! ## One token -/

namespace Literal

/-- A reader of literals takes a front of the text, and the same literal is read where the text ends
behind it, unless that reports a fault. -/
def ReadsFront (read : List Char → Literal) (cs : List Char) : Prop :=
  cs = (read cs).covered ++ (read cs).rest ∧
    ∀ content, (read cs).content = .ok content →
      read (read cs).covered = ⟨.ok content, (read cs).covered, []⟩

theorem ok_of_push {spelling : List Char} {c : Char} {l : Literal} {content : List Char}
    (h : (l.push spelling c).content = .ok content) :
    ∃ tail, l.content = .ok tail ∧ content = c :: tail := by
  cases hl : l.content with
  | error fault => simp [push, hl, Except.map] at h
  | ok tail =>
    simp only [push, hl, Except.map, Except.ok.injEq] at h
    exact ⟨tail, rfl, h.symm⟩

/-- Reading goes on behind a character in front. -/
theorem ReadsFront.push {read : List Char → Literal} {cs : List Char} (h : ReadsFront read cs)
    (spelling : List Char) (c : Char)
    (hread : ∀ rest, read (spelling ++ rest) = (read rest).push spelling c) :
    ReadsFront read (spelling ++ cs) := by
  obtain ⟨happend, halone⟩ := h
  rw [ReadsFront, hread]
  refine ⟨?_, fun content hcontent => ?_⟩
  · show spelling ++ cs = spelling ++ (read cs).covered ++ (read cs).rest
    rw [List.append_assoc, ← happend]
  · obtain ⟨tail, htail, rfl⟩ := ok_of_push hcontent
    show read (spelling ++ (read cs).covered) = _
    rw [hread, halone tail htail]
    rfl

theorem ofQuoted_quote (rest : List Char) :
    ofQuoted ('\x22' :: rest) = ⟨.ok [], ['\x22'], rest⟩ := by
  rw [ofQuoted.eq_def]
  rfl

theorem ofQuoted_escape {e meant : Char} (h : unescape e = some meant) (rest : List Char) :
    ofQuoted ('\\' :: e :: rest) = (ofQuoted rest).push ['\\', e] meant := by
  rw [ofQuoted.eq_def]
  simp [h]

theorem ofQuoted_invalidEscape {e : Char} (h : unescape e = none) (rest : List Char) :
    ofQuoted ('\\' :: e :: rest) = ⟨.error (.invalidEscape e), ['\\'], e :: rest⟩ := by
  rw [ofQuoted.eq_def]
  simp [h]

theorem ofQuoted_plain {c : Char} (hquote : c ≠ '\x22') (hescape : c ≠ '\\') (rest : List Char) :
    ofQuoted (c :: rest) = (ofQuoted rest).push [c] c := by
  rw [ofQuoted.eq_def]
  simp [hquote, hescape]

theorem readsFront_ofQuoted (cs : List Char) : ReadsFront ofQuoted cs := by
  induction cs using ofQuoted.induct with
  | case1 => exact ⟨rfl, nofun⟩
  | case2 rest =>
    rw [ReadsFront, ofQuoted_quote]
    refine ⟨rfl, fun content hcontent => ?_⟩
    cases hcontent
    exact ofQuoted_quote []
  | case3 => exact ⟨rfl, nofun⟩
  | case4 e rest meant hmeant _ ih => exact ih.push ['\\', e] meant (ofQuoted_escape hmeant)
  | case5 e rest hnone =>
    rw [ReadsFront, ofQuoted_invalidEscape hnone]
    exact ⟨rfl, nofun⟩
  | case6 c rest hquote hescape ih => exact ih.push [c] c (ofQuoted_plain hquote hescape)

theorem ofTemplate_quote (rest : List Char) :
    ofTemplate ('\x60' :: rest) = ⟨.ok [], ['\x60'], rest⟩ := by
  rw [ofTemplate.eq_def]
  rfl

theorem ofTemplate_plain {c : Char} (h : c ≠ '\x60') (rest : List Char) :
    ofTemplate (c :: rest) = (ofTemplate rest).push [c] c := by
  rw [ofTemplate, if_neg h]

theorem readsFront_ofTemplate (cs : List Char) : ReadsFront ofTemplate cs := by
  induction cs using ofTemplate.induct with
  | case1 => exact ⟨rfl, nofun⟩
  | case2 rest =>
    rw [ReadsFront, ofTemplate_quote]
    refine ⟨rfl, fun content hcontent => ?_⟩
    cases hcontent
    exact ofTemplate_quote []
  | case3 c rest hquote ih => exact ih.push [c] c (ofTemplate_plain hquote)

end Literal

namespace Lexeme

/-- A reader of tokens that start with `c` takes a front of the text, and the same token is read
where the text ends behind it, unless it reports a fault. -/
def ReadsFront (c : Char) (read : List Char → Lexeme) (cs : List Char) : Prop :=
  ∃ more, (read cs).covered = c :: more ∧ cs = more ++ (read cs).rest ∧
    ((∀ fault, (read cs).kind ≠ .invalid fault) → read more = ⟨(read cs).kind, c :: more, []⟩)

variable {c : Char} {cs : List Char}

theorem readsFront_single (kind : TokenKind) (c : Char) (cs : List Char) :
    ReadsFront c (single kind c) cs :=
  ⟨[], rfl, rfl, fun _ => rfl⟩

theorem readsFront_orAssign (plain assigning : TokenKind) (c : Char) (cs : List Char) :
    ReadsFront c (orAssign plain assigning c) cs := by
  unfold ReadsFront
  fun_cases orAssign plain assigning c cs with
  | case1 rest => exact ⟨['='], rfl, rfl, fun _ => rfl⟩
  | case2 => exact ⟨[], rfl, rfl, fun _ => rfl⟩

theorem readsFront_toLexeme {read : List Char → Literal} (h : Literal.ReadsFront read cs)
    (kind : String → TokenKind) :
    ReadsFront c (fun cs => (read cs).toLexeme c kind) cs := by
  obtain ⟨happend, halone⟩ := h
  refine ⟨(read cs).covered, rfl, happend, fun hvalid => ?_⟩
  cases hcontent : (read cs).content with
  | error fault =>
    have hinvalid : ((read cs).toLexeme c kind).kind = .invalid fault := by
      simp only [Literal.toLexeme, hcontent]
    exact absurd hinvalid (hvalid fault)
  | ok content =>
    dsimp only
    rw [halone content hcontent]
    simp only [Literal.toLexeme, hcontent]

theorem readsFront_run (kind : List Char → TokenKind) (continues : Char → Bool) (c : Char)
    (cs : List Char) : ReadsFront c (run kind continues c) cs := by
  refine ⟨cs.takeWhile continues, rfl, List.takeWhile_append_dropWhile.symm, fun _ => ?_⟩
  have htake : (cs.takeWhile continues).takeWhile continues = cs.takeWhile continues :=
    List.takeWhile_eq_self_iff.mpr fun d hd => List.mem_takeWhile_imp hd
  have hdrop : (cs.takeWhile continues).dropWhile continues = [] :=
    List.dropWhile_eq_nil_iff.mpr fun d hd => List.mem_takeWhile_imp hd
  simp only [run, htake, hdrop]

/-- The characters that decide by themselves how a token that they start is read. -/
def signs : List Char := ['(', ')', '%', '^', '=', '+', '-', '/', '*', '\x22', '\x60']

theorem ofFirst_of_not_sign (h : c ∉ signs) (cs : List Char) : ofFirst c cs =
    if c.isDigit then run intKind Char.isDigit c cs
    else if (c == 'd' || c == 'D') && isDiceBefore cs then single .dice c cs
    else if startsName c then run (fun name => .name (String.ofList name)) continuesName c cs
    else single (.invalid (.unexpectedCharacter c)) c cs := by
  unfold ofFirst
  split
  case h_12 => rfl
  all_goals exact absurd (by decide) h

theorem readsFront_star (cs : List Char) : ReadsFront '*' (ofFirst '*') cs := by
  unfold ReadsFront
  cases cs with
  | nil => exact ⟨[], rfl, rfl, fun _ => rfl⟩
  | cons d rest =>
    by_cases hpower : d = '*'
    · rw [hpower]
      exact ⟨['*'], rfl, rfl, fun _ => rfl⟩
    · have hstar : ofFirst '*' (d :: rest) = orAssign .star .starAssign '*' (d :: rest) := by
        simp [ofFirst, hpower]
      rw [hstar]
      by_cases hassign : d = '='
      · rw [hassign]
        exact ⟨['='], rfl, rfl, fun _ => rfl⟩
      · have hplain : orAssign .star .starAssign '*' (d :: rest) = ⟨.star, ['*'], d :: rest⟩ := by
          simp [orAssign, hassign]
        rw [hplain]
        exact ⟨[], rfl, rfl, fun _ => rfl⟩

/-- A `d` that starts a name does so whatever stands behind the name. -/
theorem isDiceBefore_takeWhile (h : isDiceBefore cs = false) :
    isDiceBefore (cs.takeWhile continuesName) = false := by
  cases cs with
  | nil => exact h
  | cons d rest =>
    have hcontinues : continuesName d = true := by
      simp only [isDiceBefore, Bool.or_eq_false_iff, Bool.not_eq_false'] at h
      exact h.1
    rw [List.takeWhile_cons_of_pos hcontinues]
    exact h

theorem readsFront_of_not_sign (h : c ∉ signs) (cs : List Char) : ReadsFront c (ofFirst c) cs := by
  have hfirst := ofFirst_of_not_sign h
  unfold ReadsFront
  by_cases hdigit : c.isDigit = true
  · have hrun : ofFirst c = run intKind Char.isDigit c := by
      funext cs
      rw [hfirst, if_pos hdigit]
    rw [hrun]
    exact readsFront_run intKind Char.isDigit c cs
  · simp only [if_neg hdigit] at hfirst
    by_cases hdice : ((c == 'd' || c == 'D') && isDiceBefore cs) = true
    · rw [hfirst, if_pos hdice]
      -- a `d` at the end of a text stands for dice too
      have hletter := (Bool.and_eq_true_iff.mp hdice).1
      refine ⟨[], rfl, rfl, fun _ => ?_⟩
      rw [hfirst, hletter]
      rfl
    · by_cases hname : startsName c = true
      · have halone :
            ((c == 'd' || c == 'D') && isDiceBefore (cs.takeWhile continuesName)) = false := by
          rw [Bool.not_eq_true, Bool.and_eq_false_iff] at hdice
          exact Bool.and_eq_false_iff.mpr (hdice.imp_right isDiceBefore_takeWhile)
        obtain ⟨more, hcovered, hrest, hread⟩ :=
          readsFront_run (fun name => .name (String.ofList name)) continuesName c cs
        obtain rfl : cs.takeWhile continuesName = more := (List.cons.inj hcovered).2
        rw [hfirst, if_neg hdice, if_pos hname]
        refine ⟨_, hcovered, hrest, fun hvalid => ?_⟩
        rw [hfirst, if_neg (by rw [halone]; exact nofun), if_pos hname]
        exact hread hvalid
      · rw [hfirst, if_neg hdice, if_neg hname]
        exact ⟨[], rfl, rfl, fun hvalid => absurd rfl (hvalid _)⟩

/-- A token covers a front of the text, and is the same token where the text ends behind it, unless
it reports a fault. -/
theorem readsFront_ofFirst (c : Char) (cs : List Char) : ReadsFront c (ofFirst c) cs := by
  by_cases h : c ∈ signs
  · simp only [signs, List.mem_cons, List.not_mem_nil, or_false] at h
    rcases h with rfl | rfl | rfl | rfl | rfl | rfl | rfl | rfl | rfl | rfl | rfl
    · exact readsFront_single .openParen '(' cs
    · exact readsFront_single .closeParen ')' cs
    · exact readsFront_single .percent '%' cs
    · exact readsFront_single .caret '^' cs
    · exact readsFront_single .assign '=' cs
    · exact readsFront_orAssign .plus .plusAssign '+' cs
    · exact readsFront_orAssign .minus .minusAssign '-' cs
    · exact readsFront_orAssign .slash .slashAssign '/' cs
    · exact readsFront_star cs
    · exact readsFront_toLexeme (Literal.readsFront_ofQuoted cs) .text
    · exact readsFront_toLexeme (Literal.readsFront_ofTemplate cs) .template
  · exact readsFront_of_not_sign h cs

end Lexeme

/-! ## All tokens -/

/-- The tokens lie one behind the other on a text that starts at byte `start`. White space stands
between them, and behind the last one is the end of input. Each token but that starts with a
character that is not white space, and is the same token where the text ends behind it, unless it
reports a fault. -/
inductive Laid : (start : Nat) → List Char → List Token → Prop where
  | last {start : Nat} {gap : List Char} (hgap : ∀ d ∈ gap, isBlank d = true) :
      Laid start gap [⟨.endOfInput, start + byteLength gap, start + byteLength gap⟩]
  | token {start : Nat} {gap more rest : List Char} {c : Char} {t : Token} {ts : List Token}
      (hgap : ∀ d ∈ gap, isBlank d = true) (hc : isBlank c = false)
      (hkind : t.kind ≠ .endOfInput)
      (halone : (∀ fault, t.kind ≠ .invalid fault) →
        Lexeme.ofFirst c more = ⟨t.kind, c :: more, []⟩)
      (hstart : t.start = start + byteLength gap)
      (hstop : t.stop = t.start + byteLength (c :: more)) (hrest : Laid t.stop rest ts) :
      Laid start (gap ++ (c :: more ++ rest)) (t :: ts)

/-- A text is white space, or has a first character behind white space. -/
theorem exists_gap (cs : List Char) : ∃ gap, (∀ d ∈ gap, isBlank d = true) ∧
    (cs = gap ∨ ∃ c rest, isBlank c = false ∧ cs = gap ++ c :: rest) := by
  refine ⟨cs.takeWhile isBlank, fun d hd => List.mem_takeWhile_imp hd, ?_⟩
  have hsplit := (List.takeWhile_append_dropWhile (p := isBlank) (l := cs)).symm
  cases hdrop : cs.dropWhile isBlank with
  | nil => exact .inl (by rwa [hdrop, List.append_nil] at hsplit)
  | cons c rest =>
    have hc := List.head?_dropWhile_not isBlank cs
    rw [hdrop] at hc
    refine .inr ⟨c, rest, by simpa using hc, ?_⟩
    rwa [hdrop] at hsplit

theorem tokensFrom_of_blank {gap : List Char} (hgap : ∀ d ∈ gap, isBlank d = true) {fuel : Nat}
    (hfuel : gap.length ≤ fuel) (start : Nat) : tokensFrom fuel start gap =
      [⟨.endOfInput, start + byteLength gap, start + byteLength gap⟩] := by
  cases fuel with
  | zero =>
    obtain rfl := List.length_eq_zero_iff.mp (Nat.le_zero.mp hfuel)
    rfl
  | succ fuel =>
    have htake : gap.takeWhile isBlank = gap := List.takeWhile_eq_self_iff.mpr hgap
    have hdrop : gap.dropWhile isBlank = [] := List.dropWhile_eq_nil_iff.mpr hgap
    rw [tokensFrom, htake, hdrop]

theorem tokensFrom_append_cons {gap : List Char} {c : Char} (hgap : ∀ d ∈ gap, isBlank d = true)
    (hc : isBlank c = false) (fuel start : Nat) (cs : List Char) :
    tokensFrom (fuel + 1) start (gap ++ c :: cs) =
      ⟨(Lexeme.ofFirst c cs).kind, start + byteLength gap,
        start + byteLength gap + byteLength (Lexeme.ofFirst c cs).covered⟩ ::
      tokensFrom fuel (start + byteLength gap + byteLength (Lexeme.ofFirst c cs).covered)
        (Lexeme.ofFirst c cs).rest := by
  have hhead : ∀ d ∈ (c :: cs).head?, isBlank d = false := by simpa using hc
  rw [tokensFrom, takeWhile_append_of_head hgap hhead, dropWhile_append_of_head hgap hhead]

theorem laid_tokensFrom {fuel : Nat} {cs : List Char} (h : cs.length ≤ fuel) (start : Nat) :
    Laid start cs (tokensFrom fuel start cs) := by
  induction fuel generalizing start cs with
  | zero =>
    obtain rfl := List.length_eq_zero_iff.mp (Nat.le_zero.mp h)
    exact .last (by simp)
  | succ fuel ih =>
    obtain ⟨gap, hgap, rfl | ⟨c, behind, hc, rfl⟩⟩ := exists_gap cs
    · rw [tokensFrom_of_blank hgap h]
      exact .last hgap
    · obtain ⟨more, hcovered, hbehind, halone⟩ := Lexeme.readsFront_ofFirst c behind
      rw [tokensFrom_append_cons hgap hc, hcovered]
      have hlength : (Lexeme.ofFirst c behind).rest.length ≤ fuel := by
        have hsum := congrArg List.length hbehind
        simp only [List.length_append, List.length_cons] at h hsum
        omega
      have hsplit : gap ++ c :: behind = gap ++ (c :: more ++ (Lexeme.ofFirst c behind).rest) := by
        rw [List.cons_append, ← hbehind]
      rw [hsplit]
      exact .token hgap hc (Lexeme.ofFirst_kind_ne c behind) halone rfl rfl (ih hlength _)

theorem laid_tokenize (start : Nat) (cs : List Char) : Laid start cs (tokenize start cs) :=
  laid_tokensFrom (Nat.le_refl _) start

/-- There are no more tokens than characters, so further fuel is not used. -/
theorem tokensFrom_eq_tokenize {fuel : Nat} {cs : List Char} (h : cs.length ≤ fuel) (start : Nat) :
    tokensFrom fuel start cs = tokenize start cs := by
  suffices hsame : ∀ {fuel fuel' : Nat} {cs : List Char} (start : Nat), cs.length ≤ fuel →
      cs.length ≤ fuel' → tokensFrom fuel start cs = tokensFrom fuel' start cs from
    hsame start h (Nat.le_refl _)
  intro fuel
  induction fuel with
  | zero =>
    intro fuel' cs start h _
    obtain rfl := List.length_eq_zero_iff.mp (Nat.le_zero.mp h)
    rw [tokensFrom_of_blank (by simp) (Nat.zero_le _),
      tokensFrom_of_blank (by simp) (Nat.zero_le _)]
  | succ fuel ih =>
    intro fuel' cs start h h'
    obtain ⟨gap, hgap, rfl | ⟨c, behind, hc, rfl⟩⟩ := exists_gap cs
    · rw [tokensFrom_of_blank hgap h, tokensFrom_of_blank hgap h']
    · obtain ⟨more, -, hbehind, -⟩ := Lexeme.readsFront_ofFirst c behind
      have hlength := congrArg List.length hbehind
      simp only [List.length_append, List.length_cons] at h h' hlength
      cases fuel' with
      | zero => omega
      | succ fuel' =>
        have hshorter : (Lexeme.ofFirst c behind).rest.length ≤ fuel := by omega
        have hshorter' : (Lexeme.ofFirst c behind).rest.length ≤ fuel' := by omega
        rw [tokensFrom_append_cons hgap hc, tokensFrom_append_cons hgap hc, ih _ hshorter hshorter']

namespace Laid

variable {start : Nat} {cs : List Char} {ts : List Token}

theorem exists_eq_append (h : Laid start cs ts) :
    ∃ front, ts = front ++ [⟨.endOfInput, start + byteLength cs, start + byteLength cs⟩] ∧
      ∀ t ∈ front, t.kind ≠ .endOfInput := by
  induction h with
  | last hgap => exact ⟨[], rfl, by simp⟩
  | @token start gap more rest c t ts _ _ hkind _ hstart hstop _ ih =>
    obtain ⟨front, rfl, hfront⟩ := ih
    have hlength : t.stop + byteLength rest = start + byteLength (gap ++ (c :: more ++ rest)) := by
      rw [byteLength_append, byteLength_append]
      omega
    refine ⟨t :: front, ?_, List.forall_mem_cons.mpr ⟨hkind, hfront⟩⟩
    rw [hlength]
    rfl

theorem start_le (h : Laid start cs ts) : ∀ t ∈ ts, start ≤ t.start := by
  induction h with
  | last hgap => simp
  | token _ _ _ _ hstart hstop _ ih =>
    refine List.forall_mem_cons.mpr ⟨by omega, fun u hu => ?_⟩
    have hle := ih u hu
    omega

theorem pairwise (h : Laid start cs ts) : ts.Pairwise fun a b => a.stop ≤ b.start := by
  induction h with
  | last hgap => exact List.pairwise_singleton _ _
  | token _ _ _ _ _ _ hrest ih => exact List.pairwise_cons.mpr ⟨hrest.start_le, ih⟩

/-- A token covers a piece of the text. -/
theorem exists_span (h : Laid start cs ts) : ∀ t ∈ ts, t.kind ≠ .endOfInput →
    ∃ front c more back, cs = front ++ (c :: more ++ back) ∧ isBlank c = false ∧
      t.start = start + byteLength front ∧ t.stop = t.start + byteLength (c :: more) ∧
      ((∀ fault, t.kind ≠ .invalid fault) →
        Lexeme.ofFirst c more = ⟨t.kind, c :: more, []⟩) := by
  induction h with
  | last hgap => simp
  | @token start gap more rest c t ts hgap hc _ halone hstart hstop _ ih =>
    refine List.forall_mem_cons.mpr
      ⟨fun _ => ⟨gap, c, more, rest, rfl, hc, hstart, hstop, halone⟩, fun u hu hne => ?_⟩
    obtain ⟨front, d, more', back, rfl, hd, hfirst, hlast, halone'⟩ := ih u hu hne
    refine ⟨gap ++ (c :: more ++ front), d, more', back, by simp, hd, ?_, hlast, halone'⟩
    rw [hfirst, byteLength_append, byteLength_append]
    omega

/-- A character that is not white space belongs to a token. -/
theorem exists_covering (h : Laid start cs ts) {front back : List Char} {d : Char}
    (hcs : cs = front ++ d :: back) (hd : isBlank d = false) :
    ∃ t ∈ ts, t.start ≤ start + byteLength front ∧ start + byteLength front < t.stop := by
  induction h generalizing front with
  | last hgap =>
    have hblank := hgap d (by simp [hcs])
    rw [hd] at hblank
    exact nomatch hblank
  | @token start gap more rest c t ts hgap hc _ _ hstart hstop _ ih =>
    have hbehind : ∀ front', front = gap ++ (c :: more) ++ front' → rest = front' ++ d :: back →
        ∃ u ∈ t :: ts, u.start ≤ start + byteLength front ∧ start + byteLength front < u.stop := by
      rintro front' rfl hrest'
      obtain ⟨u, hu, hle, hlt⟩ := ih hrest'
      rw [byteLength_append, byteLength_append]
      exact ⟨u, List.mem_cons_of_mem _ hu, by omega, by omega⟩
    rw [← List.append_assoc] at hcs
    rcases List.append_eq_append_iff.mp hcs with
      ⟨front', hfront, hrest'⟩ | ⟨extra, hcovered, hrest'⟩
    · exact hbehind front' hfront hrest'
    · cases extra with
      | nil =>
        rw [List.append_nil] at hcovered
        exact hbehind [] (by rw [List.append_nil, hcovered]) hrest'.symm
      | cons d' extra =>
        obtain ⟨rfl, -⟩ := List.cons.inj hrest'
        have hlength := congrArg byteLength hcovered
        have hpos := byteLength_pos (List.cons_ne_nil d extra)
        rw [byteLength_append, byteLength_append] at hlength
        refine ⟨t, List.mem_cons_self, ?_, by omega⟩
        -- white space in front of the token does not hold the character
        rcases List.append_eq_append_iff.mp hcovered with ⟨a, rfl, -⟩ | ⟨a, rfl, ha⟩
        · rw [byteLength_append]
          omega
        · cases a with
          | nil =>
            rw [List.append_nil] at hstart
            omega
          | cons d' a =>
            obtain ⟨rfl, -⟩ := List.cons.inj ha
            have hblank := hgap d (by simp)
            rw [hd] at hblank
            exact nomatch hblank

end Laid

/-- What a token other than a fault covers is that token and nothing else. -/
theorem tokenize_of_ofFirst {c : Char} {more : List Char} {kind : TokenKind}
    (hc : isBlank c = false) (h : Lexeme.ofFirst c more = ⟨kind, c :: more, []⟩) :
    tokenize 0 (c :: more) = [⟨kind, 0, byteLength (c :: more)⟩,
      ⟨.endOfInput, byteLength (c :: more), byteLength (c :: more)⟩] := by
  have hnil : ∀ d ∈ ([] : List Char), isBlank d = true := by simp
  have hcons := tokensFrom_append_cons hnil hc more.length 0 more
  rw [h] at hcons
  dsimp only at hcons
  rw [tokensFrom_of_blank hnil (Nat.zero_le _)] at hcons
  have hzero : 0 + byteLength [] + byteLength (c :: more) = byteLength (c :: more) := by
    simp only [byteLength, Nat.zero_add]
  rw [hzero] at hcons
  exact hcons

/-- The tokens of a source: however many tokens are asked for, reading stops at the end of the
source. Each token covers at least one character, they lie one behind the other between characters,
only white space is left out, and what a token other than a fault covers is that token and nothing
else. -/
theorem tokenize_covers (source : String) :
    (∀ fuel, source.toList.length ≤ fuel →
      tokensFrom fuel 0 source.toList = tokenize 0 source.toList) ∧
    (∃ ts, tokenize 0 source.toList =
        ts ++ [⟨.endOfInput, byteLength source.toList, byteLength source.toList⟩] ∧
      ∀ t ∈ ts, t.kind ≠ .endOfInput ∧ t.start < t.stop) ∧
    (∀ t ∈ tokenize 0 source.toList,
      IsBoundary t.start source.toList ∧ IsBoundary t.stop source.toList) ∧
    (tokenize 0 source.toList).Pairwise (fun a b => a.stop ≤ b.start) ∧
    (∀ front c back, source.toList = front ++ c :: back → isBlank c = false →
      ∃ t ∈ tokenize 0 source.toList,
        t.start ≤ byteLength front ∧ byteLength front < t.stop) ∧
    ∀ t ∈ tokenize 0 source.toList, t.kind ≠ .endOfInput → (∀ fault, t.kind ≠ .invalid fault) →
      tokenize 0 (t.textAt 0 source).toList =
        [⟨t.kind, 0, t.byteLength⟩, ⟨.endOfInput, t.byteLength, t.byteLength⟩] := by
  -- all parts but the first are read off how the tokens are laid over the source
  have hlaid := laid_tokenize 0 source.toList
  obtain ⟨ts, heq, hkinds⟩ := hlaid.exists_eq_append
  rw [Nat.zero_add] at heq
  refine ⟨fun fuel hfuel => tokensFrom_eq_tokenize hfuel 0, ⟨ts, heq, fun t ht => ?_⟩,
    fun t ht => ?_, hlaid.pairwise, fun front c back hsource hc => ?_, fun t ht hkind hvalid => ?_⟩
  · obtain ⟨front, c, more, back, -, -, -, hstop, -⟩ :=
      hlaid.exists_span t (heq ▸ List.mem_append_left _ ht) (hkinds t ht)
    have hpos := byteLength_pos (List.cons_ne_nil c more)
    exact ⟨hkinds t ht, by omega⟩
  · by_cases hkind : t.kind = .endOfInput
    · have hlast : t = ⟨.endOfInput, byteLength source.toList, byteLength source.toList⟩ := by
        rw [heq] at ht
        rcases List.mem_append.mp ht with ht | ht
        · exact absurd hkind (hkinds t ht)
        · exact List.mem_singleton.mp ht
      rw [hlast]
      exact ⟨⟨source.toList, [], by simp, rfl⟩, ⟨source.toList, [], by simp, rfl⟩⟩
    · obtain ⟨front, c, more, back, hsource, -, hstart, hstop, -⟩ := hlaid.exists_span t ht hkind
      refine ⟨⟨front, _, hsource, by omega⟩, front ++ (c :: more), back, by simpa using hsource, ?_⟩
      rw [byteLength_append]
      omega
  · simpa using hlaid.exists_covering hsource hc
  · obtain ⟨front, c, more, back, hsource, hc, hstart, hstop, halone⟩ :=
      hlaid.exists_span t ht hkind
    have htext : (t.textAt 0 source).toList = c :: more := by
      have hslice := slice_append front (c :: more) back
      rw [Token.textAt, String.toList_ofList, hsource]
      rwa [← show t.start + 0 = byteLength front by omega,
        ← show t.stop + 0 = t.start + 0 + byteLength (c :: more) by omega] at hslice
    have hlength : t.byteLength = byteLength (c :: more) := by
      rw [Token.byteLength]
      omega
    rw [htext, hlength]
    exact tokenize_of_ofFirst hc (halone hvalid)

theorem tokenize_covers_dice :
    ⟨.dice, 6, 7⟩ ∈ tokenize 0 "名 =2d6".toList ∧
      IsBoundary 6 "名 =2d6".toList ∧ IsBoundary 7 "名 =2d6".toList ∧
      tokenize 0 ((⟨.dice, 6, 7⟩ : Token).textAt 0 "名 =2d6").toList =
        [⟨.dice, 0, 1⟩, ⟨.endOfInput, 1, 1⟩] ∧
      ∃ t ∈ tokenize 0 "名 =2d6".toList, t.start ≤ 4 ∧ 4 < t.stop := by
  have hmem : ⟨.dice, 6, 7⟩ ∈ tokenize 0 "名 =2d6".toList := by decide +kernel
  obtain ⟨-, -, hboundary, -, hcovered, halone⟩ := tokenize_covers "名 =2d6"
  obtain ⟨hstart, hstop⟩ := hboundary _ hmem
  exact ⟨hmem, hstart, hstop, halone _ hmem nofun nofun,
    hcovered "名 ".toList '=' "2d6".toList (by decide) (by decide)⟩

end DiceBot
