import DiceBot.Proofs.Expr.Holes
import DiceBot.Proofs.Expr.Recognition
import DiceBot.Proofs.Expr.Spelling
import DiceBot.Proofs.Expr.TwoReadings

/-!
# The offset of a syntax fault

The text of a placeholder is read by itself, placed at the byte at which it lies in the source
(`Passage`). It is indeed cut from the source there (`Passage.exists_cutFrom`): what the lexer and the
search for placeholders call an offset counts the bytes of a front of the text. So where a rule
refuses a token, the offset that it reports is the one of this token in the source, whatever
placeholders are around it (`CodeSettings.fault_points_at`). If this token is the end of input, the
offset is that of the end of the source, or of the brace that closes the placeholder.
-/

namespace DiceBot

open Text

/-! ## Placeholders and templates in a text -/

/-- A placeholder lies in the text at its offset, between its braces. -/
theorem Hole.Cut.exists_of_mem {start : Nat} {cs : List Char} {literals : List (List Char)}
    {holes : List Hole} (h : Hole.Cut start cs literals holes) : ∀ hole ∈ holes, ∃ front back,
      cs = front ++ '\x7b' :: (hole.inner ++ '\x7d' :: back) ∧
        hole.offset = start + byteLength front := by
  induction h with
  | last _ => exact nofun
  | @hole start literal hole cs literals holes hliteral hoffset hinner hrest ih =>
    have htext : hole.text.toList = '\x7b' :: (hole.inner ++ ['\x7d']) := by simp [Hole.text]
    refine List.forall_mem_cons.mpr ⟨⟨literal, cs, by simp [htext], hoffset⟩, fun hole' hmem => ?_⟩
    obtain ⟨front, back, rfl, hoffset'⟩ := ih hole' hmem
    refine ⟨literal ++ hole.text.toList ++ front, back, by simp, ?_⟩
    rw [hoffset', hoffset, byteLength_append, byteLength_append]
    omega

theorem Hole.exists_of_mem_ofTemplate {s : String} {hole : Hole} (h : hole ∈ Hole.ofTemplate s) :
    ∃ front back, s.toList = front ++ '\x7b' :: (hole.inner ++ '\x7d' :: back) ∧
      hole.offset = byteLength front := by
  obtain ⟨literals, hcut⟩ := Hole.exists_cut 0 s.toList
  obtain ⟨front, back, htext, hoffset⟩ := hcut.exists_of_mem hole h
  exact ⟨front, back, htext, by omega⟩

/-- A template reaches to the next backtick. -/
theorem Literal.covered_ofTemplate {cs content : List Char}
    (h : (ofTemplate cs).content = .ok content) :
    (ofTemplate cs).covered = content ++ ['\x60'] := by
  induction cs using ofTemplate.induct generalizing content with
  | case1 => cases h
  | case2 rest =>
    rw [ofTemplate_quote] at h ⊢
    cases h
    rfl
  | case3 c rest hquote ih =>
    rw [ofTemplate_plain hquote] at h ⊢
    obtain ⟨tail, htail, rfl⟩ := ok_of_push h
    show [c] ++ (ofTemplate rest).covered = _
    rw [ih htail]
    rfl

namespace Lexeme

theorem toLexeme_kind_eq_template {quote : Char} {l : Literal} {s : String}
    (h : (l.toLexeme quote .template).kind = .template s) : l.content = .ok s.toList := by
  unfold Literal.toLexeme at h
  cases hcontent : l.content with
  | ok content =>
    simp only [hcontent, TokenKind.template.injEq] at h
    rw [← h, String.toList_ofList]
  | error fault => simp only [hcontent, reduceCtorEq] at h

/-- Only a backtick starts a template, which is the text up to the next one. -/
theorem covered_of_template {c : Char} {cs : List Char} {s : String} :
    (ofFirst c cs).kind = .template s →
      (ofFirst c cs).covered = '\x60' :: (s.toList ++ ['\x60']) := by
  have horAssign : ∀ {plain assigning : TokenKind} (d : Char), plain ≠ .template s →
      assigning ≠ .template s → (orAssign plain assigning d cs).kind = .template s →
      (orAssign plain assigning d cs).covered = '\x60' :: (s.toList ++ ['\x60']) :=
    fun d hplain hassigning h => absurd h (orAssign_kind_ne hplain hassigning d cs)
  unfold ofFirst
  split
  case h_6 => exact horAssign _ (by simp) (by simp)
  case h_7 => exact horAssign _ (by simp) (by simp)
  case h_8 => exact horAssign _ (by simp) (by simp)
  case h_9 =>
    split
    · simp
    · exact horAssign _ (by simp) (by simp)
  case h_10 =>
    simp only [Literal.toLexeme]
    cases (Literal.ofQuoted cs).content <;> simp
  case h_11 =>
    intro h
    have hcovered := Literal.covered_ofTemplate (toLexeme_kind_eq_template h)
    exact congrArg ('\x60' :: ·) hcovered
  case h_12 =>
    split
    · simp only [run, intKind]
      split <;> simp
    · split
      · simp [single]
      · split <;> simp [run, single]
  all_goals simp [single]

end Lexeme

/-! ## Where a token starts -/

/-- A token of this kind starts at this byte of the text: the end of input behind the text, and any
other where it is read from a character that is not white space. -/
inductive TokenKind.StartsIn : List Char → TokenKind → Nat → Prop
  | last (cs : List Char) : StartsIn cs .endOfInput (byteLength cs)
  | read (front : List Char) {c : Char} (hc : isBlank c = false) (rest : List Char) :
      StartsIn (front ++ c :: rest) (Lexeme.ofFirst c rest).kind (byteLength front)

namespace TokenKind.StartsIn

variable {cs : List Char} {kind : TokenKind} {n : Nat}

theorem append_left (h : kind.StartsIn cs n) (front : List Char) :
    StartsIn (front ++ cs) kind (byteLength front + n) := by
  cases h with
  | last =>
    rw [← byteLength_append]
    exact .last (front ++ cs)
  | read front' hc rest =>
    rw [← byteLength_append, ← List.append_assoc]
    exact .read (front ++ front') hc rest

theorem isBoundary (h : kind.StartsIn cs n) : IsBoundary n cs := by
  cases h with
  | last => exact ⟨cs, [], by simp, rfl⟩
  | read front hc rest => exact ⟨front, _, rfl, rfl⟩

theorem eq_byteLength (h : kind.StartsIn cs n) (hkind : kind = .endOfInput) :
    n = byteLength cs := by
  cases h with
  | last => rfl
  | read front hc rest => exact absurd hkind (Lexeme.ofFirst_kind_ne _ rest)

theorem exists_read (h : kind.StartsIn cs n) (hkind : kind ≠ .endOfInput) :
    ∃ before c rest, cs = before ++ c :: rest ∧ n = byteLength before ∧ isBlank c = false ∧
      (Lexeme.ofFirst c rest).kind = kind := by
  cases h with
  | last => exact absurd rfl hkind
  | read front hc rest => exact ⟨front, _, rest, rfl, rfl, hc, rfl⟩

end TokenKind.StartsIn

theorem startsIn_of_mem_tokensFrom {fuel start : Nat} {cs : List Char} {t : Token}
    (hfuel : cs.length ≤ fuel) (h : t ∈ tokensFrom fuel start cs) :
    ∃ n, t.start = start + n ∧ t.kind.StartsIn cs n := by
  -- the first token stands behind white space, and the others in what it leaves
  induction fuel generalizing start cs with
  | zero =>
    obtain rfl := List.length_eq_zero_iff.mp (Nat.le_zero.mp hfuel)
    obtain rfl := List.mem_singleton.mp h
    exact ⟨0, rfl, .last []⟩
  | succ fuel ih =>
    obtain ⟨gap, hgap, rfl | ⟨c, behind, hc, rfl⟩⟩ := exists_gap cs
    · rw [tokensFrom_of_blank hgap hfuel] at h
      obtain rfl := List.mem_singleton.mp h
      exact ⟨byteLength cs, rfl, .last cs⟩
    · rw [tokensFrom_append_cons hgap hc] at h
      rcases List.mem_cons.mp h with rfl | h
      · exact ⟨byteLength gap, rfl, .read gap hc behind⟩
      · obtain ⟨more, hcovered, hbehind, -⟩ := Lexeme.readsFront_ofFirst c behind
        generalize (Lexeme.ofFirst c behind).rest = rest at h hbehind
        subst hbehind
        have hrest : rest.length ≤ fuel := by
          simp only [List.length_append, List.length_cons] at hfuel
          omega
        obtain ⟨n, hstart, hstarts⟩ := ih hrest h
        refine ⟨byteLength (gap ++ c :: more) + n, ?_, ?_⟩
        · rw [hstart, hcovered, byteLength_append]
          omega
        · simpa using hstarts.append_left (gap ++ c :: more)

theorem startsIn_of_mem_tokenize {start : Nat} {cs : List Char} {t : Token}
    (h : t ∈ tokenize start cs) : ∃ n, t.start = start + n ∧ t.kind.StartsIn cs n :=
  startsIn_of_mem_tokensFrom (Nat.le_refl _) h

/-! ## Passages -/

/-- A piece of a text that is read by itself, and the byte at which it starts in the text. -/
structure Passage where
  start : Nat
  text : List Char

namespace Passage

def tokens (p : Passage) : List Token := tokenize p.start p.text

def ofSource (source : String) : Passage := ⟨0, source.toList⟩

/-- What stands between the braces of a placeholder in a template that starts at byte `start`. -/
def ofHole (start : Nat) (hole : Hole) : Passage := ⟨start + hole.offset + 1, hole.inner⟩

/-- The passages that are read: the outer ones, and the placeholders of templates in them. -/
inductive Read (outer : List Passage) : Passage → Prop
  | outer {p : Passage} (h : p ∈ outer) : Read outer p
  | hole {p : Passage} {t : Token} {s : String} {hole : Hole} (h : Read outer p)
      (ht : t ∈ p.tokens) (hs : t.kind = .template s) (hhole : hole ∈ Hole.ofTemplate s) :
      Read outer (ofHole (t.start + 1) hole)

/-- The passage is the whole text, or what stands between two braces, and starts where it says. -/
inductive CutFrom (p : Passage) : List Char → Prop
  | whole (hstart : p.start = 0) : CutFrom p p.text
  | braced (front back : List Char) (hstart : p.start = byteLength front + 1) :
      CutFrom p (front ++ '\x7b' :: (p.text ++ '\x7d' :: back))

theorem CutFrom.exists_append {p : Passage} {cs : List Char} (h : p.CutFrom cs) :
    ∃ front back, cs = front ++ (p.text ++ back) ∧ p.start = byteLength front := by
  cases h with
  | whole hstart => exact ⟨[], [], by simp, hstart⟩
  | braced front back hstart =>
    refine ⟨front ++ ['\x7b'], '\x7d' :: back, by simp, ?_⟩
    rw [byteLength_append]
    exact hstart

theorem cutFrom_ofSource (source : String) : (ofSource source).CutFrom source.toList := .whole rfl

theorem cutFrom_ofHole {s : String} {hole : Hole} (h : hole ∈ Hole.ofTemplate s)
    (front back : List Char) :
    (ofHole (byteLength front) hole).CutFrom (front ++ (s.toList ++ back)) := by
  obtain ⟨before, behind, htext, hoffset⟩ := Hole.exists_of_mem_ofTemplate h
  have hstart : (ofHole (byteLength front) hole).start = byteLength (front ++ before) + 1 := by
    rw [byteLength_append, ← hoffset]
    rfl
  have hcut := CutFrom.braced (front ++ before) (behind ++ back) hstart
  rw [htext]
  simpa [ofHole] using hcut

/-- A template in a passage starts behind its backtick. -/
theorem exists_of_template {p : Passage} {t : Token} {s : String} (ht : t ∈ p.tokens)
    (hs : t.kind = .template s) : ∃ front back, p.text = front ++ (s.toList ++ back) ∧
      t.start + 1 = p.start + byteLength front := by
  obtain ⟨front, c, more, back, htext, -, hstart, -, halone⟩ :=
    (laid_tokenize p.start p.text).exists_span t ht (by simp [hs])
  have hread := halone (by simp [hs])
  -- the token is the template between its backticks
  have hcovered : c :: more = '\x60' :: (s.toList ++ ['\x60']) := by
    have hkind : (Lexeme.ofFirst c more).kind = .template s := by rw [hread, hs]
    rw [← Lexeme.covered_of_template hkind, hread]
  refine ⟨front ++ ['\x60'], '\x60' :: back, by simp [htext, hcovered], ?_⟩
  rw [byteLength_append, hstart, Nat.add_assoc]
  rfl

/-- Passages in passages that are cut from a text are cut from it too. -/
theorem Read.cutFrom {outer : List Passage} {cs : List Char} (houter : ∀ p ∈ outer, p.CutFrom cs)
    {p : Passage} (h : Read outer p) : p.CutFrom cs := by
  induction h with
  | outer hmem => exact houter _ hmem
  | @hole p t s hole _ ht hs hhole ih =>
    obtain ⟨front, back, rfl, hstart⟩ := ih.exists_append
    obtain ⟨before, behind, htext, htemplate⟩ := exists_of_template ht hs
    -- in front of the template stand the front of its passage and what leads up to its backtick
    have hcut := cutFrom_ofHole hhole (front ++ before) (behind ++ back)
    rw [htemplate, hstart, ← byteLength_append, htext]
    simpa using hcut

end Passage

/-! ## Where faults point -/

theorem SyntaxCause.IsAbout.exists_message {cause : SyntaxCause} {kind : TokenKind}
    (h : cause.IsAbout kind) :
    cause = .tooDeep ∨ ∃ text, cause.message = text ++ kind.describe := by
  cases cause with
  | tooDeep => exact .inl rfl
  | invalid fault =>
    obtain rfl : kind = .invalid fault := h
    exact .inr ⟨"", String.empty_append.symm⟩
  | unexpected found | missingOperand found | missingClose found =>
    obtain rfl : kind = found := h
    exact .inr ⟨_, rfl⟩

/-- The fault is about this token of the passage, which its message names unless it says that there
is no level left, and its offset is that of the token in the text: the end of the passage, which is
that of the text or the closing brace of a placeholder, or the place from where the token is
read. -/
structure SyntaxFault.PointsAt (fault : SyntaxFault) (p : Passage) (t : Token) (cs : List Char) :
    Prop where
  mem : t ∈ p.tokens
  about : fault.cause.IsAbout t.kind
  named : fault.cause = .tooDeep ∨ ∃ text, fault.cause.message = text ++ t.kind.describe
  offset_eq : fault.offset = t.start
  boundary : IsBoundary fault.offset cs
  le : fault.offset ≤ byteLength cs
  at_end : t.kind = .endOfInput → (cs = p.text ∧ fault.offset = byteLength cs) ∨
    ∃ front back, cs = front ++ '\x7b' :: (p.text ++ '\x7d' :: back) ∧
      fault.offset = byteLength (front ++ '\x7b' :: p.text)
  at_token : t.kind ≠ .endOfInput → ∃ before c rest front back, p.text = before ++ c :: rest ∧
    cs = front ++ (c :: rest ++ back) ∧ fault.offset = byteLength front ∧
    isBlank c = false ∧ (Lexeme.ofFirst c rest).kind = t.kind

namespace SyntaxFault

theorem pointsAt_of_mem {fault : SyntaxFault} {p : Passage} {t : Token} {cs : List Char}
    (hcut : p.CutFrom cs) (hmem : t ∈ p.tokens) (habout : fault.cause.IsAbout t.kind)
    (hoffset : fault.offset = t.start) : fault.PointsAt p t cs := by
  obtain ⟨n, hstart, hstarts⟩ := startsIn_of_mem_tokenize hmem
  have hboundary : IsBoundary fault.offset cs := by
    obtain ⟨front, back, rfl, hfront⟩ := hcut.exists_append
    rw [hoffset, hstart, hfront]
    exact hstarts.isBoundary.of_piece front back
  refine ⟨hmem, habout, habout.exists_message, hoffset, hboundary, hboundary.le, fun hkind => ?_,
    fun hkind => ?_⟩
  · obtain rfl := hstarts.eq_byteLength hkind
    rw [hoffset, hstart]
    cases hcut with
    | whole hzero => exact .inl ⟨rfl, by rw [hzero, Nat.zero_add]⟩
    | braced front back hfront =>
      refine .inr ⟨front, back, rfl, ?_⟩
      rw [hfront, byteLength_append, Nat.add_assoc]
      rfl
  · obtain ⟨before, c, rest, htext, rfl, hc, hread⟩ := hstarts.exists_read hkind
    obtain ⟨front, back, rfl, hfront⟩ := hcut.exists_append
    refine ⟨before, c, rest, front ++ before, back, htext, by simp [htext], ?_, hc, hread⟩
    rw [hoffset, hstart, hfront, byteLength_append]

end SyntaxFault

namespace Expr

/-- A reading held against itself: the tokens that are left are the last ones of a passage, and a
fault is about a token of a passage. -/
def withinPassages (outer : List Passage) : Comparison where
  tokens ts us := ts = us ∧ Ended us ∧ ∃ p, Passage.Read outer p ∧ us <:+ p.tokens
  faults f f' := f = f' ∧ ∃ p t, Passage.Read outer p ∧ t ∈ p.tokens ∧ f'.cause.IsAbout t.kind ∧
    f'.offset = t.start
  givesUp _ := False
  length_eq := by
    rintro ts us ⟨rfl, -⟩
    rfl
  kind_eq := by
    rintro ts us ⟨rfl, -⟩
    rfl
  tail := by
    rintro ts us ⟨rfl, hended, p, hp, hsuffix⟩ hkind
    exact ⟨rfl, hended.tail hkind, p, hp, (List.tail_suffix ts).trans hsuffix⟩
  refused := by
    rintro ts us cause ⟨rfl, hended, p, hp, hsuffix⟩ hcause
    exact ⟨rfl, p, peek ts, hp, hsuffix.mem hended.peek_mem, hcause, rfl⟩
  hole := by
    rintro ts us s hole ⟨rfl, hended, p, hp, hsuffix⟩ hs hhole
    exact ⟨rfl, ended_tokenize _ _, Passage.ofHole ((peek ts).start + 1) hole,
      .hole hp (hsuffix.mem hended.peek_mem) hs hhole, List.suffix_rfl⟩

theorem exists_pointsAt_of_alike {outer : List Passage} {cs : List Char}
    (houter : ∀ p ∈ outer, p.CutFrom cs) {α : Type} {r : Except SyntaxFault α}
    (h : (withinPassages outer).Alike Eq r r) {fault : SyntaxFault} (hr : r = .error fault) :
    ∃ p t, Passage.Read outer p ∧ fault.PointsAt p t cs := by
  subst hr
  cases h with
  | error h =>
    obtain ⟨-, p, t, hp, hmem, habout, hoffset⟩ := h
    exact ⟨p, t, hp, SyntaxFault.pointsAt_of_mem (hp.cutFrom houter) hmem habout hoffset⟩
  | lost h => exact h.elim

theorem rules_alike_self (outer : List Passage) (n : Nat) :
    (withinPassages outer).InnerAlike (rules n) (rules n) :=
  Comparison.rules_alike (Nat.le_refl n) fun h => absurd h (Nat.lt_irrefl n)

theorem pointsAt_of_parse {source : String} {fault : SyntaxFault}
    (h : parse source = .error fault) :
    ∃ p t, Passage.Read [.ofSource source] p ∧ fault.PointsAt p t source.toList := by
  have htokens : (withinPassages [.ofSource source]).tokens (tokenize 0 source.toList)
      (tokenize 0 source.toList) :=
    ⟨rfl, ended_tokenize _ _, .ofSource source, .outer List.mem_cons_self, List.suffix_rfl⟩
  have hrules := rules_alike_self [.ofSource source] maxNesting
  have houter : ∀ p ∈ [Passage.ofSource source], p.CutFrom source.toList := by
    simpa using Passage.cutFrom_ofSource source
  exact exists_pointsAt_of_alike houter (Comparison.whole_alike hrules.expression htokens) h

theorem pointsAt_of_parseTemplate {text : String} {fault : SyntaxFault}
    (h : parseTemplate text = .error fault) :
    ∃ p t, Passage.Read ((Hole.ofTemplate text).map (Passage.ofHole 0)) p ∧
      fault.PointsAt p t text.toList := by
  let outer := (Hole.ofTemplate text).map (Passage.ofHole 0)
  have hrules := rules_alike_self outer maxNesting
  have htokens : ∀ hole ∈ Hole.ofTemplate text,
      (withinPassages outer).tokens (tokenize (0 + hole.offset + 1) hole.inner)
        (tokenize (0 + hole.offset + 1) hole.inner) := fun hole hmem =>
    ⟨rfl, ended_tokenize _ _, .ofHole 0 hole, .outer (List.mem_map_of_mem hmem), List.suffix_rfl⟩
  have houter : ∀ p ∈ outer, p.CutFrom text.toList := by
    refine List.forall_mem_map.mpr fun hole hmem => ?_
    simpa [byteLength] using Passage.cutFrom_ofHole hmem [] []
  have hparts := Comparison.parts_alike hrules.expression htokens
  have halike : (withinPassages outer).Alike Eq (parseTemplate text) (parseTemplate text) := by
    refine hparts.bind ?_
    rintro es _ rfl
    exact .ok rfl
  exact exists_pointsAt_of_alike houter halike h

end Expr

namespace CodeSettings

/-- What a source or a template is refused with is a syntax fault about a token, of the text itself
or of a placeholder in it, and its offset is where this token starts in the text: a byte between two
characters from where the token is read, or if the token is the end of input, the end of the text or
the closing brace of the placeholder. -/
theorem fault_points_at (settings : CodeSettings) (source : String) (fault : Fault) :
    (settings.compile source = .error fault → ∃ f p t, fault = SyntaxFault.toFault source f ∧
      Passage.Read [.ofSource source] p ∧ f.PointsAt p t source.toList) ∧
    (settings.compileTemplate source = .error fault → ∃ f p t,
      fault = SyntaxFault.toFault source f ∧
      Passage.Read ((Hole.ofTemplate source).map (Passage.ofHole 0)) p ∧
      f.PointsAt p t source.toList) := by
  constructor
  · intro h
    obtain ⟨f, hparse, rfl⟩ := programOf_eq_error_iff.mp h
    obtain ⟨p, t, hp, hpoints⟩ := Expr.pointsAt_of_parse hparse
    exact ⟨f, p, t, rfl, hp, hpoints⟩
  · intro h
    obtain ⟨f, hparse, rfl⟩ := programOf_eq_error_iff.mp h
    obtain ⟨p, t, hp, hpoints⟩ := Expr.pointsAt_of_parseTemplate hparse
    exact ⟨f, p, t, rfl, hp, hpoints⟩

/-- A placeholder behind a character of three bytes, in a literal and in a whole template. Both
faults are at its closing brace. -/
theorem fault_points_at_closing_brace :
    let settings : CodeSettings := {}
    let message := "expected a value, found end of input"
    (∃ fault f p t, settings.compile "1 + `力\x7b1+\x7d`" = .error fault ∧
      fault.cause = .malformed message 11 ∧ fault = SyntaxFault.toFault "1 + `力\x7b1+\x7d`" f ∧
      f.PointsAt p t "1 + `力\x7b1+\x7d`".toList) ∧
    ∃ fault f p t, settings.compileTemplate "力\x7b1+\x7d" = .error fault ∧
      fault.cause = .malformed message 6 ∧ fault = SyntaxFault.toFault "力\x7b1+\x7d" f ∧
      f.PointsAt p t "力\x7b1+\x7d".toList := by
  intro settings message
  constructor
  · cases hcompile : settings.compile "1 + `力\x7b1+\x7d`" with
    | ok p => exact nomatch hcompile
    | error fault =>
      have hcause : fault.cause = .malformed message 11 := by
        cases hcompile
        rfl
      obtain ⟨f, p, t, hfault, -, hpoints⟩ := (fault_points_at settings _ fault).1 hcompile
      exact ⟨fault, f, p, t, rfl, hcause, hfault, hpoints⟩
  · cases hcompile : settings.compileTemplate "力\x7b1+\x7d" with
    | ok p => exact nomatch hcompile
    | error fault =>
      have hcause : fault.cause = .malformed message 6 := by
        cases hcompile
        rfl
      obtain ⟨f, p, t, hfault, -, hpoints⟩ := (fault_points_at settings _ fault).2 hcompile
      exact ⟨fault, f, p, t, rfl, hcause, hfault, hpoints⟩

end CodeSettings

end DiceBot
