import DiceBot.Machine.Run
import DiceBot.Proofs.Markup.Substitution
import DiceBot.Proofs.Text.Bytes
import DiceBot.Proofs.Text.Splitting

/-!
# Templates cut at their placeholders

The placeholders of a template cut it into literals, one more than there are placeholders
(`Hole.Cut`, `Hole.exists_cut`). A literal in front of a placeholder has no opening brace but those
of braces around nothing but white space. A placeholder cannot begin at one of these, because it
does hold something, so the first place where its text is found behind the placeholder before it is
its own (`Hole.splitAround?_text`).
-/

namespace DiceBot

/-- A placeholder that is found is replaced, and the others are looked for behind it. -/
theorem fillTemplate_cons {placeholder : String} {rest before after : List Char}
    (h : Text.splitAround? placeholder.toList rest = some (before, after)) (value : Value)
    (more : List (String × Value)) : fillTemplate ((placeholder, value) :: more) rest =
      before ++ value.display.toList ++ fillTemplate more after := by
  rw [fillTemplate, h]

/-- What stands in front of the placeholders, which are looked for one after the other, and behind
the last, if all are found. -/
def literalsAround? : List String → List Char → Option (List (List Char))
  | [], rest => some [rest]
  | placeholder :: more, rest =>
      match Text.splitAround? placeholder.toList rest with
      | none => none
      | some (before, after) => (literalsAround? more after).map (before :: ·)

/-- Filling a text puts values between these literals. -/
theorem fillTemplate_of_literals {placeholders : List String} {rest : List Char}
    {literals : List (List Char)} {values : List Value}
    (h : literalsAround? placeholders rest = some literals)
    (hlength : values.length = placeholders.length) :
    fillTemplate (placeholders.zip values) rest =
      Pattern.splice literals (values.map (·.display.toList)) := by
  induction placeholders generalizing rest literals values with
  | nil =>
    obtain rfl := List.eq_nil_of_length_eq_zero hlength
    obtain rfl : [rest] = literals := Option.some.inj h
    simp [fillTemplate, Pattern.splice]
  | cons placeholder more ih =>
    obtain ⟨value, values, rfl⟩ := List.exists_cons_of_length_eq_add_one hlength
    rw [literalsAround?] at h
    cases hfound : Text.splitAround? placeholder.toList rest with
    | none =>
      rw [hfound] at h
      cases h
    | some found =>
      rw [hfound] at h
      obtain ⟨literals, hmore, rfl⟩ := Option.map_eq_some_iff.mp h
      rw [List.zip_cons_cons, fillTemplate_cons hfound, ih hmore (by simpa using hlength)]
      rfl

namespace Hole

open Text

/-- A text whose opening braces are all closed again behind nothing but white space. -/
inductive Closed : List Char → Prop where
  | nil : Closed []
  | plain {c : Char} {cs : List Char} (hc : c ≠ '\x7b') (h : Closed cs) : Closed (c :: cs)
  | blank {blanks cs : List Char} (hblanks : blanks.all isBlank = true) (h : Closed cs) :
      Closed ('\x7b' :: (blanks ++ '\x7d' :: cs))

/-- What stands between the braces of a placeholder. -/
structure Filled (inner : List Char) : Prop where
  notMem : '\x7d' ∉ inner
  notBlank : inner.all isBlank = false

/-- The text that starts at byte `start` consists of the literals with the placeholders between
them. -/
inductive Cut : Nat → List Char → List (List Char) → List Hole → Prop where
  | last {start : Nat} {literal : List Char} (h : ∀ start, scan none start literal = []) :
      Cut start literal [literal] []
  | hole {start : Nat} {literal : List Char} {hole : Hole} {cs : List Char}
      {literals : List (List Char)} {holes : List Hole} (hliteral : Closed literal)
      (hoffset : hole.offset = start + byteLength literal) (hinner : Filled hole.inner)
      (hrest : Cut (hole.offset + byteLength hole.text.toList) cs literals holes) :
      Cut start (literal ++ hole.text.toList ++ cs) (literal :: literals) (hole :: holes)

/-! ## Scanning -/

variable {start : Nat} {cs : List Char}

theorem not_mem_of_all_isBlank {blanks : List Char} (h : blanks.all isBlank = true) :
    '\x7d' ∉ blanks ∧ '\x7b' ∉ blanks := by
  rw [List.all_eq_true] at h
  exact ⟨fun hmem => absurd (h _ hmem) (by decide), fun hmem => absurd (h _ hmem) (by decide)⟩

theorem scan_plain {c : Char} (hc : c ≠ '\x7b') :
    scan none start (c :: cs) = scan none (start + c.utf8Size) cs := by
  simp [scan, hc]

theorem scan_open :
    scan none start ('\x7b' :: cs) = scan (some ⟨start, []⟩) (start + byteLength ['\x7b']) cs := rfl

/-- An opening brace that is not closed makes no placeholder. -/
theorem scan_unclosed (brace : Open) (h : '\x7d' ∉ cs) : scan (some brace) start cs = [] := by
  induction cs generalizing brace start with
  | nil => rfl
  | cons c cs ih =>
    rw [List.mem_cons, not_or] at h
    simp [scan, Ne.symm h.1, ih _ h.2]

/-- An opening brace reaches to the next closing brace. -/
theorem scan_closed (brace : Open) {inner : List Char} (h : '\x7d' ∉ inner) :
    scan (some brace) start (inner ++ '\x7d' :: cs) =
      (if (brace.reading.reverse ++ inner).all isBlank then []
        else [⟨brace.offset, brace.reading.reverse ++ inner⟩]) ++
      scan none (start + byteLength (inner ++ ['\x7d'])) cs := by
  induction inner generalizing brace start with
  | nil =>
    rw [List.nil_append, scan]
    simp [byteLength]
    split <;> simp
  | cons c inner ih =>
    rw [List.mem_cons, not_or] at h
    rw [List.cons_append, scan]
    simp [Ne.symm h.1, ih _ h.2, byteLength, Nat.add_assoc]

/-- A text in which every opening brace is closed behind white space is read without a trace. -/
theorem Closed.scan_append {literal : List Char} (h : Closed literal) :
    scan none start (literal ++ cs) = scan none (start + byteLength literal) cs := by
  induction h generalizing start with
  | nil => rfl
  | plain hc h ih => 
    rw [List.cons_append, scan_plain hc, ih, byteLength, Nat.add_assoc]
  | @blank blanks literal hblanks h ih =>
    rw [List.cons_append, scan_open, List.append_assoc, List.cons_append,
      scan_closed _ (not_mem_of_all_isBlank hblanks).1, ih]
    simp [hblanks, byteLength, Nat.add_assoc]

theorem Closed.append {front back : List Char} (hfront : Closed front) (hback : Closed back) :
    Closed (front ++ back) := by
  induction hfront with
  | nil => exact hback
  | plain hc _ ih => exact .plain hc ih
  | blank hblanks _ ih => simpa using Closed.blank hblanks ih

/-- Closed text in front of a cut lengthens the first literal. -/
theorem Cut.append_left {front : List Char} (hfront : Closed front) {literals : List (List Char)}
    {holes : List Hole} (h : Cut (start + byteLength front) cs literals holes) :
    ∃ literals', Cut start (front ++ cs) literals' holes := by
  cases h with
  | last h => exact ⟨_, .last fun start => hfront.scan_append.trans (h _)⟩
  | @hole _ literal _ _ literals _ hliteral hoffset hinner hrest =>
    rw [Nat.add_assoc, ← byteLength_append] at hoffset
    have hcut := Cut.hole (hfront.append hliteral) hoffset hinner hrest
    exact ⟨(front ++ literal) :: literals, by simpa only [List.append_assoc] using hcut⟩

/-- The placeholders of a text cut it. By induction on its length: a first character that opens no
placeholder joins the first literal. -/
theorem exists_cut (start : Nat) (cs : List Char) :
    ∃ literals, Cut start cs literals (scan none start cs) := by
  induction hn : cs.length using Nat.strong_induction_on generalizing start cs with
  | _ n ih =>
    subst hn
    match cs with
    | [] => exact ⟨[[]], .last fun _ => rfl⟩
    | c :: cs =>
      by_cases hc : c = '\x7b'
      · subst hc
        by_cases hclose : '\x7d' ∈ cs
        · obtain ⟨inner, rest, rfl, hinner⟩ := List.eq_append_cons_of_mem hclose
          obtain ⟨literals, hcut⟩ := ih rest.length (by simp; omega)
            (start + byteLength ['\x7b'] + byteLength (inner ++ ['\x7d'])) rest rfl
          rw [Nat.add_assoc, ← byteLength_append] at hcut
          rw [scan_open, scan_closed _ hinner, Nat.add_assoc, ← byteLength_append]
          cases hblank : inner.all isBlank with
          | true =>
            have hfront : Closed ('\x7b' :: (inner ++ ['\x7d'])) := .blank hblank .nil
            simpa [hblank] using Cut.append_left hfront hcut
          | false =>
            have hhole : Cut start ([] ++ (Hole.mk start inner).text.toList ++ rest) ([] :: literals)
                (⟨start, inner⟩ :: _) := .hole .nil rfl ⟨hinner, hblank⟩ (by simpa [text] using hcut)
            exact ⟨[] :: literals, by simpa [hblank, text] using hhole⟩
        · have hscan : ∀ start, scan none start ('\x7b' :: cs) = [] := fun start => by
            rw [scan_open, scan_unclosed _ hclose]
          rw [hscan start]
          exact ⟨_, .last hscan⟩
      · obtain ⟨literals, hcut⟩ := ih cs.length (by simp) (start + c.utf8Size) cs rfl
        rw [scan_plain hc]
        exact Cut.append_left (.plain hc .nil) hcut

/-! ## Searching -/

/-- No text with an opening brace in front is found before there is such a brace. -/
theorem splitAround?_append (needle : List Char) {front : List Char} (hfront : '\x7b' ∉ front)
    (cs : List Char) :
    splitAround? ('\x7b' :: needle) (front ++ cs) =
      (splitAround? ('\x7b' :: needle) cs).map fun found => (front ++ found.1, found.2) := by
  induction front with
  | nil => simp
  | cons c front ih =>
    rw [List.mem_cons, not_or] at hfront
    have hhead : List.isPrefixOf? ('\x7b' :: needle) (c :: (front ++ cs)) = none := by
      simp [List.isPrefixOf?, hfront.1]
    rw [List.cons_append, splitAround?, hhead, ih hfront.2]
    simp [Option.map_map, Function.comp_def]

theorem splitAround?_self (c : Char) (needle rest : List Char) :
    splitAround? (c :: needle) (c :: needle ++ rest) = some ([], rest) := by
  have hprefix : List.isPrefixOf? (c :: needle) (c :: (needle ++ rest)) = some rest :=
    List.isPrefixOf?_eq_some_iff_append_eq.mpr rfl
  rw [List.cons_append, splitAround?, hprefix]

/-- A placeholder does not begin with braces around white space. -/
theorem isPrefixOf?_blank {hole : Hole} (hinner : Filled hole.inner) {blanks : List Char}
    (hblanks : blanks.all isBlank = true) (rest : List Char) :
    hole.text.toList.isPrefixOf? ('\x7b' :: (blanks ++ '\x7d' :: rest)) = none := by
  rw [← Option.not_isSome_iff_eq_none, Option.isSome_iff_exists]
  rintro ⟨after, hafter⟩
  have heq := List.append_eq_of_isPrefixOf?_eq_some hafter
  have hsame : hole.inner ++ '\x7d' :: after = blanks ++ '\x7d' :: rest := by
    simpa [text] using heq
  -- both texts are cut at their first closing brace
  have hcut := splitOnce?_eq_some_iff.mpr ⟨hsame, (not_mem_of_all_isBlank hblanks).1⟩
  rw [splitOnce?_eq_some_iff.mpr ⟨rfl, hinner.notMem⟩] at hcut
  obtain ⟨rfl, -⟩ := Prod.mk.inj (Option.some.inj hcut)
  exact absurd hblanks (by simp [hinner.notBlank])

/-- Behind closed text a placeholder is found where it stands. -/
theorem splitAround?_text {hole : Hole} (hinner : Filled hole.inner) {literal : List Char}
    (h : Closed literal) (rest : List Char) :
    splitAround? hole.text.toList (literal ++ (hole.text.toList ++ rest)) =
      some (literal, rest) := by
  have htext : hole.text.toList = '\x7b' :: (hole.inner ++ ['\x7d']) := by simp [text]
  induction h with
  | nil =>
    rw [htext, List.nil_append]
    exact splitAround?_self _ _ rest
  | @plain c literal hc h ih =>
    have hfront : '\x7b' ∉ [c] := by simpa using Ne.symm hc
    have hskip := splitAround?_append (hole.inner ++ ['\x7d']) hfront
      (literal ++ (hole.text.toList ++ rest))
    rw [← htext, ih] at hskip
    exact hskip
  | @blank blanks literal hblanks h ih =>
    have hfront : '\x7b' ∉ blanks ++ ['\x7d'] := by
      simpa using (not_mem_of_all_isBlank hblanks).2
    have hskip := splitAround?_append (hole.inner ++ ['\x7d']) hfront
      (literal ++ (hole.text.toList ++ rest))
    rw [← htext, ih] at hskip
    have hprefix := isPrefixOf?_blank hinner hblanks (literal ++ (hole.text.toList ++ rest))
    simp only [List.cons_append, List.append_assoc, List.nil_append] at hskip ⊢
    rw [splitAround?, hprefix, hskip]
    simp

/-- Where the texts are found that are looked for one after the other, each behind the one before
it: the bytes at which they begin in a text that starts at byte `start`. At the first one that is
not found the search ends. -/
def foundAt : List String → Nat → List Char → List Nat
  | [], _, _ => []
  | placeholder :: more, start, rest =>
      match splitAround? placeholder.toList rest with
      | none => []
      | some (before, after) =>
          let offset := start + byteLength before
          offset :: foundAt more (offset + byteLength placeholder.toList) after

namespace Cut

variable {literals : List (List Char)} {holes : List Hole}

theorem length_literals (h : Cut start cs literals holes) : literals.length = holes.length + 1 := by
  induction h with
  | last _ => rfl
  | hole _ _ _ _ ih => rw [List.length_cons, ih, List.length_cons]

theorem filled (h : Cut start cs literals holes) : ∀ hole ∈ holes, Filled hole.inner := by
  induction h with
  | last _ => simp
  | hole _ _ hinner _ ih => exact List.forall_mem_cons.mpr ⟨hinner, ih⟩

/-- The literals hold no placeholders. -/
theorem scan_literals (h : Cut start cs literals holes) :
    ∀ literal ∈ literals, scan none 0 literal = [] := by
  induction h with
  | last h => simpa using h 0
  | @hole _ literal _ _ _ _ hliteral _ _ _ ih =>
    refine List.forall_mem_cons.mpr ⟨?_, ih⟩
    rw [← List.append_nil literal, hliteral.scan_append]
    rfl

/-- The text is the literals with the placeholders between them. -/
theorem eq_splice (h : Cut start cs literals holes) :
    cs = Pattern.splice literals (holes.map (·.text.toList)) := by
  induction h with
  | last _ => simp [Pattern.splice]
  | hole _ _ _ _ ih => rw [List.map_cons, Pattern.splice, ← ih]

/-- Each placeholder is found where it stands. -/
theorem foundAt_eq (h : Cut start cs literals holes) :
    foundAt (holes.map text) start cs = holes.map offset := by
  induction h with
  | last _ => rfl
  | @hole start literal hole cs literals holes hliteral hoffset hinner hrest ih =>
    rw [List.map_cons, foundAt, List.append_assoc, splitAround?_text hinner hliteral]
    simp only [← hoffset, ih, List.map_cons]

theorem literalsAround?_eq (h : Cut start cs literals holes) :
    literalsAround? (holes.map text) cs = some literals := by
  induction h with
  | last _ => rfl
  | @hole start literal hole cs literals holes hliteral hoffset hinner hrest ih =>
    rw [List.map_cons, literalsAround?, List.append_assoc, splitAround?_text hinner hliteral]
    simp only [ih, Option.map_some]

/-- Filling replaces each placeholder by the value that belongs to it. -/
theorem fillTemplate_eq (h : Cut start cs literals holes) {values : List Value}
    (hlength : values.length = holes.length) :
    fillTemplate ((holes.map text).zip values) cs =
      Pattern.splice literals (values.map (·.display.toList)) :=
  fillTemplate_of_literals h.literalsAround?_eq (by rw [hlength, List.length_map])

end Cut

end Hole

end DiceBot
