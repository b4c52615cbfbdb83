import DiceBot.Command.Argument
import DiceBot.Proofs.Text.Words

/-!
# Words sorted into arguments

A named argument is told by its spelling: two dashes, a name without `=`, and a value behind `=` if
there is one, neither of them empty. A word is read as the argument that it spells and as nothing
else (`NamedArgument.parse?_eq_some_iff`), so words are sorted into two lists, each in order: those
that spell a named argument and all others as they are (`Sorted`). The words of a text are found
again whatever white space is between and around them (`Text.words_layOut`), and so are its
arguments (`splitArguments_sorts`).
-/

namespace DiceBot

/-! ## Words laid out with white space -/

namespace Text

/-- A text made of words, each with what stands in front of it, and an end. -/
def layOut (trail : List Char) : List (List Char × List Char) → List Char
  | [] => trail
  | (gap, w) :: pieces => gap ++ w ++ layOut trail pieces

/-- White space stands around the words, and there is some between any two of them. -/
structure IsLayout (trail : List Char) (pieces : List (List Char × List Char)) : Prop where
  words : ∀ p ∈ pieces, IsWord p.2
  gaps : ∀ p ∈ pieces, ∀ c ∈ p.1, isBlank c = true
  trail : ∀ c ∈ trail, isBlank c = true
  apart : ∀ p ∈ pieces.tail, p.1 ≠ []

variable {w rest trail : List Char} {pieces : List (List Char × List Char)}

theorem words_append_of_blank (h : ∀ c ∈ w, isBlank c = true) (rest : List Char) :
    words (w ++ rest) = words rest := by
  induction w with
  | nil => rfl
  | cons c w ih =>
    obtain ⟨hc, hw⟩ := List.forall_mem_cons.mp h
    exact (words_append_cons hc [] (w ++ rest)).trans (ih hw)

theorem IsWord.words_append (h : IsWord w) (hrest : ∀ c ∈ rest.head?, isBlank c = true) :
    words (w ++ rest) = w :: words rest := by
  cases rest with
  | nil => rw [List.append_nil, h.words_eq]; rfl
  | cons b rest =>
    have hb : isBlank b = true := hrest b rfl
    have hskip : words (b :: rest) = words rest := words_append_cons hb [] rest
    rw [words_append_cons hb, h.words_eq, hskip, List.singleton_append]

/-- Words laid out with white space are the words of the text. -/
theorem words_layOut (h : IsLayout trail pieces) :
    words (layOut trail pieces) = pieces.map Prod.snd := by
  induction pieces with
  | nil =>
    have hblank := words_append_of_blank h.trail []
    rwa [List.append_nil] at hblank
  | cons p pieces ih =>
    obtain ⟨gap, w⟩ := p
    obtain ⟨hw, hwords⟩ := List.forall_mem_cons.mp h.words
    obtain ⟨hgap, hgaps⟩ := List.forall_mem_cons.mp h.gaps
    have hrest : words (layOut trail pieces) = pieces.map Prod.snd :=
      ih ⟨hwords, hgaps, h.trail, fun p hp => h.apart p (List.mem_of_mem_tail hp)⟩
    -- the word ends where the gap of the next one begins, or the white space at the end
    have hend : ∀ c ∈ (layOut trail pieces).head?, isBlank c = true := by
      cases pieces with
      | nil => exact fun c hc => h.trail c (List.mem_of_mem_head? hc)
      | cons p pieces =>
        obtain ⟨next, w'⟩ := p
        obtain ⟨b, next, rfl⟩ := List.exists_cons_of_ne_nil (h.apart (next, w') List.mem_cons_self)
        intro c hc
        obtain rfl : b = c := Option.some.inj hc
        exact hgaps _ List.mem_cons_self b List.mem_cons_self
    rw [layOut, List.append_assoc, words_append_of_blank hgap, hw.words_append hend, hrest,
      List.map_cons]

end Text

open Text

/-! ## The spelling of a named argument -/

namespace NamedArgument

variable {a : NamedArgument} {w : List Char}

/-- Two dashes, the name, and the value behind `=` if there is one. -/
def spelling (a : NamedArgument) : List Char :=
  "--".toList ++ a.name.toList ++
    match a.value? with
    | none => []
    | some value => '=' :: value.toList

/-- The name is not empty and has no `=` in it, and if there is a value it is not empty. -/
structure WellFormed (a : NamedArgument) : Prop where
  name_ne : a.name ≠ ""
  not_mem : '=' ∉ a.name.toList
  value_ne : a.value? ≠ some ""

/-- Behind two dashes the name goes as far as it can, and what follows it decides. -/
theorem parse?_dashes {text name rest : List Char} (hname : text.takeWhile isNameChar = name)
    (hrest : text.dropWhile isNameChar = rest) :
    parse? ("--".toList ++ text) =
      if name.isEmpty then none
      else
        match rest with
        | [] => some ⟨String.ofList name, none⟩
        | '=' :: value =>
            if value.isEmpty || value.any isBlank then none
            else some ⟨String.ofList name, some (String.ofList value)⟩
        | _ => none := by
  subst hname hrest
  rfl

theorem exists_of_parse? (h : parse? w = some a) : ∃ text, w = "--".toList ++ text := by
  rw [parse?] at h
  cases hdashes : ['-', '-'].isPrefixOf? w with
  | none =>
    rw [hdashes] at h
    exact nomatch h
  | some text => exact ⟨text, (List.append_eq_of_isPrefixOf?_eq_some hdashes).symm⟩

/-- What a word is read as has the word for its spelling. -/
theorem eq_spelling_of_parse? (h : parse? w = some a) : a.WellFormed ∧ w = a.spelling := by
  obtain ⟨text, rfl⟩ := exists_of_parse? h
  have hsign : '=' ∉ (String.ofList (text.takeWhile isNameChar)).toList := by
    rw [String.toList_ofList]
    exact fun hmem => absurd (List.mem_takeWhile_imp hmem) (by decide)
  have htext := List.takeWhile_append_dropWhile (p := isNameChar) (l := text)
  rw [parse?_dashes rfl rfl] at h
  split at h
  · exact nomatch h
  next hempty =>
  have hne : String.ofList (text.takeWhile isNameChar) ≠ "" := by simpa using hempty
  split at h
  next hrest =>
    obtain rfl := Option.some.inj h
    exact ⟨⟨hne, hsign, nofun⟩, by simpa [spelling, hrest] using htext.symm⟩
  next value hrest =>
    split at h
    · exact nomatch h
    next hrefused =>
    obtain rfl := Option.some.inj h
    have hvalue : String.ofList value ≠ "" := by
      intro hnil
      obtain rfl : value = [] := by simpa using hnil
      exact hrefused rfl
    exact ⟨⟨hne, hsign, fun heq => hvalue (Option.some.inj heq)⟩,
      by simpa [spelling, hrest] using htext.symm⟩
  · exact nomatch h

theorem parse?_spelling (ha : a.WellFormed) (hblank : ∀ c ∈ a.spelling, isBlank c = false) :
    parse? a.spelling = some a := by
  obtain ⟨name, value?⟩ := a
  have hname : ∀ c ∈ name.toList, isNameChar c = true := by
    intro c hc
    have hne : c ≠ '=' := fun heq => ha.not_mem (heq ▸ hc)
    simp [isNameChar, hblank c (by simp [spelling, hc]), hne]
  have hne : name.toList.isEmpty = false := by simpa using ha.name_ne
  rw [spelling, List.append_assoc]
  cases value? with
  | none =>
    rw [parse?_dashes (takeWhile_append_of_head hname (by simp))
      (dropWhile_append_of_head hname (by simp)), hne]
    simp
  | some value =>
    have hvalue : value.toList.isEmpty = false := by simpa using ha.value_ne
    have hnone : value.toList.any isBlank = false :=
      List.any_eq_false.mpr fun c hc => by simp [hblank c (by simp [spelling, hc])]
    have hsign : ∀ c ∈ ('=' :: value.toList).head?, isNameChar c = false := by simp [isNameChar]
    rw [parse?_dashes (takeWhile_append_of_head hname hsign)
      (dropWhile_append_of_head hname hsign), hne]
    simp [hvalue, hnone]

/-- A word is read as the named argument that it spells. -/
theorem parse?_eq_some_iff (hw : ∀ c ∈ w, isBlank c = false) :
    parse? w = some a ↔ a.WellFormed ∧ w = a.spelling := by
  constructor
  · exact eq_spelling_of_parse?
  · rintro ⟨ha, rfl⟩
    exact parse?_spelling ha hw

theorem hasValue_iff (h : a.WellFormed) : a.hasValue = true ↔ '=' ∈ a.spelling := by
  obtain ⟨name, value?⟩ := a
  cases value? with
  | none => simpa [hasValue, spelling] using h.not_mem
  | some value => simp [hasValue, spelling]

theorem asBool_eq_false_iff (a : NamedArgument) : a.asBool = false ↔
    a.spelling = "--".toList ++ a.name.toList ++ "=false".toList := by
  obtain ⟨name, value?⟩ := a
  cases value? with
  | none => simp [asBool, spelling]
  | some value =>
    simp [asBool, spelling, String.ext_iff]

end NamedArgument

/-! ## Sorting -/

/-- Words sorted into positional and named arguments, each in order: those that spell a named
argument, and all others as they are. -/
inductive Sorted : List (List Char) → List String → List NamedArgument → Prop
  | nil : Sorted [] [] []
  | named {tokens : List (List Char)} {positional : List String} {named : List NamedArgument}
      {a : NamedArgument} (ha : a.WellFormed) (rest : Sorted tokens positional named) :
      Sorted (a.spelling :: tokens) positional (a :: named)
  | positional {tokens : List (List Char)} {positional : List String}
      {named : List NamedArgument} {w : List Char}
      (hw : ∀ a : NamedArgument, a.WellFormed → w ≠ a.spelling)
      (rest : Sorted tokens positional named) :
      Sorted (w :: tokens) (String.ofList w :: positional) named

theorem sorted_partitionArguments {tokens : List (List Char)} (h : ∀ w ∈ tokens, IsWord w) :
    Sorted tokens (partitionArguments tokens).1 (partitionArguments tokens).2 := by
  induction tokens with
  | nil => exact .nil
  | cons w tokens ih =>
    obtain ⟨hw, htokens⟩ := List.forall_mem_cons.mp h
    rw [partitionArguments]
    cases hread : NamedArgument.parse? w with
    | some a =>
      obtain ⟨ha, rfl⟩ := (NamedArgument.parse?_eq_some_iff hw.2).mp hread
      exact .named ha (ih htokens)
    | none =>
      refine .positional (fun a ha heq => ?_) (ih htokens)
      rw [(NamedArgument.parse?_eq_some_iff hw.2).mpr ⟨ha, heq⟩] at hread
      exact nomatch hread

theorem Sorted.wellFormed {tokens : List (List Char)} {positional : List String}
    {named : List NamedArgument} (h : Sorted tokens positional named) :
    ∀ a ∈ named, a.WellFormed := by
  induction h with
  | nil => exact nofun
  | named ha _ ih => exact List.forall_mem_cons.mpr ⟨ha, ih⟩
  | positional _ _ ih => exact ih

/-- The arguments of a text are its words, whatever white space stands between them and around them,
and each word is one argument: a named one if it spells one, and otherwise a positional one as it
stands. A named argument has a value exactly if there is `=` in its spelling, and only the value
`false` makes it say no. -/
theorem splitArguments_sorts {trail : List Char} {pieces : List (List Char × List Char)}
    (h : IsLayout trail pieces) :
    Sorted (pieces.map Prod.snd) (splitArguments (layOut trail pieces)).1
      (splitArguments (layOut trail pieces)).2 ∧
    ∀ a ∈ (splitArguments (layOut trail pieces)).2,
      (a.hasValue = true ↔ '=' ∈ a.spelling) ∧
      (a.asBool = false ↔ a.spelling = "--".toList ++ a.name.toList ++ "=false".toList) := by
  have hwords : ∀ w ∈ pieces.map Prod.snd, IsWord w := List.forall_mem_map.mpr h.words
  have hsorted := sorted_partitionArguments hwords
  rw [splitArguments, words_layOut h]
  exact ⟨hsorted, fun a ha => ⟨a.hasValue_iff (hsorted.wellFormed a ha),
    a.asBool_eq_false_iff⟩⟩

/-- A second sign belongs to the value and a third dash to the name; what follows a name without a
value, or with an empty one, makes the difference between the lists. -/
theorem splitArguments_sorts_signs :
    let trail := " ".toList
    let pieces := [("\t", "--a=b=c"), ("\u3000", "x"), (" \n", "--asm"), (" ", "--n="),
      ("  ", "---b=false")].map fun p => (p.1.toList, p.2.toList)
    let split := splitArguments (layOut trail pieces)
    split = (["x", "--n="], [⟨"a", some "b=c"⟩, ⟨"asm", none⟩, ⟨"-b", some "false"⟩]) ∧
      Sorted (pieces.map Prod.snd) split.1 split.2 ∧
      ∀ a ∈ split.2, (a.hasValue = true ↔ '=' ∈ a.spelling) ∧
        (a.asBool = false ↔ a.spelling = "--".toList ++ a.name.toList ++ "=false".toList) := by
  intro trail pieces split
  have hlayout : IsLayout trail pieces :=
    ⟨by decide, by decide, by decide, by decide⟩
  exact ⟨by decide, splitArguments_sorts hlayout⟩

end DiceBot
