import DiceBot.Proofs.Markup.Rewriting

/-!
# Spellings of codes

A code and its spelling determine each other. The spellings are described as texts
(`InlineCode.IsSpelling`), without the reader or the writer: what stands between the opening and
the only closing bracket is cut at its commas, the first piece is the kind and every other piece
holds a `=`. A code that can be read back is spelled so, and what is spelled so is read as a code
with this very spelling (`InlineCode.written_roundtrip`).
-/

namespace DiceBot

open Text

namespace InlineCode

/-- An opening, a kind, pieces that hold a `=` with a comma in front of each, and a closing
bracket. -/
def IsSpelling (text : List Char) : Prop :=
  ∃ (kind : List Char) (pieces : List (List Char)),
    text = opening ++ (kind ++ (pieces.flatMap (fun piece => ',' :: piece) ++ [']'])) ∧
    kind ≠ [] ∧ Plain kind ∧ ∀ piece ∈ pieces, Plain piece ∧ '=' ∈ piece

/-- A piece that holds a `=` is the spelling of an argument, whose key ends at the first one. -/
theorem exists_eq_spelled {piece : List Char} (hplain : Plain piece) (hmem : '=' ∈ piece) :
    ∃ a, piece = spelled a ∧ (Plain a.1 ∧ '=' ∉ a.1) ∧ Plain a.2 := by
  obtain ⟨key, value, rfl, hkey⟩ := List.eq_append_cons_of_mem hmem
  obtain ⟨hcomma, hclosing⟩ := hplain
  simp only [List.mem_append, List.mem_cons, not_or] at hcomma hclosing
  exact ⟨(key, value), rfl, ⟨⟨hcomma.1, hclosing.1⟩, hkey⟩, hcomma.2.2, hclosing.2.2⟩

theorem exists_eq_map_spelled {pieces : List (List Char)}
    (h : ∀ piece ∈ pieces, Plain piece ∧ '=' ∈ piece) :
    ∃ arguments : List (List Char × List Char), pieces = arguments.map spelled ∧
      ∀ a ∈ arguments, (Plain a.1 ∧ '=' ∉ a.1) ∧ Plain a.2 := by
  induction pieces with
  | nil => exact ⟨[], rfl, by simp⟩
  | cons piece pieces ih =>
    obtain ⟨hpiece, hpieces⟩ := List.forall_mem_cons.mp h
    obtain ⟨a, rfl, ha⟩ := exists_eq_spelled hpiece.1 hpiece.2
    obtain ⟨arguments, rfl, harguments⟩ := ih hpieces
    exact ⟨a :: arguments, rfl, List.forall_mem_cons.mpr ⟨ha, harguments⟩⟩

/-- The spellings are the texts that are written for the codes that can be read back. -/
theorem isSpelling_iff_canonical {text : List Char} : IsSpelling text ↔ Canonical text := by
  constructor
  · rintro ⟨kind, pieces, rfl, hne, hkind, hpieces⟩
    obtain ⟨arguments, rfl, harguments⟩ := exists_eq_map_spelled hpieces
    have hwell : WellFormed { kind, arguments } :=
      ⟨hne, hkind, fun a ha => (harguments a ha).1, fun a ha => (harguments a ha).2, rfl⟩
    refine ⟨_, hwell, ?_⟩
    rw [render_eq, List.flatMap_map]
  · rintro ⟨code, hwell, rfl⟩
    refine ⟨code.kind, code.arguments.map spelled, ?_, hwell.kind_ne_nil, hwell.kind_plain, ?_⟩
    · rw [render_eq, List.flatMap_map]
    · intro piece hpiece
      obtain ⟨a, ha, rfl⟩ := List.mem_map.mp hpiece
      obtain ⟨⟨hcomma, hclosing⟩, -⟩ := hwell.key_plain a ha
      obtain ⟨hcomma', hclosing'⟩ := hwell.value_plain a ha
      simp [Plain, spelled, hcomma, hclosing, hcomma', hclosing']

/-- A code that can be read back is written as a spelling, from which the same kind and the same
arguments are read in the same order. What is a spelling is read as such a code, and this code is
written as the spelling. No other text is written back as it was read, but for the opening with the
closing bracket, which is written for what is not a code. -/
theorem written_roundtrip (code : InlineCode) (text : List Char) :
    (code.WellFormed → IsSpelling code.written ∧ parse code.written = code) ∧
    (IsSpelling text → (parse text).WellFormed ∧ (parse text).written = text) ∧
    ((parse text).written = text → IsSpelling text ∨ text = opening ++ [']']) := by
  refine ⟨fun hwell => ?_, fun hspelling => ?_, fun hsame => ?_⟩
  · rw [hwell.written_eq]
    exact ⟨isSpelling_iff_canonical.mpr ⟨code, hwell, rfl⟩, hwell.parse_render⟩
  · obtain ⟨original, hwell, rfl⟩ := isSpelling_iff_canonical.mp hspelling
    rw [hwell.parse_render]
    exact ⟨hwell, hwell.written_eq⟩
  · rw [written_parse] at hsame
    rcases parse_cases text with hnone | ⟨hwell, -⟩
    · rw [hnone] at hsame
      exact .inr hsame.symm
    · exact .inl (isSpelling_iff_canonical.mpr ⟨parse text, hwell, hsame.symm⟩)

/-- A kind that looks like an opening, a key that is empty, a key that occurs twice, and values that
are empty or hold a `=` or an opening. -/
theorem written_roundtrip_crowded :
    let code : InlineCode :=
      { kind := "[CQ:at".toList
        arguments := [([], []), ("qq".toList, "=1=[CQ:x".toList), ("qq".toList, []),
          ([], "二".toList)] }
    let text := "[CQ:[CQ:at,=,qq==1=[CQ:x,qq=,=二]".toList
    (IsSpelling code.written ∧ parse code.written = code) ∧
      (parse text).WellFormed ∧ (parse text).written = text ∧
      (IsSpelling text ∨ text = opening ++ [']']) := by
  intro code text
  have hcode : code.WellFormed :=
    { kind_ne_nil := by decide
      kind_plain := by unfold Plain; decide
      key_plain := by unfold Plain; decide
      value_plain := by unfold Plain; decide
      overwrite_eq := rfl }
  have hwritten : code.written = text := by decide
  have hround := written_roundtrip code text
  have hspelling : IsSpelling text := hwritten ▸ (hround.1 hcode).1
  have hkept := hround.2.1 hspelling
  exact ⟨hround.1 hcode, hkept.1, hkept.2, hround.2.2 hkept.2⟩

end InlineCode

end DiceBot
