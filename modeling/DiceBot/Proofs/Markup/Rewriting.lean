import DiceBot.Proofs.Markup.Substitution
import DiceBot.Proofs.Text.Splitting

/-!
# Rewriting codes

The codes of a text are read, edited and spelled again. Reading a code keeps its kind and its
arguments, so that what is not of the form `key=value` is lost. A code is spelled as it was found
exactly if its spelling is canonical (`InlineCode.render_parse_iff`), and in no case does it become
longer, so that a text stays as it is only if each of its codes does
(`InlineCode.editAll_keeps_spelling`).
-/

namespace DiceBot

open Text Pattern

namespace InlineCode

/-- Neither a comma nor a closing bracket. -/
def Plain (cs : List Char) : Prop := ',' ∉ cs ∧ ']' ∉ cs

/-- A code that can be spelled so that it is read again. -/
structure WellFormed (code : InlineCode) : Prop where
  kind_ne_nil : code.kind ≠ []
  kind_plain : Plain code.kind
  key_plain : ∀ a ∈ code.arguments, Plain a.1 ∧ '=' ∉ a.1
  value_plain : ∀ a ∈ code.arguments, Plain a.2
  overwrite_eq : code.overwrite = none

/-- The spelling `[CQ:kind,key=value,…]` of a code. -/
def Canonical (cs : List Char) : Prop := ∃ code : InlineCode, code.WellFormed ∧ cs = code.render

/-! ## The arguments of a code -/

/-- An argument as it is spelled. -/
def spelled (a : List Char × List Char) : List Char := a.1 ++ '=' :: a.2

theorem mem_argumentsOf {cs : List Char} {a : List Char × List Char} (h : a ∈ argumentsOf cs) :
    ∃ piece ∈ splitOnChar ',' cs, piece = spelled a ∧ '=' ∉ a.1 := by
  obtain ⟨piece, hpiece, hsplit⟩ := List.mem_filterMap.mp h
  exact ⟨piece, hpiece, splitOnce?_eq_some_iff.mp hsplit⟩

theorem plain_of_mem_argumentsOf {cs : List Char} (hcs : ']' ∉ cs) {a : List Char × List Char}
    (h : a ∈ argumentsOf cs) : (Plain a.1 ∧ '=' ∉ a.1) ∧ Plain a.2 := by
  obtain ⟨piece, hpiece, rfl, hkey⟩ := mem_argumentsOf h
  have hcomma : ',' ∉ spelled a := notMem_of_mem_splitOnChar hpiece
  have hclosing : ']' ∉ spelled a := fun hmem => hcs (mem_of_mem_splitOnChar hpiece hmem)
  simp only [spelled, List.mem_append, List.mem_cons, not_or] at hcomma hclosing
  exact ⟨⟨⟨hcomma.1, hclosing.1⟩, hkey⟩, hcomma.2.2, hclosing.2.2⟩

/-- The arguments take no more characters, with a comma for each, than their text with one more. -/
theorem length_argumentsOf_le (cs : List Char) :
    ((argumentsOf cs).flatMap fun a => ',' :: spelled a).length ≤ cs.length + 1 := by
  rw [← List.length_cons (a := ','), ← flatMap_splitOnChar ',' cs, argumentsOf]
  induction splitOnChar ',' cs with
  | nil => exact Nat.le_refl _
  | cons piece pieces ih =>
    rw [List.filterMap_cons, List.flatMap_cons, List.length_append]
    split
    · exact ih.trans (Nat.le_add_left _ _)
    · next a hsplit =>
      obtain ⟨rfl, -⟩ := splitOnce?_eq_some_iff.mp hsplit
      rw [List.flatMap_cons, List.length_append]
      exact Nat.add_le_add_left ih _

/-- Arguments joined by commas are read again. -/
theorem argumentsOf_intercalate {arguments : List (List Char × List Char)} (hne : arguments ≠ [])
    (hkey : ∀ a ∈ arguments, Plain a.1 ∧ '=' ∉ a.1) (hvalue : ∀ a ∈ arguments, Plain a.2) :
    argumentsOf (List.intercalate [','] (arguments.map spelled)) = arguments := by
  have hcomma : ∀ piece ∈ arguments.map spelled, ',' ∉ piece := by
    intro piece hpiece
    obtain ⟨a, ha, rfl⟩ := List.mem_map.mp hpiece
    simp [spelled, (hkey a ha).1.1, (hvalue a ha).1]
  rw [argumentsOf, splitOnChar_eq_splitOn, List.splitOn_intercalate ',' hcomma (by simpa using hne),
    List.filterMap_map]
  have hread : ∀ a ∈ arguments, (splitOnce? '=' ∘ spelled) a = some a := fun a ha =>
    splitOnce?_eq_some_iff.mpr ⟨rfl, (hkey a ha).2⟩
  rw [List.filterMap_congr hread, List.filterMap_some]

/-! ## The spelling of a code -/

theorem render_eq (code : InlineCode) :
    code.render =
      opening ++ (code.kind ++ (code.arguments.flatMap (fun a => ',' :: spelled a) ++ [']'])) := by
  simp [render, spelled]

theorem length_render (code : InlineCode) :
    code.render.length =
      code.kind.length + (code.arguments.flatMap fun a => ',' :: spelled a).length + 5 := by
  rw [render_eq]
  simp only [List.length_append, List.length_cons, List.length_nil, opening]
  omega

theorem flatMap_spelled {arguments : List (List Char × List Char)} (hne : arguments ≠ []) :
    arguments.flatMap (fun a => ',' :: spelled a) =
      ',' :: List.intercalate [','] (arguments.map spelled) := by
  induction arguments with
  | nil => exact absurd rfl hne
  | cons a arguments ih =>
    cases arguments with
    | nil => simp [List.intercalate_singleton]
    | cons b arguments =>
      rw [List.flatMap_cons, ih (List.cons_ne_nil _ _)]
      simp [List.intercalate_cons_cons]

/-- What a code is read from: the kind and the closing bracket, or the kind, a comma, the text of
the arguments and the closing bracket. -/
inductive ReadFrom : InlineCode → List Char → Prop
  | bare (kind rest : List Char) (hne : kind ≠ []) (hkind : Plain kind) :
      ReadFrom { kind } (opening ++ (kind ++ ']' :: rest))
  | listed (kind list rest : List Char) (hne : kind ≠ []) (hkind : Plain kind) (hlist : list ≠ [])
      (hclosing : ']' ∉ list) :
      ReadFrom { kind, arguments := argumentsOf list }
        (opening ++ (kind ++ ',' :: (list ++ ']' :: rest)))

theorem Plain.takeWhile_eq {kind : List Char} (h : Plain kind) {c : Char} (hc : c = ']' ∨ c = ',')
    (rest : List Char) : (kind ++ c :: rest).takeWhile (fun c => c ≠ ']' && c ≠ ',') = kind := by
  refine takeWhile_append_of_head (fun d hd => ?_) ?_
  · have hcomma : d ≠ ',' := fun heq => h.1 (heq ▸ hd)
    have hclosing : d ≠ ']' := fun heq => h.2 (heq ▸ hd)
    simp [hcomma, hclosing]
  · rcases hc with rfl | rfl <;> simp

theorem ReadFrom.parseHere_eq {cs : List Char} {code : InlineCode} (h : ReadFrom code cs) :
    parseHere cs = some code := by
  cases h with
  | bare kind rest hne hkind =>
    rw [parseHere, List.isPrefixOf?_eq_some_iff_append_eq.mpr rfl]
    dsimp only
    rw [hkind.takeWhile_eq (.inl rfl), List.drop_left]
    simp [hne]
  | listed kind list rest hne hkind hlist hclosing =>
    have htail : (list ++ ']' :: rest).takeWhile (· ≠ ']') = list :=
      takeWhile_append_of_head (fun c hc => decide_eq_true fun heq => hclosing (heq ▸ hc)) (by simp)
    rw [parseHere, List.isPrefixOf?_eq_some_iff_append_eq.mpr rfl]
    dsimp only
    rw [hkind.takeWhile_eq (.inr rfl), List.drop_left, if_neg (by simpa using hne)]
    simp only [htail]
    simp [hlist]

theorem readFrom_of_parseHere {cs : List Char} {code : InlineCode}
    (h : parseHere cs = some code) : ReadFrom code cs := by
  unfold parseHere at h
  split at h
  · simp at h
  · next rest hfront =>
    obtain rfl := List.append_eq_of_isPrefixOf?_eq_some hfront
    have hmem : ∀ c ∈ rest.takeWhile (fun c => c ≠ ']' && c ≠ ','), (c ≠ ']' && c ≠ ',') = true :=
      fun c hc => List.mem_takeWhile_imp (p := fun c => c ≠ ']' && c ≠ ',') hc
    have hsplit := List.prefix_iff_eq_append.mp
      (List.takeWhile_prefix (l := rest) fun c => c ≠ ']' && c ≠ ',')
    dsimp only at h
    generalize rest.takeWhile (fun c => c ≠ ']' && c ≠ ',') = kind at h hmem hsplit
    have hkind : Plain kind :=
      ⟨fun hc => by simpa using hmem _ hc, fun hc => by simpa using hmem _ hc⟩
    split at h
    · simp at h
    · next hne =>
      have hne : kind ≠ [] := by simpa using hne
      -- the kind ends before a comma, before the closing bracket, or with the text
      split at h
      · next tail htail =>
        split at h
        · simp at h
        · next hcond =>
          obtain rfl := Option.some.inj h
          simp only [Bool.or_eq_true, decide_eq_true_eq, not_or] at hcond
          obtain ⟨hlist, hlength⟩ := hcond
          have hclosing : ']' ∉ tail.takeWhile (· ≠ ']') := fun hc => by
            simpa using List.mem_takeWhile_imp hc
          obtain ⟨back, hback⟩ := exists_eq_takeWhile_append hlength
          rw [← hsplit, htail]
          conv => rhs; rw [hback]
          exact .listed kind _ back hne hkind (by simpa using hlist) hclosing
      · next back hback =>
        obtain rfl := Option.some.inj h
        rw [← hsplit, hback]
        exact .bare kind back hne hkind
      · simp at h

/-- A code that is read is well formed, and it is spelled in no more characters than it was read
from. -/
theorem ReadFrom.wellFormed {cs : List Char} {code : InlineCode} (h : ReadFrom code cs) :
    code.WellFormed ∧ code.render.length ≤ cs.length := by
  cases h with
  | bare kind rest hne hkind =>
    refine ⟨⟨hne, hkind, by simp, by simp, rfl⟩, ?_⟩
    rw [length_render]
    simp [opening]
  | listed kind list rest hne hkind hlist hclosing =>
    refine ⟨⟨hne, hkind, fun a ha => (plain_of_mem_argumentsOf hclosing ha).1,
      fun a ha => (plain_of_mem_argumentsOf hclosing ha).2, rfl⟩, ?_⟩
    have hle := length_argumentsOf_le list
    rw [length_render]
    simp only [List.length_append, List.length_cons, opening]
    omega

theorem WellFormed.readFrom_render {code : InlineCode} (h : code.WellFormed) :
    ReadFrom code code.render := by
  obtain ⟨kind, arguments, overwrite⟩ := code
  obtain ⟨hne, hkind, hkey, hvalue, rfl⟩ := h
  rw [render_eq]
  cases arguments with
  | nil => exact .bare kind [] hne hkind
  | cons a arguments =>
    have hargs : a :: arguments ≠ [] := List.cons_ne_nil _ _
    have hfirst : spelled a <:+: List.intercalate [','] ((a :: arguments).map spelled) :=
      infix_intercalate List.mem_cons_self _
    have hlist : List.intercalate [','] ((a :: arguments).map spelled) ≠ [] := by
      intro hnil
      rw [hnil] at hfirst
      simp [spelled] at hfirst
    have hclosing : ']' ∉ List.intercalate [','] ((a :: arguments).map spelled) := by
      intro hmem
      rcases mem_intercalate hmem with hmem | ⟨piece, hpiece, hmem⟩
      · exact absurd hmem (by decide)
      · obtain ⟨b, hb, rfl⟩ := List.mem_map.mp hpiece
        simp [spelled, (hkey b hb).1.2, (hvalue b hb).2] at hmem
    have hread := ReadFrom.listed kind _ [] hne hkind hlist hclosing
    rw [argumentsOf_intercalate hargs hkey hvalue] at hread
    rwa [flatMap_spelled hargs]

/-- A code in a text has an opening, at least one character and a closing bracket. -/
theorem length_of_mem_matched {text m : List Char} (hm : m ∈ pattern.matched text) :
    6 ≤ m.length := by
  obtain ⟨_, hfound⟩ := proper_pattern.eq_some_of_mem_matched hm
  obtain ⟨w, rest, rfl, ⟨c, line, rfl, -⟩, -⟩ := bracketed_eq_some_iff.mp hfound
  simp only [List.length_append, List.length_cons, opening]
  omega

theorem parse_cases (cs : List Char) :
    parse cs = {} ∨ (parse cs).WellFormed ∧ (parse cs).render.length ≤ cs.length := by
  induction cs with
  | nil => exact .inl rfl
  | cons c cs ih =>
    rw [parse]
    cases hhere : parseHere (c :: cs) with
    | none =>
      rw [Option.getD_none]
      refine ih.imp_right fun ⟨hwell, hle⟩ => ⟨hwell, ?_⟩
      rw [List.length_cons]
      omega
    | some code =>
      exact .inr (readFrom_of_parseHere hhere).wellFormed

/-- A code is read as it is spelled. -/
theorem WellFormed.parse_render {code : InlineCode} (h : code.WellFormed) :
    parse code.render = code := by
  have hhere := h.readFrom_render.parseHere_eq
  rw [render_eq] at hhere ⊢
  rw [opening, List.cons_append, parse, ← List.cons_append, ← opening, hhere, Option.getD_some]

/-- A code that is found in a text is spelled as it was found exactly if its spelling is
canonical. -/
theorem render_parse_iff {text m : List Char} (hm : m ∈ pattern.matched text) :
    (parse m).render = m ↔ Canonical m := by
  constructor
  · intro h
    rcases parse_cases m with hnone | ⟨hwell, -⟩
    · -- the spelling of no code is shorter than every code
      have hlength := length_of_mem_matched hm
      rw [← h, hnone] at hlength
      exact absurd hlength (by decide)
    · exact ⟨parse m, hwell, h.symm⟩
  · rintro ⟨code, hwell, rfl⟩
    rw [hwell.parse_render]

theorem length_render_parse_le {text m : List Char} (hm : m ∈ pattern.matched text) :
    (parse m).render.length ≤ m.length := by
  rcases parse_cases m with hnone | ⟨-, hle⟩
  · have hlength := length_of_mem_matched hm
    have hempty : (render {}).length = 5 := rfl
    rw [hnone]
    omega
  · exact hle

/-! ## Editing the codes of a text -/

theorem WellFormed.written_eq {code : InlineCode} (h : code.WellFormed) :
    code.written = code.render := by
  rw [written, h.overwrite_eq, Option.getD_none]

theorem written_parse (cs : List Char) : (parse cs).written = (parse cs).render := by
  rcases parse_cases cs with hnone | ⟨hwell, -⟩
  · rw [hnone]
    rfl
  · exact hwell.written_eq

theorem mapFromRight_edit {σ : Type} (edit : σ → InlineCode → InlineCode × σ)
    (found : List (List Char)) (s : σ) :
    mapFromRight (fun s m => (edit s (parse m)).map written id) found s =
      ((mapFromRight edit (found.map parse) s).1.map written,
        (mapFromRight edit (found.map parse) s).2) := by
  induction found with
  | nil => rfl
  | cons m found ih =>
    rw [mapFromRight, ih]
    rfl

/-- Editing the codes of a text leaves everything between them as it is, and a code that is not
edited keeps its spelling exactly if it is canonical. So a text whose codes are all left as received
stays as it is exactly if all its codes are canonical. -/
theorem editAll_keeps_spelling {σ : Type} (edit : σ → InlineCode → InlineCode × σ)
    (text : List Char) (s : σ) :
    let found := pattern.matched text
    let edited := (mapFromRight edit (found.map parse) s).1
    text = splice (pattern.gaps text) found ∧ edited.length = found.length ∧
    editAll edit text s = (splice (pattern.gaps text) (edited.map written),
      (mapFromRight edit (found.map parse) s).2) ∧
    (∀ (i : Nat) m, found[i]? = some m → edited[i]? = some (parse m) →
      ((edited.map written)[i]? = some m ↔ Canonical m)) ∧
    (edited = found.map parse → ((editAll edit text s).1 = text ↔ ∀ m ∈ found, Canonical m)) := by
  intro found edited
  have hout : editAll edit text s = (splice (pattern.gaps text) (edited.map written),
      (mapFromRight edit (found.map parse) s).2) := by
    rw [editAll, proper_pattern.substitute_eq_splice, mapFromRight_edit]
  refine ⟨(proper_pattern.splice_matched text).symm, by simp [edited], hout, ?_, ?_⟩
  · intro i m hm hedited
    rw [List.getElem?_map, hedited, Option.map_some, written_parse, Option.some_inj]
    exact render_parse_iff (List.mem_of_getElem? hm)
  · intro hsame
    have hmap : (editAll edit text s).1 = pattern.map (fun m => (parse m).render) text := by
      rw [hout, hsame, List.map_map, proper_pattern.map_eq_splice]
      exact congrArg _ (List.map_congr_left fun m _ => written_parse m)
    rw [hmap, proper_pattern.map_eq_self_iff fun m hm => length_render_parse_le hm]
    exact forall₂_congr fun m hm => render_parse_iff hm

/-- The picture is written otherwise, the mention before it keeps its spelling, and the same text
without the picture stays as it is. -/
theorem editAll_keeps_spelling_mention :
    let edit : Nat → InlineCode → InlineCode × Nat := fun n code =>
      (if code.kind = "image".toList then { code with overwrite := some "…".toList } else code,
        n + 1)
    let mention := "[CQ:at,qq=1]".toList
    let found := pattern.matched "[CQ:at,qq=1]![CQ:image,file=a.png]".toList
    let edited := (mapFromRight edit (found.map parse) 0).1
    (found[0]? = some mention ∧ edited[0]? = some (parse mention) ∧
      ((edited.map written)[0]? = some mention ↔ Canonical mention)) ∧
    (mapFromRight edit ((pattern.matched mention).map parse) 0).1 =
        (pattern.matched mention).map parse ∧
      ((editAll edit mention 0).1 = mention ↔ ∀ m ∈ pattern.matched mention, Canonical m) := by
  intro edit mention found edited
  have hfound : found[0]? = some mention := by decide
  have hedited : edited[0]? = some (parse mention) := by decide
  have hsame : (mapFromRight edit ((pattern.matched mention).map parse) 0).1 =
      (pattern.matched mention).map parse := by decide
  exact ⟨⟨hfound, hedited,
      (editAll_keeps_spelling edit _ 0).2.2.2.1 0 mention hfound hedited⟩,
    hsame, (editAll_keeps_spelling edit mention 0).2.2.2.2 hsame⟩

/-- An argument without a value is lost although the code is not edited. -/
theorem not_editAll_keeps_text :
    ¬∀ text, (editAll (fun (s : Unit) code => (code, s)) text ()).1 = text := by
  intro h
  have hlost : (editAll (fun (s : Unit) code => (code, s)) "[CQ:x,y]".toList ()).1 =
      "[CQ:x]".toList := by decide
  rw [h] at hlost
  exact absurd hlost (by decide)

end InlineCode

end DiceBot
