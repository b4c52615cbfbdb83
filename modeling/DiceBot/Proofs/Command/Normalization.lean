import DiceBot.Proofs.Command.Rederivation
import DiceBot.Proofs.Markup.Stripping

/-!
# What a message is freed from

Quotes are taken out of a message in one scan, and then mentions in another. What stands between
them holds neither quotes nor mentions, nor does the text on which lead-ins are matched if no stretch
in front of something taken out ends inside markup (`Invocation.markedText_without_markup`).
Otherwise the parts that are joined may be a mention or a quote
(`Invocation.not_markedText_without_markup`).
-/

namespace DiceBot

open Text Pattern

namespace Invocation

/-- Is a code a quote of another message? -/
def isQuote (code : List Char) : Bool := (InlineCode.parse code).kind = ['r', 'e', 'p', 'l', 'y']

/-- The stretches of a message between its quotes. -/
def quoteStretches (message : List Char) : List (List Char) :=
  InlineCode.pattern.stretches isQuote (unifyLineEnds message)

/-- The stretches of a message without quotes between its mentions. -/
def mentionStretches (message : List Char) (platform : String) : List (List Char) :=
  (Mention.pattern platform).gaps (quoteStretches message).flatten

/-- The text in front of a repeat marker that is taken out does not end inside markup. -/
def MarkerApart {α : Type} (p : Pattern α) (text : List Char) (consume : Bool) : Prop :=
  consume = true → ∀ front marker back count, TakesOut text front marker back count →
    ¬p.EndsInside front

theorem normalizeMessage_fst (message : List Char) (platform : String) :
    (normalizeMessage message platform).1 = trim (mentionStretches message platform).flatten := by
  have hunquoted : InlineCode.strip ['r', 'e', 'p', 'l', 'y'] (unifyLineEnds message) =
      (quoteStretches message).flatten := InlineCode.strip_eq_flatten _ _
  unfold normalizeMessage
  rw [hunquoted]
  dsimp only
  rw [Mention.extract_fst]
  rfl

/-! ## Trimming and repeat markers -/

theorem absent_trim {α : Type} {p : Pattern α} (hp : Proper p) {cs : List Char}
    (h : p.Absent cs) : p.Absent (trim cs) := by
  obtain ⟨before, after, heq, -, -⟩ := exists_eq_trim cs
  exact hp.absent_of_infix h ⟨before, after, heq.symm⟩

theorem matched_trim (cs : List Char) :
    InlineCode.pattern.matched (trim cs) = InlineCode.pattern.matched cs := by
  have hnot : ∀ {blanks : List Char}, (∀ c ∈ blanks, isBlank c = true) →
      '[' ∉ blanks ∧ ']' ∉ blanks := fun h =>
    ⟨fun hc => absurd (h _ hc) (by decide), fun hc => absurd (h _ hc) (by decide)⟩
  obtain ⟨before, after, heq, hbefore, hafter⟩ := exists_eq_trim cs
  conv_rhs => rw [heq, List.append_assoc, InlineCode.matched_append_of_notMem (hnot hbefore).1]
  rw [InlineCode.matched_append_of_notMem_closing (hnot hafter).1 (hnot hafter).2]

/-- The text on which lead-ins are matched is the normalised message, or what is left of it when a
repeat marker is taken out. -/
theorem markedText_cases (message platform : String) (consume : Bool) :
    (markedText message platform consume).1 = (normalizeMessage message.toList platform).1 ∨
    consume = true ∧ ∃ front marker back count,
      TakesOut (normalizeMessage message.toList platform).1 front marker back count ∧
      (markedText message platform consume).1 = front ++ back := by
  unfold markedText
  cases consume with
  | false =>
    left
    rw [if_neg Bool.false_ne_true]
  | true =>
    rw [if_pos rfl]
    rcases RepeatMarker.take_cases (normalizeMessage message.toList platform).1 with hnone |
      ⟨front, marker, back, count, htext, hmarker, htake⟩
    · exact .inl (by rw [hnone])
    · exact .inr ⟨rfl, front, marker, back, count, ⟨htext, hmarker, htake⟩, by rw [htake]⟩

theorem absent_markedText {α : Type} {p : Pattern α} (hp : Proper p) {message platform : String}
    {consume : Bool} (h : p.Absent (normalizeMessage message.toList platform).1)
    (hmarker : MarkerApart p (normalizeMessage message.toList platform).1 consume) :
    p.Absent (markedText message platform consume).1 := by
  rcases markedText_cases message platform consume with heq |
    ⟨hconsume, front, marker, back, count, htakes, heq⟩
  · rwa [heq]
  · rw [heq]
    rw [htakes.text_eq] at h
    refine absent_append (hmarker hconsume _ _ _ _ htakes) ?_ ?_
    · exact hp.absent_of_infix h ⟨[], marker ++ back, by simp⟩
    · exact h.of_suffix (List.suffix_append _ _)

theorem matched_markedText {message platform : String} {consume : Bool}
    (hmarker : MarkerApart InlineCode.pattern (normalizeMessage message.toList platform).1
      consume) :
    InlineCode.pattern.matched (markedText message platform consume).1 =
      InlineCode.pattern.matched (normalizeMessage message.toList platform).1 := by
  rcases markedText_cases message platform consume with heq |
    ⟨hconsume, front, marker, back, count, htakes, heq⟩
  · rw [heq]
  · have hinside := hmarker hconsume _ _ _ _ htakes
    have hnot : '[' ∉ marker := by
      obtain ⟨digits, sign, rfl, -, hdigits, hsign, -⟩ := htakes.isMarker
      intro hmem
      rcases List.mem_append.mp hmem with hmem | hmem
      · exact absurd (hdigits _ hmem) (by decide)
      · rw [← List.mem_singleton.mp hmem] at hsign
        exact absurd hsign (by decide)
    rw [heq, htakes.text_eq, List.append_assoc, InlineCode.matched_append hinside,
      InlineCode.matched_append hinside, InlineCode.matched_append_of_notMem hnot]

/-! ## What is left -/

/-- No stretch between the quotes of a message holds a quote, and no stretch between its mentions
holds the markup of a mention. Joined and trimmed, these stretches are the normalised message. The
text on which lead-ins are matched is free from mentions if nothing that stood in front of a mention
or a repeat marker ends inside the markup of a mention. It is free from quotes, and at any place if
no code in it holds another one, if nothing that stood in front of a quote, a mention or a repeat
marker ends inside a code and no mention has a code in it. -/
theorem markedText_without_markup (message platform : String) (consume : Bool) :
    let quotes := quoteStretches message.toList
    let stretches := mentionStretches message.toList platform
    let normal := (normalizeMessage message.toList platform).1
    let text := (markedText message platform consume).1
    normal = trim stretches.flatten ∧
    (∀ stretch ∈ quotes, ∀ code ∈ InlineCode.pattern.matched stretch, isQuote code = false) ∧
    (∀ stretch ∈ stretches, (Mention.pattern platform).Absent stretch) ∧
    ((Mention.pattern platform).KeepsApart stretches →
      MarkerApart (Mention.pattern platform) normal consume →
      (Mention.pattern platform).Absent text ∧ Mention.extract text platform = (text, [])) ∧
    (InlineCode.pattern.KeepsApart quotes → InlineCode.pattern.KeepsApart stretches →
      (∀ m ∈ (Mention.pattern platform).matched quotes.flatten, '[' ∉ m.tail) →
      MarkerApart InlineCode.pattern normal consume →
      (∀ code ∈ InlineCode.pattern.matched text, isQuote code = false) ∧
        InlineCode.strip ['r', 'e', 'p', 'l', 'y'] text = text ∧
        ((∀ code ∈ InlineCode.pattern.matched text, '[' ∉ code.tail) →
          ∀ tail n, tail <:+ text → InlineCode.pattern tail = some (n, ()) →
            isQuote (tail.take n) = false)) := by
  intro quotes stretches normal text
  have hnormal : normal = trim stretches.flatten := normalizeMessage_fst _ _
  have hquotes : ∀ stretch ∈ quotes, ∀ code ∈ InlineCode.pattern.matched stretch,
      isQuote code = false := fun _ h => InlineCode.proper_pattern.matched_of_mem_stretches h
  have hmentions : ∀ stretch ∈ stretches, (Mention.pattern platform).Absent stretch :=
    fun _ h => (Mention.proper_pattern platform).absent_of_mem_gaps h
  refine ⟨hnormal, hquotes, hmentions, ?_, ?_⟩
  · intro hapart hmarker
    have hproper := Mention.proper_pattern platform
    have habsent : (Mention.pattern platform).Absent normal :=
      hnormal ▸ absent_trim hproper (hproper.absent_flatten hapart hmentions)
    have htext : (Mention.pattern platform).Absent text :=
      absent_markedText hproper habsent hmarker
    exact ⟨htext, Mention.extract_of_absent htext⟩
  · intro hapart hapart' hinside hmarker
    -- every code of the text was a code of a stretch between the quotes
    have hsubset : InlineCode.pattern.matched text ⊆ quotes.flatMap InlineCode.pattern.matched := by
      calc InlineCode.pattern.matched text
          = InlineCode.pattern.matched stretches.flatten := by
            rw [matched_markedText hmarker]
            exact (congrArg _ hnormal).trans (matched_trim _)
        _ ⊆ InlineCode.pattern.matched quotes.flatten :=
            Mention.matched_flatten_gaps_subset hapart' hinside
        _ = quotes.flatMap InlineCode.pattern.matched := InlineCode.matched_flatten hapart
    have hcodes : ∀ code ∈ InlineCode.pattern.matched text, isQuote code = false := by
      intro code hcode
      obtain ⟨stretch, hstretch, hmem⟩ := List.mem_flatMap.mp (hsubset hcode)
      exact hquotes stretch hstretch code hmem
    refine ⟨hcodes, InlineCode.strip_eq_self fun m hm => of_decide_eq_false (hcodes m hm), ?_⟩
    intro hsingle tail n htail hfound
    exact hcodes _ (InlineCode.mem_matched_of_suffix hsingle htail hfound)

/-- A quote and a mention are taken out and a picture is kept, and a repeat marker in front of them
is taken out as well. -/
theorem markedText_without_markup_mention :
    let message := ".3#r [CQ:reply,id=1][CQ:at,qq=12] d6 [CQ:image,file=a]"
    let text := (markedText message "QQ" true).1
    ((Mention.pattern "QQ").Absent text ∧ Mention.extract text "QQ" = (text, [])) ∧
    (∀ code ∈ InlineCode.pattern.matched text, isQuote code = false) ∧
      InlineCode.strip ['r', 'e', 'p', 'l', 'y'] text = text ∧
      ∀ tail n, tail <:+ text → InlineCode.pattern tail = some (n, ()) →
        isQuote (tail.take n) = false := by
  intro message text
  have hmention : ∀ cs b, Mention.pattern "QQ" cs = some b → cs.head? = some '[' := by
    intro cs b hb
    rw [Mention.pattern_qq] at hb
    exact Mention.head?_of_enclosed (by decide) hb
  have hquotes : ∀ piece ∈ (quoteStretches message.toList).dropLast, '[' ∉ piece := by decide
  have hstretches : ∀ piece ∈ (mentionStretches message.toList "QQ").dropLast, '[' ∉ piece := by
    decide
  have hbehind : ∀ c ∈ (normalizeMessage message.toList "QQ").1.dropWhile (· ≠ '['),
      RepeatMarker.isSign c = false := by decide
  have hfront : ∀ front marker back count,
      TakesOut (normalizeMessage message.toList "QQ").1 front marker back count → '[' ∉ front := by
    intro front marker back count h hmem
    obtain ⟨digits, sign, rfl, -, -, hsign, -⟩ := h.isMarker
    have hne : front.dropWhile (· ≠ '[') ≠ [] := by
      intro hnil
      simpa using List.dropWhile_eq_nil_iff.mp hnil '[' hmem
    rw [h.text_eq, List.append_assoc, List.dropWhile_append, if_neg (by simpa using hne)] at hbehind
    rw [hbehind sign (by simp)] at hsign
    exact absurd hsign (by decide)
  have h := markedText_without_markup message "QQ" true
  obtain ⟨hcodes, hstrip, hplaces⟩ := h.2.2.2.2
    (fun piece hpiece => InlineCode.not_endsInside (hquotes piece hpiece))
    (fun piece hpiece => InlineCode.not_endsInside (hstretches piece hpiece))
    (by decide)
    fun _ front marker back count htakes =>
      InlineCode.not_endsInside (hfront front marker back count htakes)
  exact ⟨h.2.2.2.1 (fun piece hpiece => not_endsInside hmention (hstretches piece hpiece))
      fun _ front marker back count htakes =>
        not_endsInside hmention (hfront front marker back count htakes),
    hcodes, hstrip, hplaces (by decide)⟩

/-- A mention and a quote that are taken out from the middle of others leave these behind, and a
quote inside another code is not taken out. -/
theorem not_markedText_without_markup :
    let message := ".r [CQ[CQ:reply,id=1]:reply,id=2] [CQ:at,qq=[CQ:at,qq=1]2]"
    let text := (markedText message "QQ" false).1
    ¬(Mention.pattern "QQ").Absent text ∧ Mention.extract text "QQ" ≠ (text, []) ∧
      (∃ code ∈ InlineCode.pattern.matched text, isQuote code = true) ∧
      InlineCode.strip ['r', 'e', 'p', 'l', 'y'] text ≠ text ∧
      "[CQ:reply,id=1]".toList <:+: (markedText ".r [CQ:x[CQ:reply,id=1]" "QQ" false).1 := by
  decide

end Invocation

end DiceBot
