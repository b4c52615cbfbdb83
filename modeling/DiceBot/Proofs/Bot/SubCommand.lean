import DiceBot.Bot.Attributes
import DiceBot.Proofs.Bot.Rendering
import DiceBot.Proofs.Command.Chopping

/-!
# Sub-commands

The attribute command lists, removes or clears if its first argument starts with the word of a
sub-command. No text starts with the words of two of them (`Bot.eq_of_startsWith`), so the order in
which they are tried has no part in the choice, and what is carried out is told from the word and
the names behind it (`Bot.attributes_of_subCommand`).
-/

namespace DiceBot

open Text

namespace Bot

/-- The sub-commands that list attributes. -/
def listingWords : List String := ["show", "list"]

/-- The sub-commands that remove names. -/
def removalWords : List String := ["del", "rm"]

/-- The sub-commands that remove all attributes. -/
def clearingWords : List String := ["clr", "clear"]

/-- The names given to a sub-command: what is written directly behind its word, if anything, and the
other arguments. -/
def namesBehind (rest : List Char) (others : List String) : List String :=
  (if (trim rest).isEmpty then [] else [String.ofList (trim rest)]) ++ others

variable {word other : String} {text : List Char}

/-- No text starts with two sub-commands. -/
theorem eq_of_startsWith (hword : word ∈ subCommands) (hother : other ∈ subCommands)
    (h : StartsWith word.toList text) (h' : StartsWith other.toList text) : word = other := by
  have hlower : ∀ w ∈ subCommands, ∀ c ∈ w.toList, c.isLower = true := by decide
  have hprefix := h.isPrefix_map_lowerChar (hlower word hword)
  have hprefix' := h'.isPrefix_map_lowerChar (hlower other hother)
  -- one of the words is in front of the other, and no sub-command is in front of another one
  have hapart : ∀ w ∈ subCommands, ∀ w' ∈ subCommands, w.toList <+: w'.toList → w = w' := by
    decide
  rcases List.prefix_or_prefix_of_prefix hprefix hprefix' with hfront | hfront
  · exact hapart word hword other hother hfront
  · exact (hapart other hother word hword hfront).symm

variable {x : Invocation} {first : String} {rest : List Char} {others : List String}

/-- The word is split off, whatever its case and whether or not something is written directly
behind it. -/
theorem arguments_chop? (hword : word ∈ subCommands) (harguments : x.arguments = first :: others)
    (hfirst : stripIgnoringCase? word.toList first.toList = some rest) :
    ((x.chop? subCommands).getD x).arguments = word :: namesBehind rest others := by
  obtain ⟨before, after, hsplit, hnotMem⟩ := List.eq_append_cons_of_mem hword
  have hbefore : ∀ tried ∈ before, ¬StartsWith tried.toList first.toList := by
    intro tried htried hstarts
    have hmem : tried ∈ subCommands := by
      rw [hsplit]
      exact List.mem_append_left _ htried
    have heq : tried = word :=
      eq_of_startsWith hmem hword hstarts (startsWith_iff.mpr ⟨rest, hfirst⟩)
    exact hnotMem (heq ▸ htried)
  rw [hsplit, Invocation.chop?_of_first_match harguments hbefore hfirst after]
  rfl

variable {δ : Type} [DiceSource δ]

/-- What a sub-command does, given names in their canonical forms. -/
def carryOutWord (word : String) (keys : List String) (seat : Seat) : Act δ String :=
  if word ∈ listingWords then showAttributes keys seat
  else if word ∈ removalWords then deleteAttributes keys seat
  else clearAttributes seat

theorem attributes_of_subCommand (hword : word ∈ subCommands)
    (harguments : x.arguments = first :: others)
    (hfirst : stripIgnoringCase? word.toList first.toList = some rest) (seat : Seat) (s : Bot δ) :
    attributes x seat s =
      carryOutWord word ((namesBehind rest others).map s.aliases.canonicalize) seat s := by
  have hchopped := arguments_chop? hword harguments hfirst
  -- the first argument is the word itself now, so each test is one on a closed list
  have hamong : ∀ candidates, ((x.chop? subCommands).getD x).isArgumentAmong 1 candidates =
      candidates.any fun c => eqIgnoringCase word.toList c.toList := by
    intro candidates
    unfold Invocation.isArgumentAmong Invocation.argument?
    rw [hchopped]
    rfl
  have hwords : ∀ w ∈ subCommands,
      ["show", "list"].any (fun c => eqIgnoringCase w.toList c.toList) =
        decide (w ∈ listingWords) ∧
      ["del", "rm"].any (fun c => eqIgnoringCase w.toList c.toList) = decide (w ∈ removalWords) ∧
      (w ∉ listingWords → w ∉ removalWords →
        ["clr", "clear"].any (fun c => eqIgnoringCase w.toList c.toList) = true) := by
    decide
  obtain ⟨hlisting, hremoval, hclearing⟩ := hwords word hword
  unfold attributes carryOutWord
  rw [Act.bind_of_eq (get_eq s)]
  simp only [hamong, hchopped, hlisting, hremoval, decide_eq_true_eq, List.drop_succ_cons,
    List.drop_zero]
  split
  · rfl
  · next hnotListing =>
    split
    · rfl
    · next hnotRemoval => rw [if_pos (hclearing hnotListing hnotRemoval)]

theorem carryOut_of_attributes (hcommand : x.command = "st") (seat : Seat) :
    (carryOut x seat : Act δ (Option String)) = some <$> attributes x seat := by
  unfold carryOut
  simp only [hcommand]

/-- A message that reads as a sub-command is answered by what the sub-command does, and the
transient variables are forgotten in the end. -/
theorem answer_of_subCommand {s t : Bot δ} {message : Message} {reply : String}
    (hread : invocation? s.settings message = some x) (hcommand : x.command = "st")
    (hword : word ∈ subCommands) (harguments : x.arguments = first :: others)
    (hfirst : stripIgnoringCase? word.toList first.toList = some rest)
    (hrun : carryOutWord word ((namesBehind rest others).map s.aliases.canonicalize) message.seat
      { s with transient := s.transient.insert "$tPlayer" (.text message.name) } = (reply, t)) :
    answer message s = (some reply, { t with transient := ∅ }) := by
  refine answer_of_carryOut hread ?_
  rw [carryOut_of_attributes hcommand]
  exact Act.map_of_eq some
    ((attributes_of_subCommand hword harguments hfirst message.seat _).trans hrun)

end Bot

end DiceBot
