import DiceBot.Proofs.Bot.Isolation
import DiceBot.Proofs.Bot.QuietReplies
import DiceBot.Proofs.Bot.SubCommand

/-!
# Removing attributes

The sub-commands `del` and `rm` take names, in their canonical forms, out of the map of the seat
(`Bot.getElem?_eraseNames`, `Bot.attributes_of_removal`). A name of the seat tier is not found at
the seat any more, under any of its spellings, and whatever else is stored stays
(`Bot.answer_removal`). Names of the tiers of player and group are recorded by the same command, but
they are not looked for there, and stay as well (`Bot.not_answer_removal`).
-/

namespace DiceBot

namespace Bot

/-- Exactly the names are taken out of the map. -/
theorem getElem?_eraseNames (names : List String) (vars : VariableMap) (key : String) :
    (eraseNames names vars).2[key]? = if key ∈ names then none else vars[key]? := by
  induction names generalizing vars with
  | nil => rfl
  | cons name names ih =>
    rw [eraseNames]
    dsimp only
    rw [ih, Records.getElem?_erase_map]
    by_cases hkey : key = name <;> simp [hkey]

variable {δ : Type} [DiceSource δ] {s : Bot δ} {x : Invocation} {word : String}
variable {names : List String}

/-- Behind a removal word that stands by itself the other arguments are the names. -/
theorem attributes_of_removal (hword : word ∈ removalWords)
    (harguments : x.arguments = word :: names) (seat : Seat) :
    attributes x seat s = deleteAttributes (names.map s.aliases.canonicalize) seat s := by
  have hwords : ∀ w ∈ removalWords, w ∈ subCommands ∧ w ∉ listingWords := by decide
  obtain ⟨hsub, hnotListing⟩ := hwords word hword
  have hfirst : stripIgnoringCase? word.toList word.toList = some [] := by
    have happend := stripIgnoringCase?_self_append word.toList []
    rwa [List.append_nil] at happend
  have hnames : namesBehind [] names = names := rfl
  rw [attributes_of_subCommand hsub harguments hfirst, carryOutWord, if_neg hnotListing,
    if_pos hword, hnames]

omit [DiceSource δ] in
/-- What is seen at a seat whose map alone has been replaced. -/
theorem vars_world_of_setSeatMap {t : Bot δ} {seat : Seat} {vars : VariableMap}
    (hrecords : (s.records.setSeatMap seat vars).SameVariables t.records)
    (haliases : t.aliases = s.aliases) : (t.world seat).vars =
      { (s.world seat).vars with
        transient := t.transient, seat := vars, templates := t.templates } := by
  show t.records.scopedAt seat t.transient t.aliases t.templates = _
  rw [hrecords.scopedAt, haliases, Records.scopedAt_setSeatMap]
  rfl

/-- A message that names attributes to remove leaves no name of the seat tier that goes by one of
them, and everything else that is stored as it was. No dice are rolled. -/
theorem answer_removal {message : Message} (hread : invocation? s.settings message = some x)
    (hcommand : x.command = "st") (hword : word ∈ removalWords)
    (harguments : x.arguments = word :: names)
    (htemplates : s.templates.Passes (·.readsOnly ["$tResultText", "$tPlayer"]) "core:stDeleted") :
    let after := (answer message s).2
    (∀ name, (after.world message.seat).vars.get? name =
      if Tier.ofName name = .transient ∨ Tier.ofName name = .seat ∧
          s.aliases.canonicalize name ∈ names.map s.aliases.canonicalize
        then none else (s.world message.seat).vars.get? name) ∧
    (∀ owner, owner ≠ s.records.localOwner message.seat →
      (after.records.mapOf? owner).getD ∅ = (s.records.mapOf? owner).getD ∅) ∧
    after.dice = s.dice ∧ after.transient = ∅ := by
  intro after
  let keys := names.map s.aliases.canonicalize
  let removed := eraseNames keys (s.records.seatMap message.seat)
  let transient := (s.transient.insert "$tPlayer" (.text message.name)).insert "$tResultText"
    (.text (String.intercalate " " removed.1))
  -- what the bot is in when it draws up its reply
  let erased : Bot δ :=
    { s with records := s.records.setSeatMap message.seat removed.2, transient }
  have hheld : HasPlain erased.transient ["$tResultText", "$tPlayer"] := by
    have hnone : HasPlain s.transient [] := nofun
    exact (hnone.insert (by decide) rfl).insert (by decide) rfl
  have hstored : erased.SameStored (render "core:stDeleted" message.seat erased).2 :=
    (sameStored_render (s := erased) htemplates
      fun name hname => plain_load_of_hasPlain hheld hname _).1
  have hafter : after =
      { (render "core:stDeleted" message.seat erased).2 with transient := ∅ } := by
    have hcarry : (carryOut x message.seat : Act δ (Option String)) =
        some <$> attributes x message.seat := by
      unfold carryOut
      simp only [hcommand]
    have hattributes := attributes_of_removal
      (s := { s with transient := s.transient.insert "$tPlayer" (.text message.name) })
      hword harguments message.seat
    exact congrArg Prod.snd (answer_of_carryOut hread
      ((congrFun hcarry _).trans (Act.map_of_eq some hattributes)))
  have htransient : after.transient = ∅ := congrArg Bot.transient hafter
  have hrecords : (s.records.setSeatMap message.seat removed.2).SameVariables after.records := by
    rw [hafter]
    exact hstored.records
  have hseen := vars_world_of_setSeatMap hrecords (sameBeyond_answer message s).aliases
  refine ⟨fun name => ?_, fun owner howner => ?_, ?_, htransient⟩
  · rw [hseen, htransient]
    simp only [Scoped.get?, Aliases.resolve]
    cases htier : Tier.ofName name with
    | transient => simp [Scoped.tier]
    | seat =>
      simp only [reduceCtorEq, false_or, true_and]
      exact getElem?_eraseNames keys _ _
    | player | group => simp [Scoped.tier]
  · rw [hrecords.mapOf?, Records.mapOf?_setSeatMap, if_neg howner]
  · rw [hafter]
    exact hstored.dice

/-- An attribute is removed under an alias in another case. -/
theorem answer_removal_alias :
    let seat : Seat := ⟨"g", "a"⟩
    let s : Bot ScriptedDice := (start {} ⟨[]⟩ 8).after (.aliases "hp" ["life"])
    let t : Bot ScriptedDice :=
      { s with records := s.records.setSeatMap seat ((∅ : VariableMap).insert "hp" (.int 10)) }
    let message : Message := { text := ".st rm LIFE", group := "g", sender := "a", name := "Ann" }
    (t.world seat).vars.get? "hp" = some (.int 10) ∧
    ((answer message t).2.world seat).vars.get? "hp" = none := by
  intro seat s t message
  obtain ⟨x, hx, hcommand, harguments⟩ : ∃ x, invocation? t.settings message = some x ∧
      x.command = "st" ∧ x.arguments = ["rm", "LIFE"] :=
    Invocation.exists_of_read (by decide +kernel)
  have htemplates : t.templates.Passes (·.readsOnly ["$tResultText", "$tPlayer"])
      "core:stDeleted" :=
    (TemplateTable.onlyReplies_withReplies 8).hasReplies.passes (by decide +kernel)
  have hnamed : t.aliases.canonicalize "hp" ∈ ["LIFE"].map t.aliases.canonicalize := by
    decide +kernel
  obtain ⟨hgone, -⟩ := answer_removal hx hcommand (by decide) harguments htemplates
  refine ⟨by decide +kernel, (hgone "hp").trans ?_⟩
  rw [if_pos (.inr ⟨by decide, hnamed⟩)]

/-- What is recorded in the tier of the player is not removed. -/
theorem not_answer_removal :
    ¬∀ (s : Bot ScriptedDice) (name value : String) (record remove : Message),
      record.text = ".st " ++ name ++ " " ++ value → remove.text = ".st del " ++ name →
      remove.seat = record.seat →
      (answer record s).1 = some ("<" ++ record.name ++ "> recorded " ++ name ++ "=" ++ value) →
      ((answer remove (answer record s).2).2.world record.seat).vars.get? name = none := by
  intro hremoves
  let s : Bot ScriptedDice := start {} ⟨[]⟩ 8
  let record : Message := { text := ".st $mX 5", name := "Alice" }
  let remove : Message := { text := ".st del $mX", name := "Alice" }
  have hrecorded : (answer record s).1 = some "<Alice> recorded $mX=5" := by decide +kernel
  have hkept : ((answer remove (answer record s).2).2.world record.seat).vars.get? "$mX" =
      some (.int 5) := by decide +kernel
  have hgone := hremoves s "$mX" "5" record remove rfl rfl rfl hrecorded
  rw [hkept] at hgone
  cases hgone

end Bot

end DiceBot
