import DiceBot.Proofs.Bot.Removal
import Mathlib.Algebra.Group.Int.Defs
import Mathlib.Algebra.Group.Nat.Defs

/-!
# Listing, removing and clearing attributes

What the sub-commands of the attribute command reply, and what they do to the map of the seat. A
listing has the texts of the entries that are asked for, each once and in order, whatever the order
in which the entries are gone through (`Bot.listed_perm`, `Bot.listed_pairwise`). A removal names
what it has found, each name where it is first given (`Bot.fst_eraseNames`). The three ways to carry
out a sub-command come together in `Bot.answer_subCommand`.
-/

namespace DiceBot

open Text

/-! ## The entries of a map -/

namespace VariableMap

/-- The list has the entries of the map, each once, in any order. -/
structure Enumerates (vars : VariableMap) (entries : List (String × Value)) : Prop where
  nodup : entries.Nodup
  mem_iff : ∀ name value, (name, value) ∈ entries ↔ vars[name]? = some value

theorem enumerates_toList (vars : VariableMap) : Enumerates vars vars.toList where
  nodup := by
    refine List.Pairwise.imp (fun hne heq => hne ?_) vars.distinct_keys_toList
    rw [heq]
    exact Std.ReflCmp.compare_self
  mem_iff name value := Std.ExtTreeMap.mem_toList_iff_getElem?_eq_some

theorem Enumerates.perm {vars : VariableMap} {entries entries' : List (String × Value)}
    (h : Enumerates vars entries) (h' : Enumerates vars entries') : entries.Perm entries' :=
  (List.perm_ext_iff_of_nodup h.nodup h'.nodup).mpr fun (name, value) =>
    (h.mem_iff name value).trans (h'.mem_iff name value).symm

theorem mem_erase_iff {vars : VariableMap} {name other : String} :
    other ∈ vars.erase name ↔ other ≠ name ∧ other ∈ vars := by
  rw [Std.ExtTreeMap.mem_erase, Ne, Std.LawfulEqOrd.compare_eq_iff_eq, ne_comm]

end VariableMap

namespace Bot

/-- The attributes that are asked for by canonical names, or all if none are given. -/
def chosen (keys : List String) (entries : List (String × Value)) : List (String × Value) :=
  entries.filter fun entry => keys = [] ∨ entry.1 ∈ keys

/-- The listing is in order. -/
theorem listed_pairwise (vars : VariableMap) (keys : List String) :
    (listed vars keys).Pairwise (· ≤ ·) := by
  have htrans : ∀ a b c : String, decide (a ≤ b) = true → decide (b ≤ c) = true →
      decide (a ≤ c) = true := fun a b c hab hbc =>
    decide_eq_true (String.le_trans (of_decide_eq_true hab) (of_decide_eq_true hbc))
  have htotal : ∀ a b : String, (decide (a ≤ b) || decide (b ≤ a)) = true := fun a b => by
    simpa using String.le_total a b
  exact (sortBy_pairwise htrans htotal _).imp fun h => of_decide_eq_true h

/-- The listing has the texts of the chosen entries, in whatever order these are gone through. -/
theorem listed_perm {vars : VariableMap} {entries : List (String × Value)}
    (h : VariableMap.Enumerates vars entries) (keys : List String) :
    (listed vars keys).Perm
      ((chosen keys entries).map fun entry => attributeText entry.1 entry.2) := by
  have hchosen : (chosen keys vars.toList).Perm (chosen keys entries) :=
    ((VariableMap.enumerates_toList vars).perm h).filter _
  refine (sortBy_perm _ _).trans (List.Perm.map _ (.trans (.of_eq ?_) hchosen))
  refine List.filter_congr fun entry _ => ?_
  cases keys <;> simp

/-- What is removed are the names that were there, each where it is first given. -/
theorem fst_eraseNames (names : List String) (vars : VariableMap) :
    (eraseNames names vars).1 = (names.filter (· ∈ vars)).eraseDups := by
  induction names generalizing vars with
  | nil => rfl
  | cons name names ih =>
    have hmore : names.filter (· ∈ vars.erase name) =
        (names.filter (· ∈ vars)).filter fun other => !other == name := by
      rw [List.filter_filter]
      refine List.filter_congr fun other _ => ?_
      rw [decide_eq_decide.mpr VariableMap.mem_erase_iff, Bool.decide_and, decide_not]
      rfl
    rw [eraseNames]
    dsimp only
    rw [ih, hmore, List.filter_cons]
    by_cases hname : name ∈ vars
    · rw [if_pos (Std.ExtTreeMap.mem_iff_contains.mp hname), if_pos (decide_eq_true hname),
        List.eraseDups_cons]
    · have hother : ∀ other ∈ names.filter (· ∈ vars), (!other == name) = true := by
        intro other hother
        have hmem : other ∈ vars := by simpa using (List.mem_filter.mp hother).2
        simpa using fun heq : other = name => hname (heq ▸ hmem)
      rw [if_neg (fun h => hname (Std.ExtTreeMap.mem_iff_contains.mpr h)),
        if_neg (by simpa using hname), List.filter_eq_self.mpr hother]

theorem toInt_attributeCount (vars : VariableMap) :
    (attributeCount vars).toInt = (min vars.size (2 ^ 63 - 1) : Nat) := by
  have hmax : Int64.maxValue.toInt = 2 ^ 63 - 1 := by decide
  have hmin : Int64.minValue.toInt = -2 ^ 63 := by decide
  unfold attributeCount
  cases hcount : Checked.ofInt? vars.size with
  | some n =>
    have hrange := Checked.ofInt?_isSome_iff.mp (Option.isSome_of_eq_some hcount)
    rw [Option.getD_some, Checked.toInt_of_ofInt? hcount]
    omega
  | none =>
    have hrange : ¬(Int64.minValue.toInt ≤ vars.size ∧
        (vars.size : Int) ≤ Int64.maxValue.toInt) := by
      rw [← Checked.ofInt?_isSome_iff, hcount]
      exact Bool.noConfusion
    rw [Option.getD_none, hmax]
    omega

end Bot

/-! ## The replies -/

namespace Replies

theorem hasText_show : HasText "core:stShow" (speaker ++ ": " ++ hole "$tResultText")
    ["$tPlayer", "$tResultText"] ["<".toList, ">: ".toList, []] :=
  ⟨by decide, rfl, by decide, by decide⟩

theorem hasText_showEmpty : HasText "core:stShowEmpty" (speaker ++ " has no attributes yet")
    ["$tPlayer"] ["<".toList, "> has no attributes yet".toList] :=
  ⟨by decide, rfl, by decide, by decide⟩

theorem hasText_deleted : HasText "core:stDeleted" (speaker ++ " removed " ++ hole "$tResultText")
    ["$tPlayer", "$tResultText"] ["<".toList, "> removed ".toList, []] :=
  ⟨by decide, rfl, by decide, by decide⟩

theorem hasText_cleared :
    HasText "core:stCleared" (speaker ++ " cleared " ++ hole "$tCount" ++ " attributes")
      ["$tPlayer", "$tCount"] ["<".toList, "> cleared ".toList, " attributes".toList] :=
  ⟨by decide, rfl, by decide, by decide⟩

end Replies

open Replies

namespace Bot

section Replies

variable {δ : Type} [DiceSource δ] {s : Bot δ} {seat : Seat}

/-- A reply changes nothing that is stored. -/
theorem render_filled {reply text shown : String} {literals : List (List Char)}
    {entries : List (String × Value)} (htemplates : s.templates.HasReplies)
    (hholds : Holds s.transient entries)
    (htext : HasText reply text (entries.map Prod.fst) literals)
    (hcapacity : entries.length + 2 ≤ s.settings.capacity)
    (hshown : shown.toList = Pattern.splice literals (entries.map (·.2.display.toList))) :
    ∃ t, render reply seat s = (shown, t) ∧ s.SameStored t := by
  have hget : s.templates.get? reply = builtin.lookup reply :=
    (htemplates.get? htext.lookup).trans htext.lookup.symm
  exact ⟨_, render_of_hasText htext hget hcapacity hholds hshown, rfl,
    Records.sameVariables_keep ⟨rfl, rfl, rfl⟩⟩

variable {player : String} (htemplates : s.templates.HasReplies)
  (hcapacity : 4 ≤ s.settings.capacity)
  (hplayer : s.transient["$tPlayer"]? = some (.text player))

include htemplates hcapacity hplayer

/-- A reply to the speaker may tell of one more variable, which is set for it. -/
theorem announce_eq {reply text name shown : String} {value : Value}
    {literals : List (List Char)} (htext : HasText reply text ["$tPlayer", name] literals)
    (hname : Tier.ofName name = .transient) (hother : "$tPlayer" ≠ name)
    (hplain : value.isComputed = false)
    (hshown : shown.toList = Pattern.splice literals [player.toList, value.display.toList]) :
    ∃ t, (do
        setTransient name value
        render reply seat : Act δ String) s = (shown, t) ∧ s.SameStored t := by
  let set : Bot δ := { s with transient := s.transient.insert name value }
  have hholds : Holds set.transient [("$tPlayer", .text player), (name, value)] :=
    (Holds.player hplayer rfl).insert_last hname hplain (by simpa using hother)
  obtain ⟨t, hrun, hstored⟩ : ∃ t, render reply seat set = (shown, t) ∧ set.SameStored t :=
    render_filled htemplates hholds htext hcapacity hshown
  refine ⟨t, ?_, hstored.dice, hstored.records⟩
  rw [Act.bind_of_eq (setTransient_eq s name value)]
  exact hrun

theorem showAttributes_eq (keys : List String) :
    ∃ t, showAttributes keys seat s =
      (if s.records.seatMap seat = ∅ then "<" ++ player ++ "> has no attributes yet"
        else "<" ++ player ++ ">: " ++
          String.intercalate " " (listed (s.records.seatMap seat) keys), t) ∧ s.SameStored t := by
  have hstart : showAttributes keys seat s =
      (if (s.records.seatMap seat).isEmpty then render "core:stShowEmpty" seat
        else do
          setTransient "$tResultText"
            (.text (String.intercalate " " (listed (s.records.seatMap seat) keys)))
          render "core:stShow" seat : Act δ String) s := by
    unfold showAttributes
    rw [Act.bind_of_eq (get_eq s)]
  rw [hstart]
  by_cases hempty : s.records.seatMap seat = ∅
  · rw [if_pos hempty, if_pos (Std.ExtTreeMap.isEmpty_iff.mpr hempty)]
    exact render_filled htemplates (Holds.player hplayer rfl) hasText_showEmpty
      (Nat.le_trans (Nat.le_succ 3) hcapacity) (by simp [Value.display, Pattern.splice])
  · rw [if_neg hempty, if_neg (fun h => hempty (Std.ExtTreeMap.isEmpty_iff.mp h))]
    exact announce_eq htemplates hcapacity hplayer hasText_show (by decide) (by decide) rfl
      (by simp [Value.display, Pattern.splice])

theorem deleteAttributes_eq (keys : List String) :
    let erased := eraseNames keys (s.records.seatMap seat)
    ∃ t, deleteAttributes keys seat s =
      ("<" ++ player ++ "> removed " ++ String.intercalate " " erased.1, t) ∧
      ({ s with records := s.records.setSeatMap seat erased.2 } : Bot δ).SameStored t := by
  intro erased
  unfold deleteAttributes
  rw [Act.bind_of_eq (get_eq s)]
  let left : Bot δ := { s with records := s.records.setSeatMap seat erased.2 }
  exact announce_eq (s := left) htemplates hcapacity hplayer hasText_deleted (by decide)
    (by decide) rfl (by simp [erased, Value.display, Pattern.splice])

theorem clearAttributes_eq :
    ∃ t, clearAttributes seat s =
      ("<" ++ player ++ "> cleared " ++
        toString (min (s.records.seatMap seat).size (2 ^ 63 - 1)) ++ " attributes", t) ∧
      ({ s with records := s.records.setSeatMap seat ∅ } : Bot δ).SameStored t := by
  have hcount : (Value.int (attributeCount (s.records.seatMap seat))).display =
      toString (min (s.records.seatMap seat).size (2 ^ 63 - 1)) := by
    rw [Value.display, toInt_attributeCount]
    rfl
  unfold clearAttributes
  rw [Act.bind_of_eq (get_eq s)]
  let left : Bot δ := { s with records := s.records.setSeatMap seat ∅ }
  exact announce_eq (s := left) htemplates hcapacity hplayer hasText_cleared (by decide)
    (by decide) rfl (by simp [hcount, Pattern.splice])

/-- What a sub-command replies, and the map that it leaves to the seat. -/
theorem carryOutWord_eq (word : String) (keys : List String) (seat : Seat) :
    let vars := s.records.seatMap seat
    ∃ reply left t, carryOutWord word keys seat s = (reply, t) ∧
      (s.records.setSeatMap seat left).SameVariables t.records ∧ t.dice = s.dice ∧
      (word ∈ listingWords →
        reply = (if vars = ∅ then "<" ++ player ++ "> has no attributes yet"
          else "<" ++ player ++ ">: " ++ String.intercalate " " (listed vars keys)) ∧
        left = vars) ∧
      (word ∈ removalWords →
        reply = "<" ++ player ++ "> removed " ++
          String.intercalate " " (eraseNames keys vars).1 ∧
        left = (eraseNames keys vars).2) ∧
      (word ∈ clearingWords →
        reply = "<" ++ player ++ "> cleared " ++ toString (min vars.size (2 ^ 63 - 1)) ++
          " attributes" ∧
        left = ∅) := by
  intro vars
  -- the words of the three kinds are apart, so at most one case applies
  have hclearing : ∀ w ∈ clearingWords, w ∉ listingWords ∧ w ∉ removalWords := by decide
  unfold carryOutWord
  split
  · next hword =>
    have hremoval : ∀ w ∈ listingWords, w ∉ removalWords := by decide
    obtain ⟨t, hrun, hstored⟩ := showAttributes_eq htemplates hcapacity hplayer keys
    refine ⟨_, vars, t, hrun, ?_, hstored.dice, fun _ => ⟨rfl, rfl⟩,
      fun h => absurd h (hremoval word hword), fun h => absurd hword (hclearing word h).1⟩
    exact (s.records.sameVariables_setSeatMap seat).symm.trans hstored.records
  · next hnotListing =>
    split
    · next hword =>
      obtain ⟨t, hrun, hstored⟩ := deleteAttributes_eq htemplates hcapacity hplayer keys
      exact ⟨_, _, t, hrun, hstored.records, hstored.dice, fun h => absurd h hnotListing,
        fun _ => ⟨rfl, rfl⟩, fun h => absurd hword (hclearing word h).2⟩
    · next hnotRemoval =>
      obtain ⟨t, hrun, hstored⟩ := clearAttributes_eq htemplates hcapacity hplayer
      exact ⟨_, ∅, t, hrun, hstored.records, hstored.dice, fun h => absurd h hnotListing,
        fun h => absurd h hnotRemoval, fun _ => ⟨rfl, rfl⟩⟩

end Replies

/-! ## From the message to the reply -/

variable {δ : Type} [DiceSource δ] {s : Bot δ} {x : Invocation} {word first : String}
variable {rest : List Char} {others : List String}

/-- A sub-command for listing replies with the texts of the attributes that are asked for, each
once and in ascending order, and changes none. The order in which the map is gone through has no
part in this. One for removal takes the names out of the map and replies with those that were there,
each where it is first given. One for clearing empties the map and replies with the size that it
had, as a 64-bit integer. What other owners have stays in any case, and so do the bound cards, the
older records and the dice. -/
theorem answer_subCommand {message : Message} (hread : invocation? s.settings message = some x)
    (hcommand : x.command = "st") (hword : word ∈ subCommands)
    (harguments : x.arguments = first :: others)
    (hfirst : stripIgnoringCase? word.toList first.toList = some rest)
    (htemplates : s.templates.HasReplies) (hcapacity : 4 ≤ s.settings.capacity) :
    let keys := (namesBehind rest others).map s.aliases.canonicalize
    let vars := s.records.seatMap message.seat
    let reply := (answer message s).1
    let after := (answer message s).2
    let left := after.records.seatMap message.seat
    (word ∈ listingWords →
      (∃ texts : List String,
        reply = some (if vars = ∅ then "<" ++ message.name ++ "> has no attributes yet"
          else "<" ++ message.name ++ ">: " ++ String.intercalate " " texts) ∧
        texts.Pairwise (· ≤ ·) ∧
        ∀ entries, VariableMap.Enumerates vars entries → texts.Perm
          ((chosen keys entries).map fun entry => attributeText entry.1 entry.2)) ∧
      left = vars) ∧
    (word ∈ removalWords →
      reply = some ("<" ++ message.name ++ "> removed " ++
        String.intercalate " " (keys.filter (· ∈ vars)).eraseDups) ∧
      ∀ key : String, left[key]? = if key ∈ keys then none else vars[key]?) ∧
    (word ∈ clearingWords →
      reply = some ("<" ++ message.name ++ "> cleared " ++
        toString (min vars.size (2 ^ 63 - 1)) ++ " attributes") ∧
      left = ∅) ∧
    (∀ owner, owner ≠ s.records.localOwner message.seat →
      (after.records.mapOf? owner).getD ∅ = (s.records.mapOf? owner).getD ∅) ∧
    after.records.bindings = s.records.bindings ∧ after.records.legacy = s.records.legacy ∧
    after.dice = s.dice ∧ after.transient = ∅ := by
  intro keys vars reply after left
  let named : Bot δ := { s with transient := s.transient.insert "$tPlayer" (.text message.name) }
  -- the command is carried out once; each of the three cases is read off what it says
  obtain ⟨shown, map, t, hrun, hsame, hdice, hlisting, hremoval, hclearing⟩ :=
    carryOutWord_eq (s := named) htemplates hcapacity Std.ExtTreeMap.getElem?_insert_self word keys
      message.seat
  have hanswer : answer message s = (some shown, { t with transient := ∅ }) :=
    answer_of_subCommand hread hcommand hword harguments hfirst hrun
  have hreply : reply = some shown := congrArg Prod.fst hanswer
  have hafter : after = { t with transient := ∅ } := congrArg Prod.snd hanswer
  have hrecords : after.records = t.records := by rw [hafter]
  have hdice' : after.dice = s.dice := by rw [hafter, hdice]
  have htransient : after.transient = ∅ := by rw [hafter]
  obtain ⟨hleft, hothers, hbindings, hlegacy⟩ := hsame.of_setSeatMap
  rw [← hrecords] at hleft hothers hbindings hlegacy
  refine ⟨fun h => ?_, fun h => ?_, fun h => ?_, hothers, hbindings, hlegacy,
    hdice', htransient⟩
  · obtain ⟨rfl, rfl⟩ := hlisting h
    exact ⟨⟨_, hreply, listed_pairwise vars keys, fun entries hentries =>
      listed_perm hentries keys⟩, hleft⟩
  · obtain ⟨rfl, rfl⟩ := hremoval h
    refine ⟨?_, fun key => ?_⟩
    · rw [hreply, fst_eraseNames]
    · rw [← getElem?_eraseNames, ← hleft]
  · obtain ⟨rfl, rfl⟩ := hclearing h
    exact ⟨hreply, hleft⟩

/-- An attribute of a bound card is removed under an alias that is written directly behind the
word, in another case, and named only once although it is given twice. -/
theorem answer_subCommand_glued :
    let seat : Seat := ⟨"g", "a"⟩
    let s : Bot ScriptedDice :=
      ((start {} ⟨[]⟩ 8).after (.aliases "hp" ["life"])).after (.bind seat "Thief")
    let vars : VariableMap := ((∅ : VariableMap).insert "hp" (.int 10)).insert "str" (.int 60)
    let t : Bot ScriptedDice := { s with records := s.records.setSeatMap seat vars }
    let message : Message :=
      { text := ".st RMlife luck HP", group := "g", sender := "a", name := "Ann" }
    (answer message t).1 = some "<Ann> removed hp" ∧
      ((answer message t).2.records.seatMap seat)["hp"]? = none ∧
      ((answer message t).2.records.seatMap seat)["str"]? = some (.int 60) := by
  intro seat s vars t message
  obtain ⟨x, hx, hcommand, harguments⟩ : ∃ x, invocation? t.settings message = some x ∧
      x.command = "st" ∧ x.arguments = ["RMlife", "luck", "HP"] :=
    Invocation.exists_of_read (by decide +kernel)
  have hfirst : stripIgnoringCase? "rm".toList "RMlife".toList = some "life".toList := by decide
  have htemplates : t.templates.HasReplies := (TemplateTable.onlyReplies_withReplies 8).hasReplies
  obtain ⟨-, hremoval, -⟩ :=
    answer_subCommand hx hcommand (by decide) harguments hfirst htemplates (by decide)
  obtain ⟨hreply, hleft⟩ := hremoval (by decide)
  have hkeys : (namesBehind "life".toList ["luck", "HP"]).map t.aliases.canonicalize =
      ["hp", "luck", "hp"] := by decide +kernel
  rw [hkeys] at hreply hleft
  have hremoved : (["hp", "luck", "hp"].filter (· ∈ t.records.seatMap message.seat)).eraseDups =
      ["hp"] := by
    decide +kernel
  have hstr : (t.records.seatMap message.seat)["str"]? = some (.int 60) := by decide +kernel
  rw [hremoved] at hreply
  exact ⟨hreply, hleft "hp", (hleft "str").trans hstr⟩

end Bot

end DiceBot
