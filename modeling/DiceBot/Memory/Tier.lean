/-!
# Tiers of variables

Every variable lives in one of four tiers, and its name says in which:

| name starts with | tier      | owned by                             |
|------------------|-----------|--------------------------------------|
| `$t`             | transient | the command being carried out        |
| `$m`             | player    | the player, in all groups            |
| `$g`             | group     | the group                            |
| anything else    | seat      | the player in the group, or the card |
-/

namespace DiceBot

/-- A tier of variables. -/
inductive Tier where
  | transient
  | player
  | group
  | seat
  deriving DecidableEq

namespace Tier

/-- The characters that a name of the tier starts with, if they are fixed. -/
def tag? : Tier → Option String
  | .transient => some "$t"
  | .player => some "$m"
  | .group => some "$g"
  | .seat => none

/-- The tier of a name. -/
def ofChars : List Char → Tier
  | '$' :: 't' :: _ => .transient
  | '$' :: 'm' :: _ => .player
  | '$' :: 'g' :: _ => .group
  | _ => .seat

/-- The tier of a name. -/
def ofName (name : String) : Tier := ofChars name.toList

/-- A tier with a tag holds exactly the names that start with it. -/
theorem ofName_eq_iff_of_tag? {tier : Tier} {tag : String} (h : tier.tag? = some tag)
    (name : String) : ofName name = tier ↔ tag.toList <+: name.toList := by
  unfold ofName
  generalize name.toList = cs
  cases tier with
  | seat => simp [tag?] at h
  | transient =>
    obtain rfl : "$t" = tag := by simpa [tag?] using h
    fun_cases ofChars cs with
    | case4 _ ht => simpa using fun hp => hp.elim fun rest hr => ht rest hr.symm
    | _ => simp
  | player =>
    obtain rfl : "$m" = tag := by simpa [tag?] using h
    fun_cases ofChars cs with
    | case4 _ _ hm => simpa using fun hp => hp.elim fun rest hr => hm rest hr.symm
    | _ => simp
  | group =>
    obtain rfl : "$g" = tag := by simpa [tag?] using h
    fun_cases ofChars cs with
    | case4 _ _ _ hg => simpa using fun hp => hp.elim fun rest hr => hg rest hr.symm
    | _ => simp

end Tier

end DiceBot
