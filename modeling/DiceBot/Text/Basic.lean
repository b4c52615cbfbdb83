/-!
# Text as characters and bytes

A text is worked on as a list of characters. Positions that are reported to a user count the
bytes of its UTF-8 encoding.
-/

namespace DiceBot.Text

/-- The number of bytes of the UTF-8 encoding. -/
def byteLength : List Char → Nat
  | [] => 0
  | c :: cs => c.utf8Size + byteLength cs

@[simp] theorem byteLength_append (xs ys : List Char) :
    byteLength (xs ++ ys) = byteLength xs + byteLength ys := by
  induction xs with
  | nil => simp [byteLength]
  | cons x xs ih => simp [byteLength, ih, Nat.add_assoc]

/-- Cuts a text after `n` bytes. There is no such cut when the text is shorter, or when the cut
would fall inside a character. -/
def splitAtByte? : Nat → List Char → Option (List Char × List Char)
  | 0, cs => some ([], cs)
  | _ + 1, [] => none
  | n + 1, c :: cs =>
      if c.utf8Size ≤ n + 1 then
        (splitAtByte? (n + 1 - c.utf8Size) cs).map fun (front, back) => (c :: front, back)
      else none

/-- A cut falls after exactly `n` bytes and loses nothing. -/
theorem eq_append_of_splitAtByte? {n : Nat} {cs front back : List Char}
    (h : splitAtByte? n cs = some (front, back)) : cs = front ++ back ∧ byteLength front = n := by
  induction cs generalizing n front with
  | nil => cases n <;> simp_all [splitAtByte?, byteLength]
  | cons c cs ih =>
    cases n with
    | zero => simp_all [splitAtByte?, byteLength]
    | succ n =>
      rw [splitAtByte?] at h
      split at h
      · obtain ⟨⟨f, b⟩, hfb, heq⟩ := Option.map_eq_some_iff.1 h
        obtain ⟨rfl, rfl⟩ := Prod.mk.inj heq
        obtain ⟨rfl, hlen⟩ := ih hfb
        exact ⟨rfl, by rw [byteLength, hlen]; omega⟩
      · simp at h

/-- The characters between two byte positions, or nothing when they are out of order, out of
range or inside a character. -/
def slice (first last : Nat) (cs : List Char) : List Char :=
  if first ≤ last then
    match splitAtByte? first cs with
    | none => []
    | some (_, back) => ((splitAtByte? (last - first) back).map Prod.fst).getD []
  else []

/-- The text before and after the first occurrence of `needle`. -/
def splitAround? (needle : List Char) : List Char → Option (List Char × List Char)
  | [] => if needle.isEmpty then some ([], []) else none
  | c :: cs =>
      match needle.isPrefixOf? (c :: cs) with
      | some after => some ([], after)
      | none => (splitAround? needle cs).map fun (before, after) => (c :: before, after)

/-- The pieces between the occurrences of a separator; `n` separators give `n + 1` pieces. -/
def splitOnChar (sep : Char) : List Char → List (List Char)
  | [] => [[]]
  | c :: cs =>
      if c = sep then [] :: splitOnChar sep cs
      else
        match splitOnChar sep cs with
        | [] => [[c]]
        | piece :: pieces => (c :: piece) :: pieces

/-- The text before and after the first occurrence of a character. -/
def splitOnce? (sep : Char) : List Char → Option (List Char × List Char)
  | [] => none
  | c :: cs =>
      if c = sep then some ([], cs)
      else (splitOnce? sep cs).map fun (before, after) => (c :: before, after)

example : splitAtByte? 3 "力x".toList = some ("力".toList, "x".toList) := by decide
example : splitAtByte? 2 "力x".toList = none := by decide
example : splitAround? "b".toList "abab".toList = some ("a".toList, "ab".toList) := by decide
example : splitOnChar ',' "a,,b".toList = ["a".toList, [], "b".toList] := by decide

end DiceBot.Text
