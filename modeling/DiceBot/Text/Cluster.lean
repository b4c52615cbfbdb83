import DiceBot.Text.ClusterClass

/-!
# Clusters

A text is cut into clusters, each of which a reader takes for one character, by the rules of
Unicode for extended grapheme clusters. The cut goes through the text once: what was read before
a place is summed up in a `BreakState`, and the rules decide from it whether the next character
belongs to the same cluster. The clusters together are the text (`flatten_clusters`).
-/

namespace DiceBot.Text

/-- What the text before a place says about the cut there. -/
structure BreakState where
  /-- The class of the last character. -/
  last : ClusterClass
  /-- Does the text end with a pictograph that nothing but extending characters follow? -/
  pictograph : Bool
  /-- Does it end with such a pictograph and a joiner? -/
  joined : Bool
  /-- Does it end with an odd number of flag halves? -/
  halfFlag : Bool
  /-- Does it end with a consonant that only linkers and extending characters follow? -/
  consonant : Bool
  /-- Is there a linker among these? -/
  linked : Bool

namespace BreakState

/-- Can `c` stand between a consonant and its linker, or be the linker? -/
def keepsConjunct (c : Char) : Bool :=
  c != '\u200C' && (ClusterClass.ofChar c = .extending || ClusterClass.ofChar c = .joiner)

/-- The state at the start of a text, after its first character. -/
def first (c : Char) : BreakState :=
  let cls := ClusterClass.ofChar c
  { last := cls
    pictograph := cls = .pictograph
    joined := false
    halfFlag := cls = .regional
    consonant := cls = .consonant
    linked := false }

/-- The state after one more character. -/
def next (s : BreakState) (c : Char) : BreakState :=
  let cls := ClusterClass.ofChar c
  { last := cls
    pictograph := cls = .pictograph || (s.pictograph && cls = .extending)
    joined := s.pictograph && cls = .joiner
    halfFlag := cls = .regional && !s.halfFlag
    consonant := cls = .consonant || (s.consonant && keepsConjunct c)
    linked := s.consonant && (isLinker c || (s.linked && keepsConjunct c)) }

/-- Does a character of the class belong to the same cluster as the text before it, if neither it
nor the character before stands alone? -/
def attaches (s : BreakState) : ClusterClass → Bool
  | .extending => true
  | .joiner => true
  | .spacing => true
  | .leading => [.preceding, .leading].contains s.last
  | .openSyllable => [.preceding, .leading].contains s.last
  | .closedSyllable => [.preceding, .leading].contains s.last
  | .vowel => [.preceding, .leading, .openSyllable, .vowel].contains s.last
  | .trailing =>
      [.preceding, .openSyllable, .vowel, .closedSyllable, .trailing].contains s.last
  | .pictograph => s.last = .preceding || s.joined
  | .regional => s.last = .preceding || s.halfFlag
  | .consonant => s.last = .preceding || s.linked
  | _ => s.last = .preceding

/-- Does `c` belong to the same cluster as the text before it? -/
def joins (s : BreakState) (c : Char) : Bool :=
  let cls := ClusterClass.ofChar c
  if s.last = .carriageReturn && cls = .lineFeed then true
  else if s.last.standsAlone || cls.standsAlone then false
  else s.attaches cls

end BreakState

/-- The clusters of a text that follows the characters of an unfinished cluster, given in
reverse. -/
def clustersAfter (s : BreakState) (cluster : List Char) : List Char → List (List Char)
  | [] => [cluster.reverse]
  | c :: cs =>
      if s.joins c then clustersAfter (s.next c) (c :: cluster) cs
      else cluster.reverse :: clustersAfter (s.next c) [c] cs

/-- The clusters of a text. -/
def clusters : List Char → List (List Char)
  | [] => []
  | c :: cs => clustersAfter (.first c) [c] cs

theorem flatten_clustersAfter (s : BreakState) (cluster cs : List Char) :
    (clustersAfter s cluster cs).flatten = cluster.reverse ++ cs := by
  induction cs generalizing s cluster with
  | nil => simp [clustersAfter]
  | cons c cs ih =>
    rw [clustersAfter]
    split
    · simp [ih]
    · simp [ih]

/-- The clusters together are the text. -/
theorem flatten_clusters (cs : List Char) : (clusters cs).flatten = cs := by
  cases cs with
  | nil => rfl
  | cons c cs => exact flatten_clustersAfter _ _ _

example : clusters "ae\u0301b".toList = ["a".toList, "e\u0301".toList, "b".toList] := by decide
example : clusters "\r\n\r".toList = ["\r\n".toList, "\r".toList] := by decide
example : clusters "각가".toList = ["각".toList, "가".toList] := by decide
example : clusters "क्षत".toList = ["क्ष".toList, "त".toList] := by decide +kernel
example : clusters "🇩🇪🇫".toList = ["🇩🇪".toList, "🇫".toList] := by decide +kernel

end DiceBot.Text
