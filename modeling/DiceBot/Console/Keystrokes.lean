import DiceBot.Text.Basic
import DiceBot.Text.Cluster

/-!
# Keystrokes

A line that does not come from a terminal is read as it was typed. A backspace in it takes back
the last cluster that is still there, and is dropped where there is none. A line without
backspaces is read unchanged (`typed_of_not_mem`).
-/

namespace DiceBot

open Text

/-- What has been typed and not taken back. -/
structure Keystrokes where
  /-- The characters, the last one first. -/
  text : List Char := []
  /-- The widths of the clusters in bytes, the last one first. -/
  widths : List Nat := []

namespace Keystrokes

/-- The backspace character. -/
def backspace : Char := '\x08'

/-- The width of a cluster as it is remembered, which is in one byte: of a cluster of 256 bytes
or more only what exceeds a multiple of 256 can be taken back. -/
def width (cluster : List Char) : Nat := byteLength cluster % 256

/-- Takes bytes from the front of a text. A character goes as a whole. -/
def dropBytes : Nat → List Char → List Char
  | 0, cs => cs
  | _ + 1, [] => []
  | n + 1, c :: cs => dropBytes (n + 1 - c.utf8Size) cs

/-- Takes the last cluster back. -/
def takeBack (k : Keystrokes) : Keystrokes :=
  match k.widths with
  | [] => k
  | w :: ws => ⟨dropBytes w k.text, ws⟩

/-- Adds a cluster. -/
def add (k : Keystrokes) (cluster : List Char) : Keystrokes :=
  ⟨cluster.reverse ++ k.text, width cluster :: k.widths⟩

/-- Goes on with a cluster of the line, which may be a backspace. -/
def type (k : Keystrokes) (cluster : List Char) : Keystrokes :=
  if cluster = [backspace] then k.takeBack else k.add cluster

/-- The text that the keystrokes of a line leave. -/
def typed (line : List Char) : List Char := ((clusters line).foldl type {}).text.reverse

theorem text_foldl_type {cs : List (List Char)} (h : ∀ cluster ∈ cs, backspace ∉ cluster)
    (k : Keystrokes) : (cs.foldl type k).text = cs.flatten.reverse ++ k.text := by
  induction cs generalizing k with
  | nil => rfl
  | cons cluster cs ih =>
    have hcluster : cluster ≠ [backspace] := fun heq => h cluster (by simp) (by simp [heq])
    rw [List.foldl_cons, ih fun x hx => h x (by simp [hx]), type, if_neg hcluster]
    simp [add]

/-- A line without backspaces is read unchanged. -/
theorem typed_of_not_mem {line : List Char} (h : backspace ∉ line) : typed line = line := by
  have hclusters : ∀ cluster ∈ clusters line, backspace ∉ cluster := fun cluster hc hb =>
    h (flatten_clusters line ▸ List.mem_flatten_of_mem hc hb)
  rw [typed, text_foldl_type hclusters, flatten_clusters]
  simp

example : typed "1+12\x08".toList = "1+1".toList := by decide
example : typed "\x08ab\x08\x08\x08c".toList = "c".toList := by decide
example : typed "ae\u0301\x08".toList = "a".toList := by decide

end Keystrokes

end DiceBot
