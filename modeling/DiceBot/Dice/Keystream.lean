/-!
# The random word stream

A stream of 32-bit words that depends only on a seed: the ChaCha key stream with eight rounds,
a 64-bit block counter from zero and an empty nonce. The key is the seed spread over eight words.
-/

namespace DiceBot

/-- The stream after some words have been taken: the key, the number of the next block, and what
is left of the current block. -/
structure Keystream where
  key : Vector UInt32 8
  nextBlock : UInt64 := 0
  pending : List UInt32 := []
  deriving DecidableEq

namespace Keystream

/-- The number of different words, `2 ^ 32`. -/
def wordCount : Nat := 4294967296

/-- The number of different pairs of words, `2 ^ 64`. -/
def pairCount : Nat := 18446744073709551616

/-- `x` turned left by `n` bits, for `n` between 1 and 31. -/
def rotateLeft (x n : UInt32) : UInt32 := (x <<< n) ||| (x >>> (32 - n))

/-- `x` turned right by `n` bits, for `n` below 32. -/
def rotateRight (x n : UInt32) : UInt32 := if n = 0 then x else (x >>> n) ||| (x <<< (32 - n))

/-- One step of the generator that spreads a seed. -/
def stepSeed (s : UInt64) : UInt64 := s * 6364136223846793005 + 11634580027462260723

/-- The key word that a state of the spreading generator gives. -/
def keyWord (s : UInt64) : UInt32 :=
  rotateRight (((s >>> 18) ^^^ s) >>> 27).toUInt32 (s >>> 59).toUInt32

/-- The generator after `n` steps. -/
def seedAfter (s : UInt64) : Nat → UInt64
  | 0 => s
  | n + 1 => stepSeed (seedAfter s n)

/-- The stream of a seed. -/
def ofSeed (seed : UInt64) : Keystream where
  key := Vector.ofFn fun i => keyWord (seedAfter seed (i.val + 1))

/-- The working state of a block: four rows of four words. -/
abbrev Block := Vector UInt32 16

/-- Mixes four words of a block. -/
def quarterRound (a b c d : Fin 16) (v : Block) : Block :=
  let v := v.set a (v[a] + v[b])
  let v := v.set d (rotateLeft (v[d] ^^^ v[a]) 16)
  let v := v.set c (v[c] + v[d])
  let v := v.set b (rotateLeft (v[b] ^^^ v[c]) 12)
  let v := v.set a (v[a] + v[b])
  let v := v.set d (rotateLeft (v[d] ^^^ v[a]) 8)
  let v := v.set c (v[c] + v[d])
  v.set b (rotateLeft (v[b] ^^^ v[c]) 7)

/-- Mixes the columns of a block, then its diagonals. -/
def doubleRound (v : Block) : Block :=
  v |> quarterRound 0 4 8 12 |> quarterRound 1 5 9 13 |> quarterRound 2 6 10 14
    |> quarterRound 3 7 11 15 |> quarterRound 0 5 10 15 |> quarterRound 1 6 11 12
    |> quarterRound 2 7 8 13 |> quarterRound 3 4 9 14

/-- The four constants that every block starts with. -/
def constants : Vector UInt32 4 := #v[0x61707865, 0x3320646e, 0x79622d32, 0x6b206574]

/-- The block before mixing: the constants, the key, the block number and an empty nonce. -/
def initialBlock (key : Vector UInt32 8) (number : UInt64) : Block :=
  constants ++ key ++ #v[number.toUInt32, (number >>> 32).toUInt32, 0, 0]

/-- The sixteen words of a block: four double rounds, added to the block before mixing. -/
def blockWords (key : Vector UInt32 8) (number : UInt64) : Block :=
  let start := initialBlock key number
  let mixed := doubleRound (doubleRound (doubleRound (doubleRound start)))
  Vector.zipWith (· + ·) start mixed

/-- The next word, and the stream after it. -/
def nextWord (stream : Keystream) : UInt32 × Keystream :=
  match stream.pending with
  | word :: rest => (word, { stream with pending := rest })
  | [] =>
      let words := blockWords stream.key stream.nextBlock
      (words[0], { stream with
        nextBlock := stream.nextBlock + 1
        pending := words.toList.tail })

/-- The next two words as one number, the low half first. -/
def nextPair (stream : Keystream) : UInt64 × Keystream :=
  let (low, stream) := stream.nextWord
  let (high, stream) := stream.nextWord
  (low.toUInt64 ||| (high.toUInt64 <<< 32), stream)

end Keystream

end DiceBot
