import CardGame.Random.ChaCha

/-!
The game's source of randomness. It is part of the game: a seed and the number of words read so
far, so a saved game draws the same cards again.
-/

namespace CardGame

/-- A stream of random words and the place reached in it. -/
structure Random where
  seed : Nat
  position : Nat
deriving DecidableEq

namespace Random

/-- The number of values that so many bits have. -/
def wordSize (bits : Nat) : Nat := 1 <<< bits

/-- The number of words after which a stream starts again. -/
def period : Nat := wordSize 68

/-- A fresh source. -/
def ofSeed (seed : Nat) : Random := ⟨seed, 0⟩

/-- A source with a given number of words read. -/
def resume (seed position : Nat) : Random := ⟨seed, position % period⟩

/-- The source after reading some words. -/
def advance (r : Random) (words : Nat) : Random :=
  { r with position := (r.position + words) % period }

/-- The word at some distance from the current place. -/
def peek (r : Random) (offset : Nat) : Nat :=
  (ChaCha.word (ChaCha.keyOfSeed (UInt64.ofNat r.seed)) ((r.position + offset) % period)).toNat

/-- Reads 32 bits. -/
def next32 (r : Random) : Nat × Random := (r.peek 0, r.advance 1)

/-- Reads 64 bits, the low half first. -/
def next64 (r : Random) : Nat × Random := (r.peek 0 + r.peek 1 * wordSize 32, r.advance 2)

/-- Repeats a draw of `bits` bits until it falls evenly into `bound` parts, and answers the part.
A search that fails for a whole period of the stream would fail forever and answers 0. -/
def belowWith (draw : Random → Nat × Random) (bits bound : Nat) : Nat → Random → Nat × Random
  | 0, r => (0, r)
  | tries + 1, r =>
    let (v, r) := draw r
    let zone := (bound <<< (bits - 1 - bound.log2)) - 1
    if v * bound % wordSize bits ≤ zone then (v * bound / wordSize bits, r)
    else belowWith draw bits bound tries r

/-- A number below a bound, drawn with 32 bits a try. -/
def below32 (r : Random) (bound : Nat) : Nat × Random := belowWith next32 32 bound period r

/-- A number below a bound, drawn with 64 bits a try. -/
def below64 (r : Random) (bound : Nat) : Nat × Random := belowWith next64 64 bound period r

/-- A number from `lo` on and below `hi`. -/
def range (r : Random) (lo hi : Nat) : Nat × Random :=
  let (n, r) := r.below64 (hi - lo)
  (lo + n, r)

/-- Exchanges two items of a list; an index beyond the end exchanges nothing. -/
def exchange {α : Type} (xs : List α) (i j : Nat) : List α :=
  match xs[i]?, xs[j]? with
  | some a, some b => (xs.set i b).set j a
  | _, _ => xs

/-- Exchanges each item from index `i` down to 1 with a random one not above it. -/
def shuffleDown {α : Type} : Nat → List α → Random → List α × Random
  | 0, xs, r => (xs, r)
  | i + 1, xs, r =>
    let (j, r) := r.below32 (i + 2)
    shuffleDown i (exchange xs (i + 1) j) r

/-- Shuffles a list. -/
def shuffle {α : Type} (r : Random) (xs : List α) : List α × Random :=
  shuffleDown (xs.length - 1) xs r

/-- Some distinct indices below `length`, in the order drawn. -/
def sample (r : Random) (length count : Nat) : List Nat × Random :=
  let (indices, r) := r.shuffle (List.range length)
  (indices.take count, r)

end Random

end CardGame
