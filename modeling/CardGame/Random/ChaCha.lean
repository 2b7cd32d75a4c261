/-!
The ChaCha stream with eight rounds. Word `i` of the stream is a function of the key and of `i`, so
a generator needs to remember only its key and how many words it has read.
-/

namespace CardGame.ChaCha

/-- Rotation to the left. -/
def rotateLeft (x : UInt32) (n : UInt32) : UInt32 := (x <<< n) ||| (x >>> (32 - n))

/-- A row of the four by four state. -/
structure Row where
  a : UInt32
  b : UInt32
  c : UInt32
  d : UInt32

namespace Row

def map (f : UInt32 → UInt32) (r : Row) : Row := ⟨f r.a, f r.b, f r.c, f r.d⟩

def zip (f : UInt32 → UInt32 → UInt32) (r s : Row) : Row :=
  ⟨f r.a s.a, f r.b s.b, f r.c s.c, f r.d s.d⟩

/-- Adds the second row to the first. -/
def add (r s : Row) : Row := zip (· + ·) r s

/-- Combines the rows by exclusive or, then rotates every word. -/
def mix (r s : Row) (n : UInt32) : Row := map (rotateLeft · n) (zip (· ^^^ ·) r s)

/-- Moves every word one column to the left. -/
def shift (r : Row) : Row := ⟨r.b, r.c, r.d, r.a⟩

def toList (r : Row) : List UInt32 := [r.a, r.b, r.c, r.d]

end Row

/-- The state of a block. -/
structure State where
  r₀ : Row
  r₁ : Row
  r₂ : Row
  r₃ : Row

namespace State

/-- A quarter round on each of the four columns. -/
def columns (s : State) : State :=
  let a := s.r₀.add s.r₁
  let d := s.r₃.mix a 16
  let c := s.r₂.add d
  let b := s.r₁.mix c 12
  let a := a.add b
  let d := d.mix a 8
  let c := c.add d
  let b := b.mix c 7
  ⟨a, b, c, d⟩

/-- Turns diagonals into columns. -/
def skew (s : State) : State := ⟨s.r₀, s.r₁.shift, s.r₂.shift.shift, s.r₃.shift.shift.shift⟩

/-- Turns columns back into diagonals. -/
def unskew (s : State) : State := ⟨s.r₀, s.r₁.shift.shift.shift, s.r₂.shift.shift, s.r₃.shift⟩

/-- A round on the columns and one on the diagonals. -/
def doubleRound (s : State) : State := s.columns.skew.columns.unskew

def add (s t : State) : State :=
  ⟨s.r₀.add t.r₀, s.r₁.add t.r₁, s.r₂.add t.r₂, s.r₃.add t.r₃⟩

def toList (s : State) : List UInt32 :=
  s.r₀.toList ++ s.r₁.toList ++ s.r₂.toList ++ s.r₃.toList

end State

/-- The eight words of a key, as two rows. -/
structure Key where
  high : Row
  low : Row

/-- The first state of a block: the constant row, the key, and the number of the block. -/
def initial (key : Key) (block : UInt64) : State where
  r₀ := ⟨0x61707865, 0x3320646e, 0x79622d32, 0x6b206574⟩
  r₁ := key.high
  r₂ := key.low
  r₃ := ⟨block.toUInt32, (block >>> 32).toUInt32, 0, 0⟩

/-- The sixteen words of a block. -/
def block (key : Key) (number : UInt64) : List UInt32 :=
  let start := initial key number
  (start.doubleRound.doubleRound.doubleRound.doubleRound.add start).toList

/-- A word of the stream. -/
def word (key : Key) (position : Nat) : UInt32 :=
  (block key (UInt64.ofNat (position / 16))).getD (position % 16) 0

/-- The state that follows a seed in the key schedule. -/
def nextSeed (s : UInt64) : UInt64 := s * 6364136223846793005 + 11634580027462260723

/-- The key word read off a state of the schedule. -/
def keyWord (s : UInt64) : UInt32 :=
  let x := (((s >>> 18) ^^^ s) >>> 27).toUInt32
  let n := (s >>> 59).toUInt32
  (x >>> n) ||| (x <<< (32 - n))

/-- The key spread out from a seed. -/
def keyOfSeed (seed : UInt64) : Key :=
  let s₁ := nextSeed seed
  let s₂ := nextSeed s₁
  let s₃ := nextSeed s₂
  let s₄ := nextSeed s₃
  let s₅ := nextSeed s₄
  let s₆ := nextSeed s₅
  let s₇ := nextSeed s₆
  let s₈ := nextSeed s₇
  ⟨⟨keyWord s₁, keyWord s₂, keyWord s₃, keyWord s₄⟩,
    ⟨keyWord s₅, keyWord s₆, keyWord s₇, keyWord s₈⟩⟩

end CardGame.ChaCha
