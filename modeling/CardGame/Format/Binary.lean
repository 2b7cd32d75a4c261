import CardGame.Collection.SortedSet

/-!
Values as bytes. A format writes a value in front of the bytes that follow it, and reads a value off
the front of some bytes.
-/

namespace CardGame

/-- A way to write values as bytes and to read them back. -/
structure Binary (α : Type) where
  write : α → List UInt8 → List UInt8
  read : List UInt8 → Option (α × List UInt8)

namespace Binary

variable {α β : Type}

/-- The number of values that so many bytes have. -/
def capacity : Nat → Nat
  | 0 => 1
  | width + 1 => 256 * capacity width

/-- The lowest bytes of a number, the least significant first. -/
def writeNat : Nat → Nat → List UInt8 → List UInt8
  | 0, _, rest => rest
  | width + 1, n, rest => UInt8.ofNat (n % 256) :: writeNat width (n / 256) rest

/-- Reads a number of so many bytes. -/
def readNat : Nat → List UInt8 → Option (Nat × List UInt8)
  | 0, bytes => some (0, bytes)
  | _ + 1, [] => none
  | width + 1, b :: bytes => (readNat width bytes).map fun (n, rest) => (b.toNat + 256 * n, rest)

theorem readNat_writeNat (width n : Nat) (rest : List UInt8) :
    readNat width (writeNat width n rest) = some (n % capacity width, rest) := by
  induction width generalizing n with
  | zero => simp [readNat, writeNat, capacity, Nat.mod_one]
  | succ w ih => simp [readNat, writeNat, capacity, ih, Nat.mod_mul]

/-- Numbers of a fixed number of bytes. -/
def nat (width : Nat) : Binary Nat := ⟨writeNat width, readNat width⟩

/-- Signed numbers in two's complement. -/
def int (width : Nat) : Binary Int where
  write n := writeNat width (n % (capacity width : Int)).toNat
  read bytes := (readNat width bytes).map fun (n, rest) =>
    (if 2 * n < capacity width then (n : Int) else n - (capacity width : Int), rest)

/-- A byte that is 0 or 1. -/
def bool : Binary Bool where
  write b rest := (if b then 1 else 0) :: rest
  read
    | 0 :: rest => some (false, rest)
    | 1 :: rest => some (true, rest)
    | _ => none

/-- A length in eight bytes and the UTF-8 bytes of the text. -/
def string : Binary String where
  write s rest := writeNat 8 s.utf8ByteSize (s.toUTF8.toList ++ rest)
  read bytes := do
    let (n, bytes) ← readNat 8 bytes
    let text := bytes.take n
    if text.length < n then none
    let s ← String.fromUTF8? ⟨text.toArray⟩
    return (s, bytes.drop n)

/-- Writes values through another type. -/
def iso (b : Binary β) (f : β → α) (g : α → β) : Binary α where
  write a := b.write (g a)
  read bytes := (b.read bytes).map fun (x, rest) => (f x, rest)

/-- One value after the other. -/
def pair (a : Binary α) (b : Binary β) : Binary (α × β) where
  write p rest := a.write p.1 (b.write p.2 rest)
  read bytes := do
    let (x, bytes) ← a.read bytes
    let (y, bytes) ← b.read bytes
    return ((x, y), bytes)

/-- A byte that tells whether there is a value, and the value. -/
def option (b : Binary α) : Binary (Option α) where
  write
    | none, rest => 0 :: rest
    | some a, rest => 1 :: b.write a rest
  read
    | 0 :: rest => some (none, rest)
    | 1 :: rest => (b.read rest).map fun (a, rest) => (some a, rest)
    | _ => none

/-- Reads so many values. -/
def readMany (b : Binary α) : Nat → List UInt8 → Option (List α × List UInt8)
  | 0, bytes => some ([], bytes)
  | n + 1, bytes => do
    let (a, bytes) ← b.read bytes
    let (as, bytes) ← readMany b n bytes
    return (a :: as, bytes)

/-- A length in eight bytes and the values. -/
def list (b : Binary α) : Binary (List α) where
  write as rest := writeNat 8 as.length (as.foldr b.write rest)
  read bytes := do
    let (n, bytes) ← readNat 8 bytes
    readMany b n bytes

/-- A map as the list of its entries. Of several entries of one key the last counts. -/
def map [Ranked α] [DecidableEq α] (key : Binary α) (value : Binary β) :
    Binary (SortedMap α β) :=
  (list (pair key value)).iso .ofList (·.entries)

end Binary

end CardGame
