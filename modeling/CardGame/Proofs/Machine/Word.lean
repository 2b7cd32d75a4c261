import CardGame.Decision.Check
import CardGame.Saturating
import Mathlib.Algebra.GroupWithZero.Nat

/-!
Arithmetic on a machine. A machine keeps seats in one byte, counts and identities in words of 32
bits, timestamps, sizes and positions in words of 64 bits, and amounts in signed words of 32 bits.
An operation that leaves its range, divides by 0 or goes beyond the end of a list stops the machine
with a `Trap`. Each operation here comes with what lets it run.
-/

namespace CardGame

/-- What stops a machine. The trap of a counter that has run out has a name of its own: identities,
timestamps and counters on permanents are only ever added to. -/
inductive Trap where
  | exhausted
  | overflow
  | divisionByZero
  | outOfBounds
deriving DecidableEq

/-- A computation on a machine. -/
abbrev Checked := Except Trap

/-- The largest number of one byte. -/
def maxByte : Nat := 255

/-- The largest number of 32 bits. -/
def maxWord : Nat := 4294967295

/-- The largest number of 64 bits. -/
def maxLong : Nat := 18446744073709551615

/-- A number in the range of amounts. -/
def IsAmount (x : Int) : Prop := minAmount ≤ x ∧ x ≤ maxAmount

instance (x : Int) : Decidable (IsAmount x) := inferInstanceAs (Decidable (_ ∧ _))

theorem isAmount_saturate (x : Int) : IsAmount (saturate x) := saturate_mem x

theorem isAmount_zero : IsAmount 0 := by decide

theorem isAmount_countAsAmount (n : Nat) : IsAmount (countAsAmount n) := by
  unfold IsAmount countAsAmount minAmount maxAmount
  omega

theorem countAsAmount_of_le {n : Nat} (h : (n : Int) ≤ maxAmount) : countAsAmount n = n := by
  unfold countAsAmount
  omega

theorem IsAmount.max {x y : Int} (hx : IsAmount x) (hy : IsAmount y) : IsAmount (max x y) := by
  unfold IsAmount at *
  omega

theorem IsAmount.min {x y : Int} (hx : IsAmount x) (hy : IsAmount y) : IsAmount (min x y) := by
  unfold IsAmount at *
  omega

namespace Checked

variable {α β : Type}

/-- A number that must not exceed a limit. -/
def fit (limit n : Nat) : Checked Nat := if n ≤ limit then .ok n else .error .overflow

/-- A sum of numbers. -/
def add (limit a b : Nat) : Checked Nat := fit limit (a + b)

/-- A difference of numbers. -/
def sub (a b : Nat) : Checked Nat := if b ≤ a then .ok (a - b) else .error .overflow

/-- The remainder of a division. -/
def rem (a b : Nat) : Checked Nat := if b = 0 then .error .divisionByZero else .ok (a % b)

/-- A number that must be an amount. -/
def amount (x : Int) : Checked Int := if IsAmount x then .ok x else .error .overflow

/-- The negative of an amount. -/
def neg (x : Int) : Checked Int := amount (-x)

/-- A difference of amounts. -/
def minus (x y : Int) : Checked Int := amount (x - y)

/-- The next value of a counter of identities or timestamps. -/
def tick (limit n : Nat) : Checked Nat := if n < limit then .ok (n + 1) else .error .exhausted

/-- The number of counters of one kind when some are added. -/
def gather (a b : Nat) : Checked Nat :=
  if a + b ≤ maxWord then .ok (a + b) else .error .exhausted

/-- The item of a list at a position. -/
def item (xs : List α) (i : Nat) : Checked α :=
  match xs[i]? with
  | some a => .ok a
  | none => .error .outOfBounds

/-- The items of a list at some positions. -/
def items (xs : List α) (is : List Nat) : Checked (List α) := is.mapM (item xs)

/-- The items of a list from a position on. -/
def dropFrom (xs : List α) (i : Nat) : Checked (List α) :=
  if i ≤ xs.length then .ok (xs.drop i) else .error .outOfBounds

/-- A list without the item at a position. -/
def removeAt (xs : List α) (i : Nat) : Checked (List α) :=
  if i < xs.length then .ok (xs.eraseIdx i) else .error .outOfBounds

/-- A list with another item at a position. -/
def insertAt (xs : List α) (i : Nat) (a : α) : Checked (List α) :=
  if i ≤ xs.length then .ok (xs.take i ++ a :: xs.drop i) else .error .outOfBounds

/-- What follows a computation that runs goes on with its result. -/
@[simp] theorem ok_bind (a : α) (k : α → Checked β) : ((.ok a : Checked α) >>= k) = k a := rfl

theorem fit_eq {limit n : Nat} (h : n ≤ limit) : fit limit n = .ok n := if_pos h

theorem add_eq {limit a b : Nat} (h : a + b ≤ limit) : add limit a b = .ok (a + b) := fit_eq h

theorem sub_eq {a b : Nat} (h : b ≤ a) : sub a b = .ok (a - b) := if_pos h

theorem rem_eq {a b : Nat} (h : b ≠ 0) : rem a b = .ok (a % b) := if_neg h

theorem amount_eq {x : Int} (h : IsAmount x) : amount x = .ok x := if_pos h

/-- Only the smallest amount has no negative. -/
theorem neg_eq {x : Int} (hlo : minAmount < x) (hhi : x ≤ maxAmount) : neg x = .ok (-x) := by
  apply amount_eq
  unfold IsAmount minAmount maxAmount at *
  omega

/-- Counts differ by an amount, however large they are. -/
theorem minus_eq {x y : Int} (hx : 0 ≤ x ∧ x ≤ maxAmount) (hy : 0 ≤ y ∧ y ≤ maxAmount) :
    minus x y = .ok (x - y) := by
  apply amount_eq
  unfold IsAmount minAmount maxAmount at *
  omega

theorem tick_cases (limit n : Nat) :
    (n + 1 ≤ limit ∧ tick limit n = .ok (n + 1)) ∨ tick limit n = .error .exhausted := by
  unfold tick
  split
  · next h => exact Or.inl ⟨h, rfl⟩
  · exact Or.inr rfl

theorem gather_cases (a b : Nat) :
    gather a b = .ok (a + b) ∨ gather a b = .error .exhausted := by
  unfold gather
  split
  · exact Or.inl rfl
  · exact Or.inr rfl

theorem item_eq {xs : List α} {i : Nat} {a : α} (h : xs[i]? = some a) : item xs i = .ok a := by
  unfold item
  rw [h]

/-- Positions within a list have items. -/
theorem items_eq {xs : List α} {is : List Nat} (h : ∀ i ∈ is, i < xs.length) :
    items xs is = .ok (is.filterMap (xs[·]?)) := by
  induction is with
  | nil => rfl
  | cons i rest ih =>
    have hi : i < xs.length := h i List.mem_cons_self
    have hfound : xs[i]? = some xs[i] := List.getElem?_eq_getElem hi
    have hrest := ih fun j hj => h j (List.mem_cons_of_mem _ hj)
    unfold items at hrest ⊢
    rw [List.mapM_cons, item_eq hfound, hrest, List.filterMap_cons, hfound]
    rfl

theorem dropFrom_eq {xs : List α} {i : Nat} (h : i ≤ xs.length) : dropFrom xs i = .ok (xs.drop i) :=
  if_pos h

theorem removeAt_eq {xs : List α} {i : Nat} (h : i < xs.length) :
    removeAt xs i = .ok (xs.eraseIdx i) := if_pos h

theorem insertAt_eq {xs : List α} {i : Nat} (h : i ≤ xs.length) (a : α) :
    insertAt xs i a = .ok (xs.take i ++ a :: xs.drop i) := if_pos h

/-- A sum of numbers, added up one by one. -/
def total (limit : Nat) (size : α → Nat) (xs : List α) (sum : Nat) : Checked Nat :=
  xs.foldlM (fun sum a => add limit sum (size a)) sum

/-- A sum runs if what it comes to is within the limit. -/
theorem total_eq {limit : Nat} {size : α → Nat} (xs : List α) {sum : Nat}
    (h : sum + (xs.map size).sum ≤ limit) :
    total limit size xs sum = .ok (sum + (xs.map size).sum) := by
  induction xs generalizing sum with
  | nil => rfl
  | cons a rest ih =>
    rw [List.map_cons, List.sum_cons, ← Nat.add_assoc] at h ⊢
    have hfirst : add limit sum (size a) = .ok (sum + size a) := add_eq (by omega)
    have hrest := ih h
    unfold total at hrest ⊢
    rw [List.foldlM_cons, hfirst]
    exact hrest

/-- A list of computations runs if each of them does. -/
theorem mapM_eq {f : α → Checked β} {g : α → β} {xs : List α} (h : ∀ a ∈ xs, f a = .ok (g a)) :
    xs.mapM f = .ok (xs.map g) := by
  induction xs with
  | nil => rfl
  | cons a rest ih =>
    have hfirst : f a = .ok (g a) := h a List.mem_cons_self
    have hrest := ih fun b hb => h b (List.mem_cons_of_mem _ hb)
    rw [List.mapM_cons, hfirst, hrest]
    rfl

/-- A fold runs if each of its steps does. -/
theorem foldlM_eq {f : β → α → Checked β} {g : β → α → β} {I : List α → β → Prop} {xs : List α}
    {b : β} (hI : I xs b) (hstep : ∀ {a rest b}, I (a :: rest) b → f b a = .ok (g b a) ∧
      I rest (g b a)) : xs.foldlM f b = .ok (xs.foldl g b) ∧ I [] (xs.foldl g b) := by
  induction xs generalizing b with
  | nil => exact ⟨rfl, hI⟩
  | cons a rest ih =>
    obtain ⟨hfirst, hrest⟩ := hstep hI
    rw [List.foldlM_cons, hfirst, List.foldl_cons]
    exact ih hrest

end Checked

end CardGame
