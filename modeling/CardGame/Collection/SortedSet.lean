import CardGame.Collection.SortedMap

/-!
Finite sets as strictly ascending lists. Equal sets are equal values.
-/

namespace CardGame

/-- A finite set of keys: a map that gives every member the unit value. -/
structure SortedSet (κ : Type) [Ranked κ] where
  members : SortedMap κ Unit
deriving DecidableEq

namespace SortedSet

variable {κ : Type} [Ranked κ] [DecidableEq κ]

def empty : SortedSet κ := ⟨.empty⟩

instance : EmptyCollection (SortedSet κ) := ⟨empty⟩
instance : Inhabited (SortedSet κ) := ⟨empty⟩

/-- The members in ascending order. -/
def toList (s : SortedSet κ) : List κ := s.members.keys

def contains (s : SortedSet κ) (k : κ) : Bool := s.members.contains k

def insert (s : SortedSet κ) (k : κ) : SortedSet κ := ⟨s.members.insert k ()⟩

def erase (s : SortedSet κ) (k : κ) : SortedSet κ := ⟨s.members.erase k⟩

def isEmpty (s : SortedSet κ) : Bool := s.members.isEmpty

def size (s : SortedSet κ) : Nat := s.members.size

def insertAll (s : SortedSet κ) (ks : List κ) : SortedSet κ := ks.foldl insert s

def ofList (ks : List κ) : SortedSet κ := insertAll empty ks

def singleton (k : κ) : SortedSet κ := empty.insert k

def union (s t : SortedSet κ) : SortedSet κ := s.insertAll t.toList

/-- The members of the first set that are not in the second. -/
def diff (s t : SortedSet κ) : SortedSet κ :=
  ⟨s.members.choose fun k _ => if t.contains k then none else some ()⟩

@[simp] theorem contains_insert (s : SortedSet κ) (k k' : κ) :
    (s.insert k).contains k' = (decide (k = k') || s.contains k') := by
  by_cases h : k = k' <;> simp [contains, insert, SortedMap.contains, h]

@[simp] theorem contains_erase (s : SortedSet κ) (k k' : κ) :
    (s.erase k).contains k' = (decide (k ≠ k') && s.contains k') := by
  by_cases h : k = k' <;> simp [contains, erase, SortedMap.contains, h]

/-- A set is determined by its members. -/
theorem ext_contains {s t : SortedSet κ} (h : ∀ k, s.contains k = t.contains k) : s = t := by
  cases s with
  | mk m =>
    cases t with
    | mk n =>
      have : m = n := by
        apply SortedMap.ext_find?
        intro k
        have hk := h k
        simp only [contains, SortedMap.contains] at hk
        cases hm : m.find? k <;> cases hn : n.find? k <;> simp_all
      subst this
      rfl

end SortedSet

end CardGame
