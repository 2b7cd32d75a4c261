import CardGame.Random.Source
import Mathlib.Data.List.Nodup
import Mathlib.Data.List.Perm.Basic

/-!
What randomness can do and what it cannot. A number that is drawn below a bound is below it,
whatever the stream says, so a shuffle exchanges each item with one that is there and not above it
(`Random.Exchanged`), which rearranges the list. Indices that are drawn are different ones of the
list, as many as wanted or all (`Random.Samples`), and so are the items at them.
-/

namespace CardGame

namespace Random

variable {α : Type} {xs ys : List α} {i bound length count : Nat} {indices : List Nat}

theorem next32_lt (r : Random) : r.next32.1 < wordSize 32 := by
  have hword := UInt32.toNat_lt (ChaCha.word (ChaCha.keyOfSeed (UInt64.ofNat r.seed))
    ((r.position + 0) % period))
  exact hword

/-- A number is the part of the bound into which the draw falls, so it is below the bound. -/
theorem belowWith_lt {draw : Random → Nat × Random} {bits : Nat} (hbound : 0 < bound)
    (hdraw : ∀ r, (draw r).1 < wordSize bits) (tries : Nat) (r : Random) :
    (belowWith draw bits bound tries r).1 < bound := by
  induction tries generalizing r with
  | zero => exact hbound
  | succ tries ih =>
    simp only [belowWith]
    split
    · exact Nat.div_lt_of_lt_mul ((Nat.mul_lt_mul_right hbound).mpr (hdraw r))
    · exact ih _

theorem below32_lt (hbound : 0 < bound) (r : Random) : (r.below32 bound).1 < bound :=
  belowWith_lt hbound next32_lt period r

/-- From an index down to 1, each item has been exchanged with one that is not above it. -/
inductive Exchanged : Nat → List α → List α → Prop
  | none (xs : List α) : Exchanged 0 xs xs
  | next {i j : Nat} {xs ys : List α} (hi : i + 1 < xs.length) (hj : j < i + 2)
      (rest : Exchanged i ((xs.set (i + 1) xs[j]).set j xs[i + 1]) ys) : Exchanged (i + 1) xs ys

/-- Exchanging items rearranges a list. -/
theorem Exchanged.perm (h : Exchanged i xs ys) : ys.Perm xs := by
  induction h with
  | none => exact List.Perm.refl _
  | next hi hj _ ih => exact ih.trans (List.set_set_perm hi (by omega))

theorem exchange_eq {j : Nat} (hi : i < xs.length) (hj : j < xs.length) :
    exchange xs i j = (xs.set i xs[j]).set j xs[i] := by
  simp only [exchange, List.getElem?_eq_getElem hi, List.getElem?_eq_getElem hj]

/-- No number that is drawn is beyond the list, so every exchange takes place. -/
theorem exchanged_shuffleDown (hi : i ≤ xs.length - 1) (r : Random) :
    Exchanged i xs (shuffleDown i xs r).1 := by
  induction i generalizing xs r with
  | zero => exact .none xs
  | succ i ih =>
    have hdrawn : (r.below32 (i + 2)).1 < i + 2 := below32_lt (Nat.succ_pos _) r
    have hlast : i + 1 < xs.length := by omega
    simp only [shuffleDown]
    rw [exchange_eq hlast (by omega)]
    refine .next hlast hdrawn (ih ?_ _)
    simp only [List.length_set]
    omega

theorem exchanged_shuffle (r : Random) (xs : List α) :
    Exchanged (xs.length - 1) xs (r.shuffle xs).1 :=
  exchanged_shuffleDown (Nat.le_refl _) r

/-- Shuffling rearranges a list. -/
theorem shuffle_perm (r : Random) (xs : List α) : (r.shuffle xs).1.Perm xs :=
  (exchanged_shuffle r xs).perm

/-- Different indices below a length, as many as wanted, or all if there are no more. -/
structure Samples (length count : Nat) (indices : List Nat) : Prop where
  exactly : indices.length = min count length
  once : indices.Nodup
  below : ∀ i ∈ indices, i < length

theorem samples_sample (r : Random) (length count : Nat) :
    Samples length count (r.sample length count).1 := by
  have hperm := r.shuffle_perm (List.range length)
  refine ⟨?_, ?_, fun i hi => ?_⟩
  · change ((r.shuffle (List.range length)).1.take count).length = _
    rw [List.length_take, hperm.length_eq, List.length_range]
  · exact (hperm.nodup_iff.mpr List.nodup_range).sublist (List.take_sublist _ _)
  · exact List.mem_range.mp (hperm.mem_iff.mp (List.mem_of_mem_take hi))

namespace Samples

/-- The items at different indices are different ones of the list. -/
theorem nodup_items (h : Samples xs.length count indices) (hxs : xs.Nodup) :
    (indices.filterMap (xs[·]?)).Nodup := by
  refine h.once.filterMap fun i j x hi hj => ?_
  obtain ⟨hlt, -⟩ := List.getElem?_eq_some_iff.mp hi
  exact (List.getElem?_inj hlt hxs).mp (hi.trans hj.symm)

theorem items_subset : indices.filterMap (xs[·]?) ⊆ xs := by
  intro x hx
  obtain ⟨i, -, hi⟩ := List.mem_filterMap.mp hx
  exact List.mem_of_getElem? hi

/-- There is an item at each of the indices. -/
theorem length_items (h : Samples xs.length count indices) :
    (indices.filterMap (xs[·]?)).length = min count xs.length := by
  have hall : ∀ i ∈ indices, (xs[i]?).isSome := fun i hi => by
    rw [List.getElem?_eq_getElem (h.below i hi), Option.isSome_some]
  rw [← h.exactly, List.filterMap_length_eq_length]
  exact hall

end Samples

end Random

end CardGame
