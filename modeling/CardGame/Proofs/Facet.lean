import CardGame.Facet
import CardGame.Proofs.Collection
import Mathlib.Logic.Function.Basic

/-!
Reading what is recorded of an object. A reading looks at the facet of one kind, so facets of other
kinds come and go without it; counters are read kind by kind.
-/

namespace CardGame

namespace Facets

variable {fs : Facets} {f : Facet} {kind : FacetKind}

theorem find?_insert_of_ne (hkind : kind ≠ f.kind) :
    (fs.insert f).byKind.find? kind = fs.byKind.find? kind := by
  simp [insert, Ne.symm hkind]

theorem find?_erase_of_ne {other : FacetKind} (hkind : kind ≠ other) :
    (fs.erase other).byKind.find? kind = fs.byKind.find? kind := by
  simp [erase, Ne.symm hkind]

/-- Erasing kinds one by one erases them all. -/
theorem find?_foldl_erase (fs : Facets) (kinds : List FacetKind) (kind : FacetKind) :
    (kinds.foldl erase fs).byKind.find? kind =
      if kind ∈ kinds then none else fs.byKind.find? kind := by
  induction kinds generalizing fs with
  | nil => rfl
  | cons first rest ih =>
    refine (ih (fs.erase first)).trans ?_
    by_cases hrest : kind ∈ rest
    · rw [if_pos hrest, if_pos (List.mem_cons_of_mem _ hrest)]
    · simp only [hrest, if_false, erase, SortedMap.find?_erase, List.mem_cons, or_false, eq_comm]

theorem card?_insert (hkind : f.kind ≠ .card) : (fs.insert f).card? = fs.card? := by
  simp [card?, insert, hkind]

theorem card?_erase (hkind : kind ≠ .card) : (fs.erase kind).card? = fs.card? := by
  simp [card?, erase, hkind]

theorem owner?_insert (hkind : f.kind ≠ .owner) : (fs.insert f).owner? = fs.owner? := by
  simp [owner?, insert, hkind]

theorem owner?_erase (hkind : kind ≠ .owner) : (fs.erase kind).owner? = fs.owner? := by
  simp [owner?, erase, hkind]

theorem controller?_insert (hkind : f.kind ≠ .controller) :
    (fs.insert f).controller? = fs.controller? := by
  simp [controller?, insert, hkind]

theorem controller?_of_erase {s : Seat} (h : (fs.erase kind).controller? = some s) :
    fs.controller? = some s := by
  by_cases hkind : kind = .controller
  · subst hkind
    simp [controller?, erase] at h
  · rwa [controller?, erase, SortedMap.find?_erase, if_neg hkind] at h

theorem player?_insert (hkind : f.kind ≠ .player) : (fs.insert f).player? = fs.player? := by
  simp [player?, insert, hkind]

theorem player?_erase (hkind : kind ≠ .player) : (fs.erase kind).player? = fs.player? := by
  simp [player?, erase, hkind]

/-- Of two facets of one kind the later one counts. -/
theorem insert_insert {f' : Facet} (hkind : f.kind = f'.kind) (fs : Facets) :
    (fs.insert f).insert f' = fs.insert f' := by
  simp only [insert, mk.injEq]
  apply SortedMap.ext_find?
  intro kind
  simp only [SortedMap.find?_insert, hkind]
  split <;> rfl

theorem has_insert (hkind : f.kind ≠ kind) : (fs.insert f).has kind = fs.has kind := by
  simp [has, insert, hkind]

theorem has_erase {other : FacetKind} (hkind : other ≠ kind) :
    (fs.erase other).has kind = fs.has kind := by
  simp [has, erase, hkind]

end Facets

namespace Counters

variable {c : Counters} (kind : CounterKind) (n : Nat)

theorem count_add : (c.add kind n).count = Function.update c.count kind (c.count kind + n) := by
  funext kind'
  by_cases hkind : kind = kind'
  · subst hkind
    simp [add, count]
  · rw [Function.update_of_ne (Ne.symm hkind)]
    simp [add, count, hkind]

theorem count_take : (c.take kind n).2.count =
    Function.update c.count kind (c.count kind - (c.take kind n).1) := by
  funext kind'
  have hleft : c.count kind - (c.take kind n).1 = c.count kind - min (c.count kind) n := rfl
  rw [hleft, take]
  by_cases hkind : kind = kind'
  · subst hkind
    rw [Function.update_self]
    split
    · next hnone =>
      rw [hnone]
      simp [count]
    · simp [count]
  · rw [Function.update_of_ne (Ne.symm hkind)]
    split <;> simp [count, hkind]

theorem count_of_isEmpty (h : c.isEmpty = true) : c.count = fun _ => 0 := by
  funext kind'
  rw [count]
  cases hfind : c.counts.find? kind' with
  | none => rfl
  | some m =>
    have hsome : c.isEmpty = false := SortedMap.isEmpty_eq_false hfind
    rw [h] at hsome
    cases hsome

end Counters

end CardGame
