import CardGame.Proofs.Game.Alter
import CardGame.Proofs.Machine.Typed

/-!
What elementary changes leave can be held. Objects keep what is recorded about them, floating
effects keep what they do, and suspended work stays, so that nothing leaves its range but the
counters, which `Checked` looks after where they go on.
-/

namespace CardGame

namespace Game

variable {α : Type} {g g' : Game} {o : ObjectId} {u : Unit}

/-- A change that leaves a game that can be held, with the same work suspended. -/
structure Holds (g g' : Game) : Prop where
  typed : g'.Typed
  stack : g'.stack = g.stack

theorem Holds.trans {g'' : Game} (h : Holds g g') (h' : Holds g' g'') : Holds g g'' :=
  ⟨h'.typed, h'.stack.trans h.stack⟩

theorem Holds.weight_le (h : Holds g g') : g'.weight ≤ g.weight + 0 := by
  unfold weight
  rw [h.stack]
  exact Nat.le_refl _

/-- Zones and the stream of random words hold nothing that counts. -/
theorem Typed.holds (h : g.Typed) (objects : SortedMap ObjectId Facets) (zones : Zones)
    (random : Random) (hfacets : ∀ o, ((objects.find? o).getD .empty).Typed) :
    Holds g { g with objects, zones, random } :=
  ⟨{ h with facets := hfacets }, rfl⟩

theorem Typed.rezone (h : g.Typed) (zones : Zones) (random : Random) :
    Holds g { g with zones, random } :=
  h.holds g.objects zones random h.facets

theorem Typed.modify (h : g.Typed) (o : ObjectId) {f : Facets → Facets}
    (hf : ∀ fs, fs.Typed → (f fs).Typed) :
    Holds g { g with objects := g.objects.modify o f } := by
  refine h.holds _ g.zones g.random fun o' => ?_
  have hknown : ((g.objects.find? o').getD .empty).Typed := h.facets o'
  rw [SortedMap.find?_modify]
  split
  · cases hfind : g.objects.find? o' with
    | none => exact Facets.typed_empty
    | some fs =>
      rw [hfind] at hknown
      exact hf fs hknown
  · exact hknown

theorem Typed.setFacet (h : g.Typed) {f : Facet} (hf : f.Typed)
    (hset : setFacet o f g = .ok u g') : Holds g g' := by
  rw [(setFacet_eq_ok hset).2]
  exact h.modify o fun _ hfs => hfs.insert hf

theorem Typed.setLife (h : g.Typed) {s : Seat} {life : Int} (hset : setLife s life g = .ok u g') :
    Holds g g' := by
  obtain ⟨poison, rfl⟩ := setLife_eq_ok hset
  exact h.modify _ fun _ hfs => hfs.insert trivial

theorem Typed.eraseFacet (h : g.Typed) (o : ObjectId) (kind : FacetKind) :
    Holds g (g.eraseFacet o kind) :=
  h.modify o fun _ hfs => hfs.erase kind

theorem Typed.eraseFacets (h : g.Typed) (o : ObjectId) (kinds : List FacetKind) :
    Holds g (g.eraseFacets o kinds) := by
  unfold Game.eraseFacets
  induction kinds generalizing g with
  | nil => exact ⟨h, rfl⟩
  | cons kind rest ih =>
    have hfirst := h.eraseFacet o kind
    exact hfirst.trans (ih hfirst.typed)

theorem Typed.onZones (h : g.Typed) {e : Edit Zones α} {a : α} (hrun : onZones e g = .ok a g') :
    Holds g g' := by
  unfold Game.onZones at hrun
  split at hrun
  · cases hrun
    exact h.rezone _ g.random
  · cases hrun

theorem Typed.insertFrame (h : g.Typed) (depth : Nat) {f : Frame} (hf : f.work.Typed) :
    (g.insertFrame depth f).Typed := by
  refine { h with work := fun f' hf' => ?_ }
  rcases List.mem_append.mp hf' with habove | hbelow
  · exact h.work f' (List.mem_of_mem_take habove)
  · rcases List.mem_cons.mp hbelow with rfl | hbelow
    · exact hf
    · exact h.work f' (List.mem_of_mem_drop hbelow)

theorem weight_insertFrame (g : Game) (depth : Nat) (f : Frame) :
    (g.insertFrame depth f).weight = g.weight + f.work.size := by
  have hall := List.take_append_drop (g.stack.length - depth) g.stack
  unfold weight Game.insertFrame
  conv_rhs => rw [← hall]
  simp only [List.map_append, List.map_cons, List.sum_append, List.sum_cons]
  omega

theorem Typed.withFloating (h : g.Typed) (floating : List FloatingEffect)
    (hfloating : ∀ e ∈ floating, e.modification.change.Typed) : Holds g { g with floating } :=
  ⟨{ h with floating := hfloating }, rfl⟩

theorem change_of_releaseFrom {e e' : FloatingEffect} (h : releaseFrom o e = some e') :
    e'.modification = e.modification := by
  unfold releaseFrom at h
  split at h
  · split at h
    · cases h
    · cases h
      rfl
  · cases h
    rfl

theorem Typed.leaveBattlefield (h : g.Typed) (o : ObjectId) : Holds g (g.leaveBattlefield o) := by
  have herased := h.eraseFacets o permanentFacets
  have hreleased := herased.typed.withFloating
    ((g.eraseFacets o permanentFacets).floating.filterMap (releaseFrom o)) (by
    intro e he
    obtain ⟨e', he', hrelease⟩ := List.mem_filterMap.mp he
    rw [change_of_releaseFrom hrelease]
    exact herased.typed.floating e' he')
  unfold Game.leaveBattlefield
  simp only
  split
  · refine (herased.trans hreleased).trans (hreleased.typed.holds _ _ _ fun o' => ?_)
    have hknown := herased.typed.facets o'
    rw [SortedMap.find?_erase]
    split
    · exact Facets.typed_empty
    · exact hknown
  · exact herased.trans hreleased

end Game

end CardGame
