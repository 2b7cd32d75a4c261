import CardGame.Proofs.Projection.FaceDown

/-!
Going through the stages. Every change of the layer system comes from a floating effect of the game
or from a card (`LayerItem.Offered`), and what neither these changes nor counters do to an object
the projection does not do (`Rules.find?_project`). Floating effects that are newer than everything
else apply after all else at each stage.
-/

namespace CardGame

variable {rules : Rules} {g : Game} {p : Projection} {o : ObjectId}

namespace LayerItem

/-- Where a change of the layer system comes from: a floating effect of the game, or an ability on
the card of an object. -/
inductive Offered (rules : Rules) (g : Game) : LayerSource → Prop
  | floating (e : FloatingEffect) (he : e ∈ g.floating) : Offered rules g (.floating e)
  | ability (o : ObjectId) (c : Card) (a : StaticAbility) (hrules : rules.staticAbilities = true)
      (hcard : (g.facets o).card? = some c) (ha : a ∈ c.abilities) : Offered rules g (.ability o a)

theorem offered_of_mem_all {item : LayerItem} (hitem : item ∈ all rules g) :
    Offered rules g item.source := by
  rcases List.mem_append.mp hitem with hfloating | hability
  · obtain ⟨e, he, rfl⟩ := List.mem_map.mp hfloating
    exact .floating e he
  · split at hability
    · next hrules =>
      rw [flatMap_entries] at hability
      obtain ⟨o, -, hobject⟩ := List.mem_flatMap.mp hability
      rw [ofObject_eq] at hobject
      obtain ⟨a, ha, rfl⟩ := List.mem_map.mp hobject
      have hprinted := (List.mem_filter.mp ha).1
      cases hcard : (g.facets o).card? with
      | none =>
        rw [hcard] at hprinted
        cases hprinted
      | some c =>
        rw [hcard] at hprinted
        exact .ability o c a hrules hcard hprinted
    · cases hability

theorem mem_of_mem_inOrder {item : LayerItem} {items : List LayerItem}
    (h : item ∈ inOrder items) : item ∈ items := by
  induction items with
  | nil => cases h
  | cons first rest ih =>
    rcases mem_place.mp h with rfl | hrest
    · exact List.mem_cons_self
    · exact List.mem_cons_of_mem _ (ih hrest)

private theorem place_append {x : LayerItem} {ys : List LayerItem} (hys : ∀ y ∈ ys, x.le y = true)
    (xs : List LayerItem) : place x (xs ++ ys) = place x xs ++ ys := by
  induction xs with
  | nil =>
    cases ys with
    | nil => rfl
    | cons y rest => exact if_pos (hys y List.mem_cons_self)
  | cons z rest ih =>
    rw [List.cons_append, place, place]
    split
    · rfl
    · rw [ih, List.cons_append]

private theorem place_after {x : LayerItem} {xs : List LayerItem} (hxs : ∀ y ∈ xs, x.le y = false)
    (ys : List LayerItem) : place x (xs ++ ys) = xs ++ place x ys := by
  induction xs with
  | nil => rfl
  | cons y rest ih =>
    have hnot : ¬ x.le y = true := by simp [hxs y List.mem_cons_self]
    rw [List.cons_append, place, if_neg hnot, ih fun z hz => hxs z (List.mem_cons_of_mem _ hz),
      List.cons_append]

/-- Changes in order that come after all others are the last ones. -/
theorem inOrder_newest {xs news ys : List LayerItem} (hxs : ∀ x ∈ xs, ∀ y ∈ news, x.le y = true)
    (hnews : news.Pairwise fun x y => x.le y = true)
    (hys : ∀ x ∈ news, ∀ y ∈ ys, x.le y = false) :
    inOrder (xs ++ (news ++ ys)) = inOrder (xs ++ ys) ++ news := by
  have hlast : inOrder (news ++ ys) = inOrder ys ++ news := by
    induction news with
    | nil => exact (List.append_nil _).symm
    | cons x rest ih =>
      obtain ⟨hfirst, hrest⟩ := List.pairwise_cons.mp hnews
      have hrest' := ih (fun y hy z hz => hxs y hy z (List.mem_cons_of_mem _ hz)) hrest
        fun y hy => hys y (List.mem_cons_of_mem _ hy)
      have hbefore : ∀ y ∈ inOrder ys, x.le y = false := fun y hy =>
        hys x List.mem_cons_self y (mem_of_mem_inOrder hy)
      rw [List.cons_append, inOrder, hrest', place_after hbefore, ← List.nil_append rest,
        place_append hfirst]
      rfl
  induction xs with
  | nil => exact hlast
  | cons x rest ih =>
    rw [List.cons_append, inOrder, ih fun y hy => hxs y (List.mem_cons_of_mem _ hy),
      place_append (hxs x List.mem_cons_self), List.cons_append, inOrder]

end LayerItem

/-- What neither the changes on offer nor counters do to an object, the projection does not do. -/
theorem Rules.find?_project {α : Type} {F : Option Characteristics → α}
    (hstep : ∀ item ∈ LayerItem.all rules g, ∀ p : Projection,
      F (SortedMap.find? (LayerItem.apply g p item) o) = F (SortedMap.find? p o))
    (hcounters : ∀ p : Projection,
      F (SortedMap.find? (p.applyCounters g) o) = F (SortedMap.find? p o)) :
    F (SortedMap.find? (rules.project g) o) = F (Characteristics.base? g o) := by
  have hfold (items : List LayerItem) (hitems : ∀ item ∈ items, item ∈ LayerItem.all rules g)
      (p : Projection) :
      F (SortedMap.find? (items.foldl (LayerItem.apply g) p) o) = F (SortedMap.find? p o) := by
    induction items generalizing p with
    | nil => rfl
    | cons item rest ih =>
      rw [List.foldl_cons, ih fun item hitem => hitems item (List.mem_cons_of_mem _ hitem),
        hstep item (hitems item List.mem_cons_self)]
  have hstage (p : Projection) (stage : Stage) :
      F (SortedMap.find? (p.applyStage g (LayerItem.all rules g) stage) o) =
        F (SortedMap.find? p o) := by
    have hmem : ∀ item ∈ LayerItem.inOrder ((LayerItem.all rules g).filter (·.stage = stage)),
        item ∈ LayerItem.all rules g := fun item hitem =>
      (List.mem_filter.mp (LayerItem.mem_of_mem_inOrder hitem)).1
    unfold Projection.applyStage
    split
    · rw [hcounters, hfold _ hmem]
    · exact hfold _ hmem p
  rw [← Projection.find?_base]
  unfold Rules.project
  generalize Projection.base g = p
  induction Stage.all generalizing p with
  | nil => rfl
  | cons stage rest ih => rw [List.foldl_cons, ih, hstage]

namespace Projection

theorem isSome_find?_apply (p : Projection) (o' : ObjectId) (m : Modification) :
    (SortedMap.find? (p.apply o' m) o).isSome = (SortedMap.find? p o).isSome := by
  rw [find?_apply]
  split
  · exact Option.isSome_map
  · rfl

theorem isSome_find?_applyAll (p : Projection) (os : List ObjectId) (m : Modification) :
    (SortedMap.find? (p.applyAll os m) o).isSome = (SortedMap.find? p o).isSome := by
  induction os generalizing p with
  | nil => rfl
  | cons o' rest ih => exact (ih (p.apply o' m)).trans (isSome_find?_apply p o' m)

theorem isSome_find?_applyCounters (p : Projection) :
    (SortedMap.find? (p.applyCounters g) o).isSome = (SortedMap.find? p o).isSome := by
  unfold applyCounters
  induction g.battlefield generalizing p with
  | nil => rfl
  | cons o' rest ih =>
    rw [List.foldl_cons, ih]
    split
    · exact isSome_find?_apply p o' _
    · rfl

end Projection

theorem LayerItem.isSome_find?_apply (p : Projection) (item : LayerItem) :
    (SortedMap.find? (LayerItem.apply g p item) o).isSome = (SortedMap.find? p o).isSome := by
  unfold LayerItem.apply LayerItem.applyAbility
  split
  · split
    · exact Projection.isSome_find?_applyAll p _ _
    · rfl
  · split
    · rfl
    · split
      · exact Projection.isSome_find?_apply p _ _
      all_goals exact Projection.isSome_find?_applyAll p _ _

/-- A projection shows the objects that have characteristics. -/
theorem Rules.isSome_find?_project (rules : Rules) (g : Game) (o : ObjectId) :
    (SortedMap.find? (rules.project g) o).isSome = (Characteristics.base? g o).isSome :=
  find?_project (F := Option.isSome) (fun item _ p => item.isSome_find?_apply p)
    Projection.isSome_find?_applyCounters

end CardGame
