import CardGame.Proofs.Collection
import CardGame.Proofs.Projection.Core

/-!
Who controls an object in a projection. Only floating effects that are active change who controls
what: static abilities and counters do not. So the controller depends on the objects of the game and
on its active floating effects, and not on the rules.
-/

namespace CardGame

/-- What a change makes of an object's controller. -/
def Modification.controller (m : Modification) (s : Option Seat) : Option Seat :=
  match m with
  | .changeController seat => some seat
  | _ => s

theorem Characteristics.controller_apply (c : Characteristics) (m : Modification) :
    (c.apply m).controller = m.controller c.controller := by
  cases m <;> rfl

/-- The characteristics of an object come from what is known about it. -/
theorem Characteristics.base?_congr {g g' : Game} {o : ObjectId} (hseats : g'.seats = g.seats)
    (hfacets : g'.facets o = g.facets o) : base? g' o = base? g o := by
  have howner : g'.owner? o = g.owner? o := by
    rw [Game.owner?, Game.owner?, Game.seat?, Game.seat?, hseats, hfacets]
  have hcontroller : g'.baseController? o = g.baseController? o := by
    rw [Game.baseController?, Game.baseController?, hfacets, howner]
  have hfaceDown : g'.has o .faceDown = g.has o .faceDown := by
    rw [Game.has, Game.has, hfacets]
  rw [base?, base?, hfacets, howner, hcontroller, hfaceDown]

namespace Projection

variable {p q : Projection} {o : ObjectId} {m : Modification}

/-- The base shows the characteristics of an object apart from continuous effects. -/
theorem find?_base (g : Game) (o : ObjectId) :
    SortedMap.find? (base g) o = Characteristics.base? g o := by
  rw [base, SortedMap.find?_choose]
  cases hfind : g.objects.find? o with
  | none =>
    have hfacets : g.facets o = .empty := by rw [Game.facets, hfind, Option.getD_none]
    rw [Characteristics.base?, hfacets]
    rfl
  | some fs => rfl

theorem find?_apply (p : Projection) (o o' : ObjectId) (m : Modification) :
    SortedMap.find? (p.apply o m) o' =
      if o' = o then (SortedMap.find? p o').map (·.apply m) else SortedMap.find? p o' :=
  SortedMap.find?_modify _ _ _ _

/-- The controller of an object, if the projection shows the object at all. -/
def holder? (p : Projection) (o : ObjectId) : Option (Option Seat) :=
  (SortedMap.find? p o).map (·.controller)

theorem controller?_eq_join (p : Projection) (o : ObjectId) :
    p.controller? o = (p.holder? o).join := by
  unfold controller? holder?
  cases SortedMap.find? p o <;> rfl

theorem holder?_apply (o' : ObjectId) :
    (p.apply o' m).holder? o = if o = o' then (p.holder? o).map m.controller else p.holder? o := by
  unfold holder?
  rw [find?_apply]
  split
  · simp only [Option.map_map]
    congr 1
    funext c
    exact c.controller_apply m
  · rfl

/-- Where an object has the same controller, a change gives it the same one. -/
theorem holder?_applyAll_congr (h : p.holder? o = q.holder? o) (os : List ObjectId) :
    (p.applyAll os m).holder? o = (q.applyAll os m).holder? o := by
  induction os generalizing p q with
  | nil => exact h
  | cons o' rest ih => exact ih (by rw [holder?_apply, holder?_apply, h])

/-- A change of another kind leaves controllers alone. -/
theorem holder?_applyAll (hm : m.controller = id) (os : List ObjectId) :
    (p.applyAll os m).holder? o = p.holder? o := by
  induction os generalizing p with
  | nil => rfl
  | cons o' rest ih =>
    change ((p.apply o' m).applyAll rest m).holder? o = p.holder? o
    rw [ih, holder?_apply, hm, Option.map_id]
    exact ite_self _

theorem holder?_applyAll_eq_none (h : p.holder? o = none) (os : List ObjectId) :
    (p.applyAll os m).holder? o = none := by
  induction os generalizing p with
  | nil => exact h
  | cons o' rest ih =>
    refine ih ?_
    rw [holder?_apply, h, Option.map_none]
    exact ite_self _

theorem holder?_applyCounters (g : Game) : (p.applyCounters g).holder? o = p.holder? o := by
  unfold applyCounters
  induction g.battlefield generalizing p with
  | nil => rfl
  | cons o' rest ih =>
    rw [List.foldl_cons, ih]
    split
    · exact holder?_applyAll rfl [o']
    · rfl

end Projection

namespace LayerItem

variable {g : Game} {p q : Projection} {o : ObjectId}

theorem holder?_applyAbility (source : ObjectId) (a : StaticAbility) :
    (applyAbility g p source a).holder? o = p.holder? o := by
  unfold applyAbility
  split
  · rfl
  · cases a with
    | definePowerToughness power toughness => exact Projection.holder?_applyAll rfl [source]
    | _ => exact Projection.holder?_applyAll rfl _

/-- Whether a change may change who controls an object: whether it is of an active floating
effect. -/
def mayClaim (g : Game) (item : LayerItem) : Bool :=
  match item.source with
  | .floating e => g.isActive e
  | .ability _ _ => false

/-- Applies a change of a floating effect, active or not. -/
def claim (p : Projection) (item : LayerItem) : Projection :=
  match item.source with
  | .floating e => p.applyAll e.affected.toList e.modification.change
  | .ability _ _ => p

theorem holder?_foldl_claim_eq_none (h : p.holder? o = none) (items : List LayerItem) :
    (items.foldl claim p).holder? o = none := by
  induction items generalizing p with
  | nil => exact h
  | cons item rest ih =>
    refine ih ?_
    unfold claim
    split
    · exact Projection.holder?_applyAll_eq_none h _
    · exact h

/-- Controllers come from the changes of active floating effects. -/
theorem holder?_foldl (h : p.holder? o = q.holder? o) (items : List LayerItem) :
    (items.foldl (apply g) p).holder? o =
      ((items.filter (mayClaim g)).foldl claim q).holder? o := by
  induction items generalizing p q with
  | nil => exact h
  | cons item rest ih =>
    rw [List.foldl_cons, List.filter_cons]
    cases hsource : item.source with
    | ability source a =>
      have hout : mayClaim g item = false := by simp only [mayClaim, hsource]
      have hstays : (apply g p item).holder? o = q.holder? o := by
        simp only [apply, hsource, holder?_applyAbility, h]
      simp only [hout, Bool.false_eq_true, if_false]
      exact ih hstays
    | floating e =>
      cases hactive : g.isActive e with
      | false =>
        have hout : mayClaim g item = false := by simp only [mayClaim, hsource, hactive]
        have hstays : (apply g p item).holder? o = q.holder? o := by
          simp only [apply, hsource, hactive, Bool.false_eq_true, if_false, h]
        simp only [hout, Bool.false_eq_true, if_false]
        exact ih hstays
      | true =>
        have hin : mayClaim g item = true := by simp only [mayClaim, hsource, hactive]
        have hclaimed : (apply g p item).holder? o = (claim q item).holder? o := by
          simp only [apply, claim, hsource, hactive, if_true]
          exact Projection.holder?_applyAll_congr h _
        simp only [hin, if_true, List.foldl_cons]
        exact ih hclaimed

theorem filter_mayClaim_all (rules : Rules) :
    (all rules g).filter (mayClaim g) = (g.floating.filter g.isActive).map ofFloating := by
  have habilities (o : ObjectId) (fs : Facets) : (ofObject g o fs).filter (mayClaim g) = [] := by
    rw [List.filter_eq_nil_iff]
    unfold ofObject
    intro item hitem
    split at hitem
    · cases hitem
    · obtain ⟨a, -, rfl⟩ := List.mem_map.mp hitem
      simp [mayClaim]
  have hfloating : (g.floating.map ofFloating).filter (mayClaim g) =
      (g.floating.filter g.isActive).map ofFloating := by
    rw [List.filter_map]
    rfl
  unfold all
  rw [List.filter_append, hfloating]
  split
  · rw [List.filter_flatMap]
    simp [habilities]
  · simp

end LayerItem

/-- Goes through the stages with the changes of some floating effects only. -/
def Projection.claimed (fs : List FloatingEffect) (p : Projection) : Projection :=
  Stage.all.foldl (fun p stage =>
    (LayerItem.inOrder ((fs.map LayerItem.ofFloating).filter (·.stage = stage))).foldl
      LayerItem.claim p) p

theorem Projection.holder?_claimed_eq_none {p : Projection} {o : ObjectId}
    (h : p.holder? o = none) (fs : List FloatingEffect) : (p.claimed fs).holder? o = none := by
  unfold claimed
  induction Stage.all generalizing p with
  | nil => exact h
  | cons stage rest ih => exact ih (LayerItem.holder?_foldl_claim_eq_none h _)

namespace Rules

variable {g g' : Game} {o : ObjectId} {rules rules' : Rules}

private theorem holder?_applyStage (items : List LayerItem) {p q : Projection}
    (h : p.holder? o = q.holder? o) (stage : Stage) :
    (Projection.applyStage g items p stage).holder? o =
      ((LayerItem.inOrder ((items.filter (LayerItem.mayClaim g)).filter
        (·.stage = stage))).foldl LayerItem.claim q).holder? o := by
  have hitems : (items.filter (LayerItem.mayClaim g)).filter (·.stage = stage) =
      (items.filter (·.stage = stage)).filter (LayerItem.mayClaim g) := by
    simp only [List.filter_filter, Bool.and_comm]
  rw [hitems, LayerItem.inOrder_filter, ← LayerItem.holder?_foldl h]
  unfold Projection.applyStage
  split
  · exact Projection.holder?_applyCounters g
  · rfl

/-- Controllers in a projection are those of the base with the active floating effects. -/
theorem holder?_project (rules : Rules) (g : Game) {q : Projection}
    (h : (Projection.base g).holder? o = q.holder? o) :
    (rules.project g).holder? o = (q.claimed (g.floating.filter g.isActive)).holder? o := by
  unfold project Projection.claimed
  rw [← LayerItem.filter_mayClaim_all rules]
  generalize Projection.base g = p at h ⊢
  induction Stage.all generalizing p q with
  | nil => exact h
  | cons stage rest ih => exact ih _ (holder?_applyStage _ h stage)

theorem holder?_base_eq_none (h : g.contains o = false) : (Projection.base g).holder? o = none := by
  have hmissing : g.objects.find? o = none := by
    cases hfind : g.objects.find? o with
    | none => rfl
    | some fs =>
      have hcontains : g.contains o = true := SortedMap.contains_iff.mpr ⟨fs, hfind⟩
      rw [h] at hcontains
      cases hcontains
  unfold Projection.holder? Projection.base
  rw [SortedMap.find?_choose, hmissing]
  rfl

/-- Only what exists is controlled. -/
theorem contains_of_controller? {s : Seat} (h : (rules.project g).controller? o = some s) :
    g.contains o = true := by
  cases hcontains : g.contains o with
  | true => rfl
  | false =>
    have hnone := holder?_base_eq_none hcontains
    rw [Projection.controller?_eq_join, holder?_project rules g rfl,
      Projection.holder?_claimed_eq_none hnone] at h
    cases h

/-- An object has the same controller in two games in which it is the same and the same floating
effects are active, whatever the rules. -/
theorem controller?_project_congr
    (hbase : (Characteristics.base? g' o).map (·.controller) =
      (Characteristics.base? g o).map (·.controller))
    (hactive : g'.floating.filter g'.isActive = g.floating.filter g.isActive) :
    (rules'.project g').controller? o = (rules.project g).controller? o := by
  have hholder (g : Game) : (Projection.base g).holder? o =
      (Characteristics.base? g o).map (·.controller) := by
    rw [Projection.holder?, Projection.find?_base]
  have hsame : (Projection.base g').holder? o = (Projection.base g).holder? o := by
    rw [hholder, hholder, hbase]
  rw [Projection.controller?_eq_join, Projection.controller?_eq_join,
    holder?_project rules' g' hsame, holder?_project rules g rfl, hactive]

end Rules

end CardGame
