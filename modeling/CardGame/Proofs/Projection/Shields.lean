import CardGame.Proofs.Projection.ClosedForm
import CardGame.Proofs.Projection.Stages
import Mathlib.Algebra.GroupWithZero.Nat

/-!
How many regeneration shields a projection shows on an object. Each working floating effect that
shields the object counts once, at whichever stage it comes, and nothing else counts: neither
static abilities nor counters bring shields.
-/

namespace CardGame

/-- The regeneration shields that a change adds. -/
def Modification.shields : Modification → Nat
  | .regenerationShield => 1
  | _ => 0

theorem Characteristics.shields_apply (c : Characteristics) (m : Modification) :
    (c.apply m).regenerationShields = c.regenerationShields + m.shields := by
  cases m <;> rfl

variable {rules : Rules} {g : Game} {p : Projection} {o : ObjectId}

/-- The floating effects that shield an object. -/
def Game.shields (g : Game) (o : ObjectId) : List FloatingEffect :=
  g.floating.filter fun e => e.modification.change = .regenerationShield && e.affected.contains o

namespace Projection

/-- The number of shields that a projection shows on an object. -/
def shields? (p : Projection) (o : ObjectId) : Option Nat :=
  (SortedMap.find? p o).map (·.regenerationShields)

theorem shields?_apply (p : Projection) (o' : ObjectId) {m : Modification} (hm : m.shields = 0) :
    (p.apply o' m).shields? o = p.shields? o := by
  unfold shields?
  rw [find?_apply]
  split
  · rw [Option.map_map]
    refine congrArg (Option.map · _) (funext fun c => ?_)
    rw [Function.comp_apply, c.shields_apply, hm, Nat.add_zero]
  · rfl

theorem shields?_applyAll (p : Projection) (os : List ObjectId) {m : Modification}
    (hm : m.shields = 0) : (p.applyAll os m).shields? o = p.shields? o := by
  induction os generalizing p with
  | nil => rfl
  | cons o' rest ih => exact (ih (p.apply o' m)).trans (shields?_apply p o' hm)

theorem shields?_applyCounters (p : Projection) :
    (p.applyCounters g).shields? o = p.shields? o := by
  unfold applyCounters
  induction g.battlefield generalizing p with
  | nil => rfl
  | cons o' rest ih =>
    rw [List.foldl_cons, ih]
    split
    · exact shields?_apply p o' rfl
    · rfl

end Projection

namespace LayerItem

/-- Whether a change of the layer system is a working shield of an object. -/
def isShieldOf (g : Game) (o : ObjectId) (item : LayerItem) : Bool :=
  match item.source with
  | .floating e => g.isActive e &&
      (e.modification.change = .regenerationShield && e.affected.contains o)
  | .ability _ _ => false

theorem shields?_applyAbility (source : ObjectId) (a : StaticAbility) :
    (applyAbility g p source a).shields? o = p.shields? o := by
  unfold applyAbility
  split
  · rfl
  · split
    · exact Projection.shields?_apply p source rfl
    all_goals exact Projection.shields?_applyAll p _ rfl

/-- A change adds a shield if it is one. -/
theorem shields?_apply (item : LayerItem) (p : Projection) :
    (apply g p item).shields? o = (p.shields? o).map (· + (item.isShieldOf g o).toNat) := by
  cases hsource : item.source with
  | ability source a =>
    simp only [apply, isShieldOf, hsource, shields?_applyAbility, Bool.toNat_false, Nat.add_zero]
    exact (congrFun Option.map_id _).symm
  | floating e =>
    simp only [apply, isShieldOf, hsource]
    cases hactive : g.isActive e with
    | false => simp
    | true =>
      have hnodup : e.affected.toList.Nodup := SortedMap.keys_nodup _
      simp only [if_true, Bool.true_and, Projection.shields?,
        Projection.find?_applyAll hnodup, SortedSet.mem_toList_iff]
      cases haffected : e.affected.contains o with
      | false =>
        simp only [Bool.false_eq_true, if_false, Bool.and_false, Bool.toNat_false, Nat.add_zero]
        exact (congrFun Option.map_id _).symm
      | true =>
        rw [if_pos rfl, Option.map_map, Option.map_map]
        refine congrArg (Option.map · _) (funext fun c => ?_)
        rw [Function.comp_apply, Function.comp_apply, c.shields_apply]
        cases e.modification.change <;> rfl

/-- Changes one after the other add the shields among them. -/
theorem shields?_foldl (items : List LayerItem) (p : Projection) :
    (items.foldl (apply g) p).shields? o =
      (p.shields? o).map (· + items.countP (isShieldOf g o)) := by
  induction items generalizing p with
  | nil => simp
  | cons item rest ih =>
    rw [List.foldl_cons, ih, shields?_apply, Option.map_map]
    refine congrArg (Option.map · _) (funext fun n => ?_)
    rw [Function.comp_apply, List.countP_cons, Nat.add_assoc, Nat.add_comm (Bool.toNat _)]
    cases item.isShieldOf g o <;> rfl

/-- What belongs to the last stage is counted there and at no other. -/
theorem sum_countP_stages {q : LayerItem → Bool} {items : List LayerItem}
    (hmarker : ∀ item ∈ items, q item = true → item.stage = .marker) :
    (Stage.all.map fun s => (items.filter (·.stage = s)).countP q).sum = items.countP q := by
  have hcover : ∀ item ∈ items.filter q, item.stage ∈ Stage.all := by
    intro item hitem
    obtain ⟨hmem, hq⟩ := List.mem_filter.mp hitem
    rw [hmarker item hmem hq]
    decide
  rw [List.countP_eq_length_filter, ← sum_countP_classes (by decide) hcover]
  simp only [List.countP_filter, Bool.and_comm]

theorem isShieldOf_of_mem_ofObject {o' : ObjectId} {fs : Facets} {item : LayerItem}
    (h : item ∈ ofObject g o' fs) : item.isShieldOf g o = false := by
  unfold ofObject at h
  split at h
  · cases h
  · obtain ⟨a, -, rfl⟩ := List.mem_map.mp h
    rfl

/-- A shield belongs to the last stage, where floating effects are placed as they should be. -/
theorem stage_of_isShieldOf
    (hplaced : ∀ e ∈ g.floating, e.modification = e.modification.change.placed) :
    ∀ item ∈ all rules g, item.isShieldOf g o = true → item.stage = .marker := by
  intro item hitem hshield
  rcases List.mem_append.mp hitem with hfloating | hability
  · obtain ⟨e, he, rfl⟩ := List.mem_map.mp hfloating
    have hchange : e.modification.change = .regenerationShield := by
      simp only [isShieldOf, ofFloating, Bool.and_eq_true, decide_eq_true_eq] at hshield
      exact hshield.2.1
    change e.modification.stage = .marker
    rw [hplaced e he, hchange]
    rfl
  · split at hability
    · obtain ⟨p, -, hobject⟩ := List.mem_flatMap.mp hability
      rw [isShieldOf_of_mem_ofObject hobject] at hshield
      cases hshield
    · cases hability

/-- Where all shields of an object work, those on offer are the floating ones. -/
theorem countP_isShieldOf_all (rules : Rules) (hactive : ∀ e ∈ g.shields o, g.isActive e = true) :
    (all rules g).countP (isShieldOf g o) = (g.shields o).length := by
  have hability : ∀ entries : List (ObjectId × Facets),
      (entries.flatMap fun p => ofObject g p.1 p.2).countP (isShieldOf g o) = 0 := by
    intro entries
    refine List.countP_eq_zero.mpr fun item hitem hshield => ?_
    obtain ⟨p, -, hobject⟩ := List.mem_flatMap.mp hitem
    rw [isShieldOf_of_mem_ofObject hobject] at hshield
    cases hshield
  have hfloating : (g.floating.map ofFloating).countP (isShieldOf g o) =
      (g.shields o).length := by
    rw [List.countP_map, Game.shields, ← List.countP_eq_length_filter]
    refine List.countP_congr fun e he => ?_
    change (g.isActive e && _) = true ↔ _
    rw [Bool.and_eq_true, and_iff_right_iff_imp]
    exact fun hshield => hactive e (List.mem_filter.mpr ⟨he, hshield⟩)
  unfold all
  rw [List.countP_append, hfloating]
  split
  · rw [hability, Nat.add_zero]
  · rfl

end LayerItem

theorem Projection.shields?_applyStage (items : List LayerItem) (p : Projection) (s : Stage) :
    (p.applyStage g items s).shields? o = (p.shields? o).map
      (· + (items.filter (·.stage = s)).countP (LayerItem.isShieldOf g o)) := by
  have hcount := (LayerItem.inOrder_perm (items.filter (·.stage = s))).countP_eq
    (LayerItem.isShieldOf g o)
  rw [← hcount, ← LayerItem.shields?_foldl]
  unfold applyStage
  split
  · exact shields?_applyCounters _
  · rfl

/-- Where all shields of an object work, and floating effects are placed as they should be, a
projection shows as many shields on it as there are floating effects that shield it. -/
theorem Rules.shields?_project (rules : Rules) (hactive : ∀ e ∈ g.shields o, g.isActive e = true)
    (hplaced : ∀ e ∈ g.floating, e.modification = e.modification.change.placed) :
    (rules.project g).shields? o =
      (Characteristics.base? g o).map fun _ => (g.shields o).length := by
  have hstages (stages : List Stage) (p : Projection) :
      (stages.foldl (Projection.applyStage g (LayerItem.all rules g)) p).shields? o =
        (p.shields? o).map (· + (stages.map fun s =>
          ((LayerItem.all rules g).filter (·.stage = s)).countP
            (LayerItem.isShieldOf g o)).sum) := by
    induction stages generalizing p with
    | nil => simp
    | cons s rest ih =>
      rw [List.foldl_cons, ih, Projection.shields?_applyStage, Option.map_map]
      refine congrArg (Option.map · _) (funext fun n => ?_)
      rw [Function.comp_apply, List.map_cons, List.sum_cons, Nat.add_assoc]
  have hmarker : ∀ item ∈ LayerItem.all rules g, item.isShieldOf g o = true →
      item.stage = .marker := LayerItem.stage_of_isShieldOf hplaced
  unfold project
  rw [hstages, LayerItem.sum_countP_stages hmarker, LayerItem.countP_isShieldOf_all rules hactive]
  unfold Projection.shields?
  rw [Projection.find?_base]
  cases hbase : Characteristics.base? g o with
  | none => rfl
  | some c =>
    obtain ⟨-, hshields⟩ := Characteristics.unmarked_of_base? hbase
    simp [hshields]

end CardGame
