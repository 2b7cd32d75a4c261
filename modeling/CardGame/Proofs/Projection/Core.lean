import CardGame.Proofs.Game.Core
import CardGame.Proofs.Projection.Alike
import CardGame.Resolve.Effect

/-!
Views show the core of a game. What a view answers does not depend on suspended work, nor on spent
floating effects, which apply nothing; so the view of a core answers as the view of the whole game.
-/

namespace CardGame

theorem Game.alike_core (g : Game) (b : Bool) : (g.core b).Alike g :=
  ⟨rfl, rfl, rfl, fun _ _ _ => rfl, fun _ => rfl⟩

namespace View

/-- The same view of the core of its game. -/
def core (b : Bool) (v : View) : View := { v with game := v.game.core b }

variable {b : Bool} {v : View}

theorem alike_core : (v.core b).Alike v := ⟨v.game.alike_core b, rfl, rfl⟩

@[simp] theorem game_core : (v.core b).game = v.game.core b := rfl

@[simp] theorem select_core : (v.core b).select = v.select := alike_core.select

@[simp] theorem permanents_core : (v.core b).permanents = v.permanents := alike_core.permanents

@[simp] theorem players_core : (v.core b).players = v.players := rfl

@[simp] theorem evaluate_core : (v.core b).evaluate = v.evaluate := alike_core.evaluate

@[simp] theorem holds_core : (v.core b).holds = v.holds := alike_core.holds

@[simp] theorem evaluateCount_core : (v.core b).evaluateCount = v.evaluateCount := by
  funext ctx a
  simp only [evaluateCount, evaluate_core]

@[simp] theorem targetablePermanents_core :
    (v.core b).targetablePermanents = v.targetablePermanents := by
  funext ctx f
  rw [targetablePermanents, permanents_core]
  rfl

theorem candidates_core (ctx : Context) (r : Requirement) :
    (v.core b).candidates ctx r = v.candidates ctx r := by
  induction r with
  | otherThan r excluded ih => rw [candidates, candidates, ih]
  | creature f =>
    simp only [candidates, targetablePermanents_core]
    rfl
  | permanent f => simp only [candidates, targetablePermanents_core]
  | player f => rfl
  | cardInZone zone f =>
    simp only [candidates, select_core]
    rfl
  | spell f =>
    simp only [candidates, select_core]
    rfl
  | anyTarget =>
    simp only [candidates, targetablePermanents_core]
    rfl

@[simp] theorem legalTargets_core : (v.core b).legalTargets = v.legalTargets := by
  funext ctx r
  simp only [legalTargets, candidates_core]

end View

namespace LayerItem

theorem le_total (x y : LayerItem) : x.le y = true ∨ y.le x = true := by
  unfold le
  cases x.defining <;> cases y.defining <;> simp [Nat.le_total]

theorem le_trans {x y z : LayerItem} (hxy : x.le y = true) (hyz : y.le z = true) :
    x.le z = true := by
  unfold le at *
  cases hx : x.defining <;> cases hy : y.defining <;> cases hz : z.defining <;>
    simp_all <;> omega

theorem mem_place {x y : LayerItem} {xs : List LayerItem} :
    y ∈ place x xs ↔ y = x ∨ y ∈ xs := by
  induction xs with
  | nil => simp [place]
  | cons z rest ih =>
    unfold place
    split
    · simp
    · simp only [List.mem_cons, ih]
      exact or_left_comm

theorem place_perm (a : LayerItem) (xs : List LayerItem) : (place a xs).Perm (a :: xs) := by
  induction xs with
  | nil => exact .refl _
  | cons b rest ih =>
    unfold place
    split
    · exact .refl _
    · exact (ih.cons b).trans (.swap a b rest)

theorem inOrder_perm (xs : List LayerItem) : (inOrder xs).Perm xs := by
  induction xs with
  | nil => exact .refl _
  | cons a rest ih => exact (place_perm a _).trans (ih.cons a)

/-- A change put in its place keeps the order. -/
theorem place_sorted {x : LayerItem} {xs : List LayerItem}
    (hsorted : xs.Pairwise fun y z => y.le z = true) :
    (place x xs).Pairwise fun y z => y.le z = true := by
  induction xs with
  | nil => exact List.pairwise_singleton _ _
  | cons y rest ih =>
    obtain ⟨hfirst, hrest⟩ := List.pairwise_cons.mp hsorted
    unfold place
    split
    · next hle =>
      refine List.pairwise_cons.mpr ⟨fun z hz => ?_, hsorted⟩
      rcases List.mem_cons.mp hz with rfl | hz
      · exact hle
      · exact le_trans hle (hfirst z hz)
    · next hnot =>
      refine List.pairwise_cons.mpr ⟨fun z hz => ?_, ih hrest⟩
      rcases mem_place.mp hz with rfl | hz
      · exact (le_total y z).resolve_right hnot
      · exact hfirst z hz

theorem inOrder_sorted (xs : List LayerItem) :
    (inOrder xs).Pairwise fun x y => x.le y = true := by
  induction xs with
  | nil => exact List.Pairwise.nil
  | cons x rest ih => exact place_sorted ih

private theorem place_of_first {x : LayerItem} {xs : List LayerItem}
    (hfirst : ∀ y ∈ xs, x.le y = true) : place x xs = x :: xs := by
  cases xs with
  | nil => rfl
  | cons y rest => rw [place, if_pos (hfirst y List.mem_cons_self)]

private theorem filter_place (keep : LayerItem → Bool) {x : LayerItem} {xs : List LayerItem}
    (hsorted : xs.Pairwise fun y z => y.le z = true) :
    (place x xs).filter keep =
      if keep x then place x (xs.filter keep) else xs.filter keep := by
  induction xs with
  | nil => cases hkeep : keep x <;> simp [place, hkeep]
  | cons y rest ih =>
    obtain ⟨hfirst, hrest⟩ := List.pairwise_cons.mp hsorted
    by_cases hle : x.le y = true
    · rw [place, if_pos hle, List.filter_cons]
      -- what is kept of the rest still comes after the new change
      have hafter : ∀ z ∈ (y :: rest).filter keep, x.le z = true := by
        intro z hz
        rcases List.mem_cons.mp (List.mem_filter.mp hz).1 with rfl | hz
        · exact hle
        · exact le_trans hle (hfirst z hz)
      rw [place_of_first hafter]
    · rw [place, if_neg hle, List.filter_cons, ih hrest, List.filter_cons]
      cases hkeep : keep x <;> cases hy : keep y <;> simp [place, hle]

/-- Leaving changes out before or after they are put in order comes to the same. -/
theorem inOrder_filter (keep : LayerItem → Bool) (xs : List LayerItem) :
    inOrder (xs.filter keep) = (inOrder xs).filter keep := by
  induction xs with
  | nil => rfl
  | cons x rest ih =>
    rw [inOrder, filter_place keep (inOrder_sorted rest), List.filter_cons]
    split
    · rw [inOrder, ih]
    · exact ih

variable {g h : Game} {keep : FloatingEffect → Bool}

/-- Whether a change is still offered when the floating effects end that are not kept. -/
def remains (keep : FloatingEffect → Bool) (item : LayerItem) : Bool :=
  match item.source with
  | .floating e => keep e
  | .ability _ _ => true

theorem all_filter (rules : Rules) (halike : h.Alike g) (hobjects : h.objects = g.objects)
    (hfloating : h.floating = g.floating.filter keep) :
    all rules h = (all rules g).filter (remains keep) := by
  have habilities (o : ObjectId) (fs : Facets) :
      (ofObject g o fs).filter (remains keep) = ofObject h o fs := by
    unfold ofObject
    rw [halike.onBattlefield, List.filter_eq_self]
    intro item hitem
    split at hitem
    · cases hitem
    · obtain ⟨a, -, rfl⟩ := List.mem_map.mp hitem
      rfl
  have heffects : h.floating.map ofFloating =
      (g.floating.map ofFloating).filter (remains keep) := by
    rw [hfloating, List.filter_map]
    rfl
  unfold all
  rw [List.filter_append, heffects, hobjects]
  congr 1
  split
  · rw [List.filter_flatMap]
    simp only [habilities]
  · rfl

/-- A change that is offered no longer changes nothing, if only effects end that do not work. -/
theorem apply_of_not_remains (hidle : ∀ e, keep e = false → g.isActive e = false)
    {item : LayerItem} (hout : remains keep item = false) (p : Projection) :
    apply g p item = p := by
  unfold remains at hout
  unfold apply
  cases hsource : item.source with
  | ability source a =>
    rw [hsource] at hout
    cases hout
  | floating e =>
    rw [hsource] at hout
    have hinactive : g.isActive e = false := hidle e hout
    simp [hinactive]

private theorem foldl_apply_filter (hidle : ∀ e, keep e = false → g.isActive e = false)
    (xs : List LayerItem) (p : Projection) :
    (xs.filter (remains keep)).foldl (apply g) p = xs.foldl (apply g) p := by
  induction xs generalizing p with
  | nil => rfl
  | cons item rest ih =>
    cases hin : remains keep item with
    | true => simp [hin, ih]
    | false => simp [hin, ih, apply_of_not_remains hidle hin]

end LayerItem

variable {b : Bool} {g h : Game} {keep : FloatingEffect → Bool}

theorem Projection.applyStage_filter (halike : h.Alike g)
    (hidle : ∀ e, keep e = false → g.isActive e = false) (items : List LayerItem) (p : Projection)
    (stage : Stage) :
    applyStage h (items.filter (LayerItem.remains keep)) p stage = applyStage g items p stage := by
  have hitems : (items.filter (LayerItem.remains keep)).filter (·.stage = stage) =
      (items.filter (·.stage = stage)).filter (LayerItem.remains keep) := by
    simp only [List.filter_filter, Bool.and_comm]
  rw [halike.applyStage]
  unfold applyStage
  rw [hitems, LayerItem.inOrder_filter, LayerItem.foldl_apply_filter hidle]

/-- Characteristics stay as they are when floating effects end that do not work. -/
theorem Rules.project_filter (rules : Rules) (halike : h.Alike g) (hobjects : h.objects = g.objects)
    (hfloating : h.floating = g.floating.filter keep)
    (hidle : ∀ e, keep e = false → g.isActive e = false) : rules.project h = rules.project g := by
  have hbase : Projection.base h = Projection.base g := by
    unfold Projection.base
    rw [hobjects, funext halike.base?]
  unfold project
  rw [LayerItem.all_filter rules halike hobjects hfloating, hbase]
  congr 1
  funext p stage
  exact Projection.applyStage_filter halike hidle _ p stage

/-- An effect that has run out of turns does not work. -/
theorem Game.isActive_of_isSpent {e : FloatingEffect} (hspent : e.isSpent = true) :
    g.isActive e = false := by
  have hturns : e.duration = .forTurns 0 ∧ e.modification.change ≠ .regenerationShield := by
    simpa [FloatingEffect.isSpent] using hspent
  simp [isActive, hturns.1]

/-- Characteristics depend on the core of a game only. -/
@[simp] theorem Rules.project_core (rules : Rules) :
    rules.project (g.core b) = rules.project g := by
  refine rules.project_filter (g.alike_core b) rfl rfl fun e hout => ?_
  have hspent : b = true ∧ e.isSpent = true := by simpa using hout
  exact Game.isActive_of_isSpent hspent.2

@[simp] theorem Rules.view_core (rules : Rules) :
    rules.view (g.core b) = (rules.view g).core b := by
  unfold Rules.view View.core
  rw [Rules.project_core]

end CardGame
