import CardGame.Proofs.Machine.Word
import CardGame.Proofs.Play.Answering
import CardGame.Proofs.Seat
import Mathlib.Algebra.Order.BigOperators.Group.List
import Mathlib.Algebra.Ring.Int.Defs

/-!
Counting objects. Player by player, an amount counts permanents by who controls them, wherever they
lie, and other objects by whose zone they are in. The players are those of the turn order, or some
of them. On the way every object that a filter accepts is met once: the counts of the players add up
to the number of these objects (`View.Census`).
-/

namespace CardGame

/-- Small counts may be added up as amounts. -/
theorem sum_countAsAmount {ns : List Nat} (h : (ns.sum : Int) ≤ maxAmount) :
    (ns.map countAsAmount).sum = ns.sum := by
  induction ns with
  | nil => rfl
  | cons n ns ih =>
    rw [List.sum_cons, Int.natCast_add] at h
    rw [List.map_cons, List.sum_cons, List.sum_cons, Int.natCast_add, ih (by omega),
      countAsAmount_of_le (by omega)]

/-- Whether counts are cut off one by one or in the end makes no difference to the end. -/
theorem min_sum_countAsAmount (ns : List Nat) :
    min (ns.map countAsAmount).sum maxAmount = countAsAmount ns.sum := by
  have hlimit : 0 ≤ maxAmount := by decide
  have hsum (ns : List Nat) : 0 ≤ (ns.map countAsAmount).sum := by
    refine List.sum_nonneg fun x hx => ?_
    obtain ⟨n, -, rfl⟩ := List.mem_map.mp hx
    exact le_min (Int.natCast_nonneg n) hlimit
  induction ns with
  | nil => rfl
  | cons n ns ih =>
    have hrest := hsum ns
    rw [List.map_cons, List.sum_cons, List.sum_cons]
    simp only [countAsAmount] at ih ⊢
    omega

namespace Game

variable {g : Game} {o : ObjectId} {kind : ZoneKind}

/-- The objects that are in zones of a kind, each of them once. -/
def located (g : Game) (kind : ZoneKind) : List ObjectId :=
  g.zones.location.keys.filter (g.zones.isIn · kind)

theorem mem_located_iff : o ∈ g.located kind ↔ ∃ s, g.zone? o = some ⟨s, kind⟩ := by
  rw [located, List.mem_filter, Zones.isIn_iff, SortedMap.mem_keys_iff, SortedMap.contains_iff]
  refine and_iff_right_of_imp ?_
  rintro ⟨s, hzone⟩
  exact ⟨_, hzone⟩

theorem nodup_located (g : Game) (kind : ZoneKind) : (g.located kind).Nodup :=
  (SortedMap.keys_nodup _).filter _

/-- Somebody at the table and the others are all who come in turn order. -/
theorem Housed.turnOrder_perm {s : Seat} (h : g.Housed) (hactive : g.turn.active.index < g.seats)
    (hs : s.index < g.seats) : g.turnOrder.Perm (s :: g.turnOrder.filter (· ≠ s)) := by
  have hmem : s ∈ g.turnOrder := (Seat.mem_turnOrder_iff h.seated hactive).mpr hs
  have hnodup : g.turnOrder.Nodup := Seat.nodup_turnOrder h.seated g.turn.active
  have hothers : g.turnOrder.erase s = g.turnOrder.filter (· ≠ s) := by
    rw [hnodup.erase_eq_filter]
    exact List.filter_congr fun s' _ => by simp [bne, beq_eq_decide]
  exact hothers ▸ List.perm_cons_erase hmem

/-- A walk through the zones of a kind, player by player, comes to all that is in them. -/
theorem Reachable.mem_allOf_iff (h : g.Reachable) :
    o ∈ g.zones.allOf kind ↔ ∃ s, g.zone? o = some ⟨s, kind⟩ := by
  refine ⟨h.sound.housed.zone?_of_mem_allOf, ?_⟩
  rintro ⟨s, hzone⟩
  have hseat : s ∈ Seat.all g.zones.seats := by
    rw [h.seats_zones]
    exact (Seat.mem_all_iff h.sound.housed.seated).mpr (h.furnished.owner_seated hzone)
  exact List.mem_flatMap.mpr ⟨s, hseat, h.sound.housed.consistent.mem_objects_iff.mpr hzone⟩

end Game

namespace View

variable {v : View} {ctx : Context} {zone : ZoneKind} {f : ObjectFilter} {o : ObjectId}

/-- Every permanent has a controller at the table. -/
def Controlled (v : View) : Prop :=
  ∀ o ∈ v.game.battlefield,
    ((v.characteristics? o).bind (·.controller)).any (·.index < v.game.seats) = true

instance (v : View) : Decidable v.Controlled :=
  inferInstanceAs (Decidable (∀ o ∈ v.game.battlefield, _ = true))

/-- The objects in zones of a kind that a filter accepts. -/
def matching (v : View) (ctx : Context) (zone : ZoneKind) (f : ObjectFilter) : List ObjectId :=
  (v.game.located zone).filter (v.accepts f ctx.forFilter)

/-- The player for whom an object in a zone of some kind counts: the controller of a permanent, and
the owner of the zone that anything else is in. -/
def keeper? (v : View) (zone : ZoneKind) (o : ObjectId) : Option Seat :=
  if zone = .battlefield then (v.characteristics? o).bind (·.controller)
  else (v.game.zone? o).map (·.owner)

/-- The number of objects that a filter accepts and that count for a player. -/
def tally (v : View) (ctx : Context) (zone : ZoneKind) (f : ObjectFilter) (s : Seat) : Nat :=
  (v.matching ctx zone f).countP (v.keeper? zone · = some s)

/-- The value of a count of the objects that some players have. -/
def counted (v : View) (ctx : Context) (zone : ZoneKind) (f : ObjectFilter) (sel : Selector) :
    Int :=
  v.evaluate ctx (.measure (.count sel zone f))

theorem controller?_of_onBattlefield (h : v.game.Housed) (hon : v.game.onBattlefield o = true) :
    v.controller? o = (v.characteristics? o).bind (·.controller) := by
  obtain ⟨s, hzone⟩ := Game.onBattlefield_iff.mp hon
  rw [controller?, h.seat?_of_zone? hzone]
  exact if_pos hon

/-- What a player has are the objects that count for that player, each of them once. -/
theorem objectsOf_perm (h : v.game.Reachable) (s : Seat) (zone : ZoneKind) :
    (v.objectsOf s zone).Perm ((v.game.located zone).filter (v.keeper? zone · = some s)) := by
  have hhoused := h.sound.housed
  have hright := (v.game.nodup_located zone).filter (v.keeper? zone · = some s)
  unfold objectsOf
  split
  · have hleft := (hhoused.nodup_allOf .battlefield).filter (v.controller? · = some s)
    refine (List.perm_ext_iff_of_nodup hleft hright).mpr fun o => ?_
    rw [List.mem_filter, List.mem_filter, h.mem_allOf_iff, Game.mem_located_iff]
    refine and_congr_right fun hzone => ?_
    rw [controller?_of_onBattlefield hhoused (Game.onBattlefield_iff.mpr hzone)]
    rfl
  · next hkind =>
    have hleft := hhoused.consistent.nodup_objects ⟨s, zone⟩
    refine (List.perm_ext_iff_of_nodup hleft hright).mpr fun o => ?_
    rw [hhoused.consistent.mem_objects_iff, List.mem_filter, Game.mem_located_iff, keeper?,
      if_neg hkind, decide_eq_true_eq, Option.map_eq_some_iff]
    constructor
    · intro hzone
      exact ⟨⟨s, hzone⟩, _, hzone, rfl⟩
    · rintro ⟨⟨s', hzone⟩, z, hzone', rfl⟩
      cases hzone.symm.trans hzone'
      exact hzone

/-- A count of the objects that some players have is the sum of their tallies. -/
theorem countMatching_eq (h : v.game.Reachable) (ctx : Context) (players : List Seat)
    (zone : ZoneKind) (f : ObjectFilter) :
    v.countMatching ctx players zone f = (players.map (v.tally ctx zone f)).sum := by
  unfold countMatching
  rw [List.length_flatMap]
  refine congrArg List.sum (List.map_congr_left fun s _ => ?_)
  have hperm := (v.objectsOf_perm h s zone).filter (v.accepts f ctx.forFilter)
  rw [select, hperm.length_eq, tally, matching, List.countP_eq_length_filter, List.filter_filter,
    List.filter_filter]
  simp only [Bool.and_comm]

/-- Every object that a filter accepts counts for somebody at the table. -/
theorem exists_keeper (h : v.game.Reachable) (hcontrolled : v.Controlled)
    (hmem : o ∈ v.matching ctx zone f) :
    ∃ s, v.keeper? zone o = some s ∧ s.index < v.game.seats := by
  have hzone := Game.mem_located_iff.mp (List.mem_filter.mp hmem).1
  unfold keeper?
  split
  · next hkind =>
    subst hkind
    have hseated := hcontrolled o (h.mem_allOf_iff.mpr hzone)
    cases hcontroller : (v.characteristics? o).bind (·.controller) with
    | none =>
      rw [hcontroller] at hseated
      cases hseated
    | some s =>
      rw [hcontroller] at hseated
      exact ⟨s, rfl, of_decide_eq_true hseated⟩
  · obtain ⟨s, hzone⟩ := hzone
    exact ⟨s, by rw [hzone]; rfl, h.furnished.owner_seated hzone⟩

/-- The tallies of all players, taken in any order, add up to the number of objects. -/
theorem sum_tally (h : v.game.Reachable) (hcontrolled : v.Controlled) {players : List Seat}
    (hnodup : players.Nodup) (hall : ∀ s : Seat, s.index < v.game.seats → s ∈ players)
    (ctx : Context) (zone : ZoneKind) (f : ObjectFilter) :
    (players.map (v.tally ctx zone f)).sum = (v.matching ctx zone f).length := by
  have hnodup' : (players.map some).Nodup := hnodup.map (Option.some_injective _)
  have hcover (o : ObjectId) (ho : o ∈ v.matching ctx zone f) :
      v.keeper? zone o ∈ players.map some := by
    obtain ⟨s, hkeeper, hseated⟩ := exists_keeper h hcontrolled ho
    exact List.mem_map.mpr ⟨s, hall s hseated, hkeeper.symm⟩
  have hsum := sum_countP_classes hnodup' hcover
  rw [List.map_map] at hsum
  exact hsum

theorem sum_tally_turnOrder (h : v.game.Reachable) (hcontrolled : v.Controlled)
    (hactive : v.game.turn.active.index < v.game.seats) (ctx : Context) (zone : ZoneKind)
    (f : ObjectFilter) :
    (v.game.turnOrder.map (v.tally ctx zone f)).sum = (v.matching ctx zone f).length := by
  have hseats := h.sound.housed.seated
  exact sum_tally h hcontrolled (Seat.nodup_turnOrder hseats _)
    (fun s => (Seat.mem_turnOrder_iff hseats hactive).mpr) ctx zone f

theorem sum_tally_players (h : v.game.Reachable) (hcontrolled : v.Controlled) (ctx : Context)
    (zone : ZoneKind) (f : ObjectFilter) :
    (v.game.players.map (v.tally ctx zone f)).sum = (v.matching ctx zone f).length := by
  have hseats := h.sound.housed.seated
  exact sum_tally h hcontrolled (Seat.nodup_all _) (fun s => (Seat.mem_all_iff hseats).mpr) ctx
    zone f

theorem counted_eq (h : v.game.Reachable) (ctx : Context) (zone : ZoneKind) (f : ObjectFilter)
    (sel : Selector) :
    v.counted ctx zone f sel =
      countAsAmount ((v.players ctx sel).map (v.tally ctx zone f)).sum :=
  congrArg countAsAmount (countMatching_eq h ctx (v.players ctx sel) zone f)

theorem counted_eachPlayer (h : v.game.Reachable) (hcontrolled : v.Controlled)
    (hactive : v.game.turn.active.index < v.game.seats) :
    v.counted ctx zone f .eachPlayer = countAsAmount (v.matching ctx zone f).length := by
  rw [counted_eq h, ← sum_tally_turnOrder h hcontrolled hactive]
  rfl

theorem counted_specific (h : v.game.Reachable) {s : Seat} (hs : s.index < v.game.seats) :
    v.counted ctx zone f (.specific s) = countAsAmount (v.tally ctx zone f s) := by
  have hplayers : v.players ctx (.specific s) = [s] := if_pos hs
  rw [counted_eq h, hplayers, List.map_singleton, List.sum_singleton]

theorem map_counted_specific (h : v.game.Reachable) :
    (v.game.players.map fun s => v.counted ctx zone f (.specific s)) =
      (v.game.players.map (v.tally ctx zone f)).map countAsAmount := by
  rw [List.map_map]
  refine List.map_congr_left fun s hs => ?_
  exact counted_specific h ((Seat.mem_all_iff h.sound.housed.seated).mp hs)

/-- Yours and your opponents' are all, as long as no count is cut off. -/
theorem counted_you_add_eachOpponent (h : v.game.Reachable) (hcontrolled : v.Controlled)
    (hactive : v.game.turn.active.index < v.game.seats)
    (hctx : ctx.controller.index < v.game.seats)
    (hfits : ((v.matching ctx zone f).length : Int) ≤ maxAmount) :
    v.counted ctx zone f .you + v.counted ctx zone f .eachOpponent =
      ((v.matching ctx zone f).length : Int) := by
  let others := v.game.turnOrder.filter (· ≠ ctx.controller)
  have hyou : v.counted ctx zone f .you =
      countAsAmount (v.tally ctx zone f ctx.controller) := by
    rw [counted_eq h]
    rfl
  have hothers : v.counted ctx zone f .eachOpponent =
      countAsAmount (others.map (v.tally ctx zone f)).sum := counted_eq h ctx zone f _
  have hall : v.tally ctx zone f ctx.controller + (others.map (v.tally ctx zone f)).sum =
      (v.matching ctx zone f).length := by
    have hperm := h.sound.housed.turnOrder_perm hactive hctx
    rw [← sum_tally_turnOrder h hcontrolled hactive, (hperm.map _).sum_nat]
    rfl
  rw [hyou, hothers, countAsAmount_of_le (by omega), countAsAmount_of_le (by omega)]
  omega

/-- Counts of the objects in zones of one kind: what is counted for everybody are all objects that
the filter accepts, and for one player those that count for that player. As long as no count is cut
off, yours and your opponents' come to that of everybody, and so do those of the single players. -/
structure Census (v : View) (ctx : Context) (zone : ZoneKind) (f : ObjectFilter) : Prop where
  everybody : v.counted ctx zone f .eachPlayer = countAsAmount (v.matching ctx zone f).length
  player : ∀ s : Seat, s.index < v.game.seats → v.counted ctx zone f (.specific s) =
    countAsAmount ((v.matching ctx zone f).countP (v.keeper? zone · = some s))
  sides : ((v.matching ctx zone f).length : Int) ≤ maxAmount →
    v.counted ctx zone f .you + v.counted ctx zone f .eachOpponent =
      v.counted ctx zone f .eachPlayer
  players : ((v.matching ctx zone f).length : Int) ≤ maxAmount →
    (v.game.players.map fun s => v.counted ctx zone f (.specific s)).sum =
      v.counted ctx zone f .eachPlayer
  cut : min (v.game.players.map fun s => v.counted ctx zone f (.specific s)).sum maxAmount =
    v.counted ctx zone f .eachPlayer

/-- Nothing is missed and nothing is counted twice, whoever has the turn, whoever asks and whatever
the projection shows, if only it shows a controller at the table for every permanent. -/
theorem census_of_controlled (h : v.game.Reachable)
    (hactive : v.game.turn.active.index < v.game.seats)
    (hctx : ctx.controller.index < v.game.seats) (hcontrolled : v.Controlled) (zone : ZoneKind)
    (f : ObjectFilter) : v.Census ctx zone f where
  everybody := counted_eachPlayer h hcontrolled hactive
  player _ hs := counted_specific h hs
  sides hfits := by
    rw [counted_you_add_eachOpponent h hcontrolled hactive hctx hfits,
      counted_eachPlayer h hcontrolled hactive, countAsAmount_of_le hfits]
  players hfits := by
    have hall := sum_tally_players h hcontrolled ctx zone f
    rw [map_counted_specific h, sum_countAsAmount (hall ▸ hfits), hall,
      counted_eachPlayer h hcontrolled hactive, countAsAmount_of_le hfits]
  cut := by
    rw [map_counted_specific h, min_sum_countAsAmount, sum_tally_players h hcontrolled,
      counted_eachPlayer h hcontrolled hactive]

/-- A creature counts for the player who has taken control of it, not for its owner. -/
theorem census_of_stolen_creature : ∃ g₀, Game.start {} = .ok g₀ ∧
    let bear : CardDefinition := .creature ⟨7⟩ "Bear" 2 2
    let g := (Move.execute {} (.continuous (.gainControl (.fixed ⟨3⟩) .permanent)) {}).apply
      ((Move.spawn bear ⟨1⟩ .battlefield).apply ((Move.spawn bear ⟨0⟩ .battlefield).apply g₀))
    let v := Rules.view {} g
    v.Census {} .battlefield .creature ∧ v.game.zone? ⟨3⟩ = some (.battlefield ⟨1⟩) ∧
      v.counted {} .battlefield .creature .you = 2 ∧
      v.counted {} .battlefield .creature .eachOpponent = 0 := by
  refine ⟨_, rfl, ?_, by decide +kernel, by decide +kernel, by decide +kernel⟩
  have hspawned {g : Game} (s : Seat) (hs : s.index < g.seats) (h : g.Reachable) :
      ((Move.spawn (.creature ⟨7⟩ "Bear" 2 2) s .battlefield).apply g).Reachable := .move _ h hs
  have hbears := hspawned ⟨1⟩ Nat.one_lt_two
    (hspawned ⟨0⟩ Nat.zero_lt_two (.start (s := {}) rfl))
  have hstolen := Game.Reachable.move
    (.execute {} (.continuous (.gainControl (.fixed ⟨3⟩) .permanent)) {}) hbears trivial
  exact census_of_controlled hstolen (by decide +kernel) (by decide +kernel) (by decide +kernel) _ _

end View

end CardGame
