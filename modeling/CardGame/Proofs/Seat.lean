import CardGame.Identity
import Mathlib.Data.List.Nodup
import Mathlib.Data.Nat.ModEq

/-!
Walks around the table. At a table of 1 to 255 players the next seat is one further, and the walk
begins again behind the last one. Turn order is a walk once around: it comes to everybody at the
table, the nearest first, and to nobody twice.
-/

namespace CardGame

namespace Seat

variable {s : Seat} {seats : Nat}

theorem next_eq (hsome : 0 < seats) (hseats : seats ≤ 255) (s : Seat) :
    s.next seats = ⟨(s.index + 1) % seats⟩ := by
  have hbelow : (s.index + 1) % seats < seats := Nat.mod_lt _ hsome
  have hbyte : (s.index + 1) % seats % limit = (s.index + 1) % seats :=
    Nat.mod_eq_of_lt (Nat.lt_trans hbelow (Nat.lt_succ_of_le hseats))
  rw [next, hbyte]

theorem next_lt (hsome : 0 < seats) (hseats : seats ≤ 255) (s : Seat) :
    (s.next seats).index < seats := by
  rw [next_eq hsome hseats]
  exact Nat.mod_lt _ hsome

theorem length_walk (seats steps : Nat) (s : Seat) : (walk seats steps s).length = steps := by
  induction steps generalizing s with
  | zero => rfl
  | succ steps ih => rw [walk, List.length_cons, ih]

theorem walk_eq (hseats : seats ≤ 255) (hs : s.index < seats) (n : Nat) :
    walk seats n s = (List.range n).map fun k => ⟨(s.index + k) % seats⟩ := by
  induction n generalizing s with
  | zero => rfl
  | succ n ih =>
    have hsome : 0 < seats := by omega
    have hnext := next_eq hsome hseats s
    have hbelow := next_lt hsome hseats s
    have hfirst : (s.index + 0) % seats = s.index := Nat.mod_eq_of_lt hs
    rw [walk, ih hbelow, hnext, List.range_succ_eq_map, List.map_cons, List.map_map, hfirst]
    congr 1
    refine List.map_congr_left fun k _ => ?_
    simp only [Function.comp_apply, Nat.mod_add_mod, Nat.succ_eq_add_one]
    congr 2
    omega

theorem mem_all_iff (hseats : seats ≤ 255) : s ∈ all seats ↔ s.index < seats := by
  have hmod : seats % limit = seats := Nat.mod_eq_of_lt (by simp only [limit]; omega)
  obtain ⟨i⟩ := s
  simp [all, hmod]

theorem nodup_all (seats : Nat) : (all seats).Nodup :=
  List.nodup_range.map fun _ _ h => congrArg Seat.index h

/-- A walk once around the table comes to nobody twice. -/
theorem nodup_walk (hseats : seats ≤ 255) (hs : s.index < seats) {n : Nat} (hn : n ≤ seats) :
    (walk seats n s).Nodup := by
  rw [walk_eq hseats hs, List.nodup_map_iff_inj_on List.nodup_range]
  intro i hi j hj heq
  have hi' := List.mem_range.mp hi
  have hj' := List.mem_range.mp hj
  have hmod : (s.index + i) % seats = (s.index + j) % seats := congrArg Seat.index heq
  have hsame : i % seats = j % seats := Nat.ModEq.add_left_cancel' s.index hmod
  rwa [Nat.mod_eq_of_lt (by omega), Nat.mod_eq_of_lt (by omega)] at hsame

/-- In turn order nobody comes twice, not even when it is the turn of nobody at the table. -/
theorem nodup_turnOrder (hseats : seats ≤ 255) (active : Seat) :
    (turnOrder active seats).Nodup := by
  unfold turnOrder
  by_cases hactive : active.index < seats
  · exact nodup_walk hseats hactive (Nat.le_refl _)
  · cases seats with
    | zero => exact List.nodup_nil
    | succ n =>
      have hnext := next_lt (Nat.succ_pos n) hseats active
      rw [walk, List.nodup_cons]
      refine ⟨fun hmem => ?_, nodup_walk hseats hnext (Nat.le_succ n)⟩
      rw [walk_eq hseats hnext] at hmem
      obtain ⟨k, -, hsame⟩ := List.mem_map.mp hmem
      rw [← hsame] at hactive
      exact hactive (Nat.mod_lt _ (Nat.succ_pos n))

/-- How many seats further than another a seat is. -/
def stepsFrom (active : Seat) (seats : Nat) (s : Seat) : Nat :=
  (s.index + seats - active.index) % seats

/-- The seats of the table come in turn order, the nearest to the active one first. -/
theorem pairwise_turnOrder {active : Seat} (hseats : seats ≤ 255) (hactive : active.index < seats) :
    (turnOrder active seats).Pairwise fun s s' =>
      active.stepsFrom seats s < active.stepsFrom seats s' := by
  have hsteps (k : Nat) (hk : k < seats) :
      active.stepsFrom seats ⟨(active.index + k) % seats⟩ = k := by
    have hback : (active.index + k) % seats + seats - active.index =
        (active.index + k) % seats + (seats - active.index) := by omega
    have haround : active.index + k + (seats - active.index) = k + seats := by omega
    rw [stepsFrom, hback, Nat.mod_add_mod, haround, Nat.add_mod_right, Nat.mod_eq_of_lt hk]
  rw [turnOrder, walk_eq hseats hactive, List.pairwise_map]
  refine List.pairwise_lt_range.imp_of_mem ?_
  intro i j hi hj hlt
  rwa [hsteps i (List.mem_range.mp hi), hsteps j (List.mem_range.mp hj)]

/-- Turn order comes to everybody at the table, if it begins there. -/
theorem mem_turnOrder_iff {active : Seat} (hseats : seats ≤ 255) (hactive : active.index < seats) :
    s ∈ turnOrder active seats ↔ s.index < seats := by
  have hsome : 0 < seats := by omega
  rw [turnOrder, walk_eq hseats hactive, List.mem_map]
  constructor
  · rintro ⟨k, -, rfl⟩
    exact Nat.mod_lt _ hsome
  · intro hs
    refine ⟨active.stepsFrom seats s, List.mem_range.mpr (Nat.mod_lt _ hsome), ?_⟩
    have haround : active.index + (s.index + seats - active.index) = s.index + seats := by omega
    rw [stepsFrom, Nat.add_mod_mod, haround, Nat.add_mod_right, Nat.mod_eq_of_lt hs]

theorem mem_inTurnOrder_iff {players : List Seat} {active : Seat} (hseats : seats ≤ 255)
    (hactive : active.index < seats) :
    s ∈ inTurnOrder players active seats ↔ s ∈ players ∧ s.index < seats := by
  rw [inTurnOrder, List.mem_filter, mem_turnOrder_iff hseats hactive, and_comm,
    List.contains_iff_mem]

theorem length_inTurnOrder (players : List Seat) (active : Seat) (seats : Nat) :
    (inTurnOrder players active seats).length ≤ seats := by
  have hfilter := List.length_filter_le (players.contains ·) (turnOrder active seats)
  rw [turnOrder, length_walk] at hfilter
  exact hfilter

end Seat

end CardGame
