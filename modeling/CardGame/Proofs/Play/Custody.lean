import CardGame.Proofs.Play.Reachable

/-!
Where the cards are. At every reachable game each object is listed once, in the zone where it is
located and which its owner owns, and players are in no zone. Executing and resuming neither add nor
lose a card: only tokens come and go.
-/

namespace CardGame

namespace Game

variable {g : Game}

/-- Every card and token is in its place, and every player is at the table. -/
structure InCustody (g : Game) : Prop where
  listed : ∀ o z, (g.zones.objects z).count o = if g.zone? o = some z then 1 else 0
  located : ∀ o, (∃ z, g.zone? o = some z) ↔ g.contains o = true ∧ g.seats ≤ o.val
  players : ∀ o : ObjectId, o.val < g.seats → g.contains o = true ∧ g.zone? o = none
  owned : ∀ o z, g.zone? o = some z → (g.facets o).owner? = some z.owner
  numbered : ∀ o, g.contains o = true → o.val < g.nextObject

theorem Housed.seat?_eq_none_iff (h : g.Housed) (o : ObjectId) :
    g.seat? o = none ↔ g.seats ≤ o.val := by
  rw [seat?, ObjectId.seat?_eq_none_iff, ObjectId.firstObject_eq h.seated]

theorem Housed.custody (h : g.Housed) : g.InCustody := by
  have hlocated (o : ObjectId) :
      (∃ z, g.zone? o = some z) ↔ g.contains o = true ∧ g.seats ≤ o.val := by
    rw [h.located, h.seat?_eq_none_iff]
  refine ⟨h.consistent.count_objects, hlocated, fun o ho => ⟨?_, ?_⟩, fun _ _ => h.owned,
    fun _ => h.fresh⟩
  · exact h.players (s := ⟨o.val⟩) ho
  · cases hzone : g.zone? o with
    | none => rfl
    | some z =>
      have hle := ((hlocated o).mp ⟨z, hzone⟩).2
      omega

end Game

theorem Result.Proper.isNontoken {before : Game} {r : Result} (h : r.Proper before) (o : ObjectId) :
    r.game.isNontoken o = before.isNontoken o := by
  cases r with
  | success g es => exact h.2.2.2 o
  | paused g d es => exact h.2.2.2 o
  | failed g failure => exact congrArg (Game.isNontoken · o) h

/-- At every reachable game every object is in its place, and whatever executing or resuming from
there comes to, the same cards and players exist as before. -/
theorem Game.Reachable.inCustody {g : Game} (h : g.Reachable) :
    g.InCustody ∧ ∀ rules : Rules,
      (∀ e ctx o, (rules.execute g e ctx).game.isNontoken o = g.isNontoken o) ∧
      ∀ r o, (rules.resume g r).game.isNontoken o = g.isNontoken o := by
  refine ⟨h.sound.housed.custody, fun rules => ⟨fun e ctx => ?_, fun r => ?_⟩⟩
  · exact (rules.proper_execute h.sound h.poised e ctx).isNontoken
  · exact (rules.proper_resume h.sound h.poised r).isNontoken

/-- A creature that is destroyed lies in its owner's graveyard and nowhere else. -/
theorem Game.inCustody_of_destroyed : ∃ g₀ g, start {} = .ok g₀ ∧
    g = (Move.execute {} .destroyTarget { targets := [⟨2⟩] }).apply
      ((Move.spawn (.creature ⟨7⟩ "Bear" 2 2) ⟨1⟩ .battlefield).apply g₀) ∧
    g.zone? ⟨2⟩ = some ⟨⟨1⟩, .graveyard⟩ ∧ g.InCustody ∧
      ∀ rules e ctx o, (Rules.execute rules g e ctx).game.isNontoken o = g.isNontoken o := by
  have hreachable {g₀ : Game} (hstart : Game.start {} = .ok g₀) (m : Move) (hseated : m.Seated g₀)
      (rules : Rules) (e : Effect) (ctx : Context) :
      ((Move.execute rules e ctx).apply (m.apply g₀)).Reachable :=
    .move _ (.move m (.start hstart) hseated) trivial
  refine ⟨_, _, rfl, rfl, by decide +kernel, ?_, fun rules => ?_⟩
  · exact (Reachable.inCustody (hreachable rfl (.spawn _ _ _) Nat.one_lt_two _ _ _)).1
  · exact ((Reachable.inCustody (hreachable rfl (.spawn _ _ _) Nat.one_lt_two _ _ _)).2 rules).1

end CardGame
