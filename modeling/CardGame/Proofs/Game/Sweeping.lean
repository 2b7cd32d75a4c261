import CardGame.Play
import CardGame.Proofs.Projection.Core

/-!
Sweeping changes nothing that anybody sees. What a sweep ends was doing nothing, whether its objects
or its source had left the battlefield or its turns had run out, and no stage of the layer system
has heard of it. So all objects look the same before and after, whatever the static abilities make
of each other on the way. A second sweep finds nothing to do, and sweeping trades places with the
other hooks at which effects end.
-/

namespace CardGame

namespace Game

/-- Of two hooks at which effects end, it does not matter which comes first. -/
theorem expire_comm (g : Game) (keep keep' : FloatingEffect → Bool) :
    ((g.expire keep).1.expire keep').1 = ((g.expire keep').1.expire keep).1 := by
  simp only [expire, List.filter_filter, Bool.and_comm]

/-- What has ended does not end again. -/
theorem expire_expire (g : Game) (keep : FloatingEffect → Bool) :
    (g.expire keep).1.expire keep = ((g.expire keep).1, []) := by
  have hkept : (g.floating.filter keep).filter keep = g.floating.filter keep := by
    simp only [List.filter_filter, Bool.and_self]
  have hnothing : (g.floating.filter keep).filter (!keep ·) = [] := by
    simp [List.filter_filter]
  unfold expire
  rw [hkept, hnothing]
  rfl

/-- The effects that end are those that are there no longer, each reported in its place. -/
theorem told_expire (g : Game) (keep : FloatingEffect → Bool) :
    (g.expire keep).2 =
      (g.floating.filter (· ∉ (g.expire keep).1.floating)).map fun e => .floatingExpired e.id := by
  have hended (e : FloatingEffect) (he : e ∈ g.floating) :
      (!keep e) = decide (e ∉ g.floating.filter keep) := by
    simp [List.mem_filter, he]
  exact congrArg _ (List.filter_congr hended)

/-- If no two effects share an identity, no event comes twice. -/
theorem nodup_told_expire {g : Game} (hids : (g.floating.map (·.id)).Nodup)
    (keep : FloatingEffect → Bool) : (g.expire keep).2.Nodup := by
  have hended : ((g.floating.filter (!keep ·)).map (·.id)).Nodup :=
    hids.sublist (List.filter_sublist.map _)
  have htold : (g.expire keep).2 =
      ((g.floating.filter (!keep ·)).map (·.id)).map Event.floatingExpired := by
    rw [List.map_map]
    rfl
  rw [htold]
  exact hended.map fun _ _ h => Event.floatingExpired.inj h

/-- The objects look the same after a sweep. -/
theorem project_sweep (g : Game) (rules : Rules) : rules.project g.sweep.1 = rules.project g :=
  rules.project_filter ⟨rfl, rfl, rfl, fun _ _ _ => rfl, fun _ => rfl⟩ rfl rfl fun _ h => h

/-- What a sweep does to a game: it takes out the effects that do not work, reports each of them
once and in order, and leaves the rest as it was. Neither the characteristics of any object nor the
other hooks of the turn depend on whether it has been made, and it need not be made again. -/
structure SweepsTo (g g' : Game) (es : List Event) : Prop where
  looks : ∀ rules : Rules, rules.project g' = rules.project g
  again : g'.sweep = (g', [])
  kept : g'.floating = g.floating.filter g.isActive
  rest : g' = { g with floating := g'.floating }
  told : es = (g.floating.filter (· ∉ g'.floating)).map fun e => .floatingExpired e.id
  once : (g.floating.map (·.id)).Nodup → es.Nodup
  endOfCombat : g'.endOfCombat.1 = g.endOfCombat.1.sweep.1
  beginTurn : ∀ s, (g'.beginTurn s).1 = (g.beginTurn s).1.sweep.1

/-- Sweeping is invisible, whatever floating effects a game has and whatever its rules are. -/
theorem sweepsTo_sweep (g : Game) : g.SweepsTo g.sweep.1 g.sweep.2 where
  looks := g.project_sweep
  again := g.expire_expire g.isActive
  kept := rfl
  rest := rfl
  told := g.told_expire g.isActive
  once hids := nodup_told_expire hids g.isActive
  endOfCombat := g.expire_comm g.isActive _
  beginTurn _ := g.expire_comm g.isActive _

/-- A bonus that works, one on a card in a graveyard, a keyword whose source is gone, and a new base
size with no turns left. -/
def idleEffects : List FloatingEffect :=
  let effect (id : Nat) (m : Modification) (o : ObjectId) (d : Duration) : FloatingEffect :=
    { id := ⟨id⟩, modification := m.placed, affected := .singleton o, duration := d, source := none
      controller := ⟨0⟩, timestamp := id + 2, createdTurn := 1 }
  [effect 1 (.modify 1 1) ⟨2⟩ .permanent, effect 2 (.modify 5 5) ⟨3⟩ .endOfTurn,
    effect 3 (.grantKeyword .flying) ⟨2⟩ .whileSourceOnBattlefield,
    effect 4 (.setBase 9 9) ⟨2⟩ (.forTurns 0)]

/-- A sweep ends three effects of four, and the creature keeps the bonus that works. -/
theorem sweepsTo_of_idle_effects : ∃ g₀ g g', start {} = .ok g₀ ∧
    spawnCard (.creature ⟨7⟩ "Bear" 2 2) ⟨0⟩ .battlefield g₀ = .ok ⟨2⟩ g ∧
    spawnCard (.creature ⟨7⟩ "Bear" 2 2) ⟨0⟩ .graveyard g = .ok ⟨3⟩ g' ∧
    let swept := ({ g' with floating := idleEffects } : Game).sweep
    SweepsTo { g' with floating := idleEffects } swept.1 swept.2 ∧ swept.2.Nodup ∧
    swept.2 = [.floatingExpired ⟨2⟩, .floatingExpired ⟨3⟩, .floatingExpired ⟨4⟩] ∧
    (Rules.project {} swept.1).power? ⟨2⟩ = some 3 := by
  refine ⟨_, _, _, rfl, rfl, rfl, sweepsTo_sweep _, ?_, by decide +kernel, by decide +kernel⟩
  exact (sweepsTo_sweep _).once (by decide)

end Game

end CardGame
