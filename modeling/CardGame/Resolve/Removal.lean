import CardGame.Resolve.InTurn

/-!
Resolving effects that take objects away.
-/

namespace CardGame

namespace RemovalEffect

/-- An existing object that is not a player. -/
def requireCard (o : ObjectId) : Resolve Unit := do
  Resolve.require o
  if ((← Resolve.game).seat? o).isSome then throw (.isPlayer o)

/-- Mass destruction judges every permanent as it was before the first is destroyed. -/
def destroyMatching (rules : Rules) (ctx : Context) (f : ObjectFilter) : Resolve Unit := do
  let v ← Resolve.view rules
  (v.permanents f ctx.forFilter).forM fun o => do
    let _ ← Resolve.destroy o (← Resolve.characteristics v o)

def resolve (rules : Rules) (ctx : Context) : RemovalEffect → Resolve Outcome
  | .destroy target => do
    let (o, c) ← Resolve.permanent rules ctx target
    let _ ← Resolve.destroy o c
    return .done
  | .destroyAll f => do
    destroyMatching rules ctx f
    return .done
  | .exile target => do
    let o ← Resolve.object ctx target
    requireCard o
    let _ ← Resolve.moveToOwners o .exile
    return .done
  | .returnToHand target => do
    let o ← Resolve.object ctx target
    requireCard o
    if (← Resolve.game).zones.isIn o .hand then throw (.misplaced o .outsideHand)
    let _ ← Resolve.moveToOwners o .hand
    return .done
  | .sacrifice players f count => do
    let n ← Resolve.count rules ctx count
    PlayerChoice.start rules ctx (.sacrifice f n) (← Resolve.players rules ctx players)

end RemovalEffect

end CardGame
