import CardGame.Resolve.Action

/-!
Resolving effects on the state of permanents.
-/

namespace CardGame

namespace PermanentEffect

/-- Puts everyone's share of counters on them. -/
def placeShares (kind : CounterKind) (shares : SortedMap ObjectId Nat) : Resolve Unit :=
  shares.entries.forM fun p => Resolve.addCounters p.1 kind p.2

/-- Puts some counters on the targets. Several targets share them as the player decides, each
getting at least one. -/
def distribute (ctx : Context) (kind : CounterKind) (total : Nat) : Resolve Outcome := do
  ctx.targets.forM fun o => Resolve.requireIn o .battlefield
  match ctx.targets with
  | [] => return .done
  | [only] =>
    Resolve.addCounters only kind total
    return .done
  | recipients =>
    if total < recipients.length then throw (.tooFewCounters total recipients.length)
    Resolve.pause ctx.controller s!"Distribute {total} counters"
      (.distribution total recipients 1) ctx.source (.distributeCounters kind ctx)

def resolve (rules : Rules) (ctx : Context) : PermanentEffect → Resolve Outcome
  | .tap target => do
    let (o, _) ← Resolve.permanent rules ctx target
    Resolve.tap o
    return .done
  | .untap target => do
    let (o, _) ← Resolve.permanent rules ctx target
    Resolve.untap o
    return .done
  | .addCounters target kind amount => do
    let n ← Resolve.count rules ctx amount
    Resolve.addCounters (← Resolve.object ctx target) kind n
    return .done
  | .removeCounters target kind amount => do
    let n ← Resolve.count rules ctx amount
    let _ ← Resolve.removeCounters (← Resolve.object ctx target) kind n
    return .done
  | .distributeCounters kind amount => do
    distribute ctx kind (← Resolve.count rules ctx amount)

end PermanentEffect

end CardGame
