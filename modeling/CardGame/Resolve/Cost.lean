import CardGame.Resolve.InTurn

/-!
Costs that a player may pay to avoid an effect.
-/

namespace CardGame

namespace Cost

/-- Whether a player has what the cost takes. -/
def isPayable (v : View) (ctx : Context) (payer : Seat) : Cost → Bool
  | .life n => n ≤ v.game.life payer
  | .discard n => n ≤ (v.game.hand payer).length
  | .sacrifice f n => n ≤ (PlayerChoice.sacrificeOptions v ctx f payer).length

/-- Pays with the chosen objects. -/
def payWith (rules : Rules) (payer : Seat) (chosen : List ObjectId) : Cost → Resolve Unit
  | .life n => Resolve.changeLife payer (-n)
  | .discard _ => Resolve.discard payer chosen
  | .sacrifice _ _ => do PlayerChoice.sacrificeAll (← Resolve.view rules) payer chosen

/-- Pays with some of the options. The payer chooses, unless all of them are needed. -/
def payFrom (rules : Rules) (ctx : Context) (payer : Seat) (options : List ObjectId)
    (count : Nat) (cost : Cost) : Resolve Outcome := do
  if options.length = count then
    cost.payWith rules payer options
    return .done
  else
    Resolve.pause payer s!"Choose {count} to pay with" (.cards options count count false)
      ctx.source (.payCost payer cost)

/-- Pays a cost. -/
def pay (rules : Rules) (ctx : Context) (payer : Seat) : Cost → Resolve Outcome
  | .life n => do
    Resolve.changeLife payer (-n)
    return .done
  | .discard n => do
    payFrom rules ctx payer ((← Resolve.game).hand payer) n (.discard n)
  | .sacrifice f n => do
    let options := PlayerChoice.sacrificeOptions (← Resolve.view rules) ctx f payer
    payFrom rules ctx payer options n (.sacrifice f n)

end Cost

end CardGame
