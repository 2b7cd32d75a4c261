import CardGame.Resolve.Continuous
import CardGame.Resolve.Cost
import CardGame.Resolve.Damage
import CardGame.Resolve.Library
import CardGame.Resolve.Permanents
import CardGame.Resolve.Removal
import CardGame.Target.Legal

/-!
Resolving effects. Simple effects are resolved by their families; the effects here compose others or
ask the player first. When a part of a composite stops at a decision, the parts after it are put on
the stack beneath whatever the part left there.
-/

namespace CardGame

namespace Effect

/-- Asks whether an optional effect happens. -/
def askMay (ctx : Context) (prompt : String) (e : Effect) : Resolve Outcome :=
  Resolve.pause ctx.controller prompt .yesNo ctx.source (.may e ctx)

/-- Asks which modes happen; there are never more to choose than there are modes. -/
def askModes (ctx : Context) (modes : List Mode) (fewest most : Nat) : Resolve Outcome := do
  if modes.isEmpty then return .done
  let most := min most modes.length
  Resolve.pause ctx.controller "Choose mode(s)"
    (.modes (modes.map (·.1)) (min fewest most) most) ctx.source (.modal modes ctx)

/-- What happens to an effect whose targets are chosen as it resolves. -/
inductive Targeting where
  | tooFew
  | untargeted
  | choose (legal : List ObjectId) (fewest most : Nat)

/-- How targets are chosen: not at all if there are too few, or if none may be chosen. -/
def targeting (v : View) (ctx : Context) (spec : TargetSpec) : Targeting :=
  let legal := v.legalTargets ctx spec.requirement
  let (fewest, most) := spec.bounds legal.length
  let most := min most legal.length
  if legal.length < fewest then .tooFew
  else if most = 0 then .untargeted
  else .choose legal fewest most

mutual

/-- Resolves an effect. -/
def resolve (rules : Rules) : Effect → Context → Resolve Outcome
  | .continuous e, ctx => e.resolve rules ctx
  | .permanent e, ctx => e.resolve rules ctx
  | .removal e, ctx => e.resolve rules ctx
  | .damage e, ctx => e.resolve rules ctx
  | .library e, ctx => e.resolve rules ctx
  | .composite es, ctx => resolveAll rules es ctx
  | .conditional c yes no, ctx => do
    if (← Resolve.view rules).holds ctx c then resolve rules yes ctx
    else resolveOption rules no ctx
  | .may prompt e, ctx => askMay ctx prompt e
  | .modal modes fewest most, ctx => askModes ctx modes fewest most
  | .payOrSuffer selector cost suffer, ctx => do
    let v ← Resolve.view rules
    match v.players ctx selector with
    | [] => return .done
    | payer :: _ =>
      if cost.isPayable v ctx payer then
        Resolve.pause payer cost.prompt .yesNo ctx.source (.payOrSuffer payer cost suffer ctx)
      else resolve rules suffer ctx
  | .chooseTargets spec e, ctx => do
    match targeting (← Resolve.view rules) ctx spec with
    | .tooFew => return .done
    | .untargeted => resolve rules e (ctx.withTargets [])
    | .choose legal fewest most =>
      Resolve.pause ctx.controller "Choose targets" (.targets legal fewest most) ctx.source
        (.chooseTargets e ctx)
  | .eachPlayerChooses selector choice, ctx => do
    choice.start rules ctx (← Resolve.players rules ctx selector)

/-- Resolves an effect if there is one. -/
def resolveOption (rules : Rules) : Option Effect → Context → Resolve Outcome
  | none, _ => return .done
  | some e, ctx => resolve rules e ctx

/-- Resolves effects one after the other. -/
def resolveAll (rules : Rules) : List Effect → Context → Resolve Outcome
  | [], _ => return .done
  | e :: rest, ctx => do
    let depth := (← Resolve.game).stack.length
    match ← resolve rules e ctx with
    | .done => resolveAll rules rest ctx
    | .paused decision =>
      if !rest.isEmpty then Resolve.update (·.insertFrame depth ⟨none, .effects rest ctx⟩)
      return .paused decision

end

end Effect

end CardGame
