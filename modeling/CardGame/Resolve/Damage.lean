import CardGame.Resolve.Action

/-!
Resolving effects on damage and life.
-/

namespace CardGame

namespace DamageEffect

/-- Deals everyone's share of damage, judging the recipients as they were before. -/
def dealShares (rules : Rules) (source : Option ObjectId) (shares : SortedMap ObjectId Int) :
    Resolve Unit := do
  let v ← Resolve.view rules
  shares.entries.forM fun p =>
    Resolve.dealDamage source p.1 p.2 (v.projection.bind (·.find? p.1))

/-- Every target has a share of at least 1. -/
def checkShares (division : SortedMap ObjectId Int) : List ObjectId → Except Failure Unit
  | [] => .ok ()
  | o :: rest =>
    match division.find? o with
    | none => .error (.missingDamage o)
    | some share => if 1 ≤ share then checkShares division rest else .error (.smallDamage o share)

/-- Adds up shares, unless the sum leaves the range of amounts on the way. -/
def sumShares : List Int → Int → Option Int
  | [], sum => some sum
  | share :: rest, sum =>
    if minAmount ≤ sum + share && sum + share ≤ maxAmount then sumShares rest (sum + share)
    else none

/-- A division made beforehand gives shares to targets only, to every one of them, and adds up. -/
def checkDivision (division : SortedMap ObjectId Int) (targets : List ObjectId) (total : Int) :
    Except Failure Unit := do
  match division.keys.find? (!targets.contains ·) with
  | some stray => throw (.strayDamage stray)
  | none => checkShares division targets
  match sumShares division.values 0 with
  | none => throw .damageOverflow
  | some sum => if sum ≠ total then throw (.wrongDamageTotal sum total)

/-- Divides damage among the targets: as divided beforehand, all to an only target, or as the player
decides, each getting at least 1. -/
def divideAmong (rules : Rules) (ctx : Context) (total : Int) : Resolve Outcome := do
  if !ctx.division.isEmpty then
    match checkDivision ctx.division ctx.targets total with
    | .error failure => throw failure
    | .ok () =>
      dealShares rules ctx.source ctx.division
      return .done
  else
    match ctx.targets with
    | [] => return .done
    | [only] =>
      dealShares rules ctx.source (.ofList [(only, total)])
      return .done
    | targets =>
      let total := total.toNat
      if total < targets.length then throw (.tooLittleDamage total targets.length)
      Resolve.pause ctx.controller s!"Divide {total} damage" (.distribution total targets 1)
        ctx.source (.divideDamage ctx)

def resolve (rules : Rules) (ctx : Context) : DamageEffect → Resolve Outcome
  | .deal target amount => do
    let n ← Resolve.amount rules ctx amount
    dealShares rules ctx.source (.ofList [(← Resolve.object ctx target, n)])
    return .done
  | .divide amount => do
    divideAmong rules ctx (max (← Resolve.amount rules ctx amount) 0)
  | .gainLife players amount => do
    let n := max (← Resolve.amount rules ctx amount) 0
    (← Resolve.players rules ctx players).forM fun s => Resolve.changeLife s n
    return .done
  | .loseLife players amount => do
    let n := max (← Resolve.amount rules ctx amount) 0
    (← Resolve.players rules ctx players).forM fun s => Resolve.changeLife s (-n)
    return .done

end DamageEffect

end CardGame
