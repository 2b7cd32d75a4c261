import CardGame.Projection.View

/-!
Which objects and players may be targeted, and which selections of them are complete.
-/

namespace CardGame

namespace View

/-- The projected characteristics of an object. -/
def projected? (v : View) (o : ObjectId) : Option Characteristics :=
  v.projection.bind (·.find? o)

/-- Whether an object has a type in the projection. -/
def isProjected (v : View) (o : ObjectId) (t : CardType) : Bool :=
  (v.projected? o).any (·.hasType t)

/-- Whether an effect may target an object. Shroud stops every effect, hexproof those of other
players, and protection those with a source of the color. -/
def isTargetable (v : View) (ctx : Context) (o : ObjectId) : Bool :=
  match v.projected? o with
  | none => true
  | some c =>
    !c.hasKeyword .shroud &&
      !(c.hasKeyword .hexproof && c.controller ≠ some ctx.controller) &&
        match ctx.source.bind v.characteristics? with
        | none => true
        | some s => !c.isProtectedFrom s.colors

/-- The permanents that a filter accepts and an effect may target. -/
def targetablePermanents (v : View) (ctx : Context) (f : ObjectFilter) : List ObjectId :=
  (v.permanents f ctx.forFilter).filter (v.isTargetable ctx)

/-- The players that a filter accepts. -/
def playersFor (v : View) (you : Seat) (f : PlayerFilter) : List ObjectId :=
  (v.game.players.filter fun s =>
    match f with
    | .anyone => true
    | .you => s = you
    | .opponent => s ≠ you).map ObjectId.ofSeat

/-- What meets a requirement, zone by zone. -/
def candidates (v : View) (ctx : Context) : Requirement → List ObjectId
  | .creature f => (v.targetablePermanents ctx f).filter (v.isProjected · .creature)
  | .permanent f => v.targetablePermanents ctx f
  | .player f => v.playersFor ctx.controller f
  | .cardInZone zone f =>
    v.game.players.flatMap fun s => v.select f ctx.forFilter (v.game.zone s zone)
  | .spell f => (v.select f ctx.forFilter (v.game.zones.allOf .stack)).filter (v.isTargetable ctx)
  | .anyTarget =>
    ((v.targetablePermanents ctx .anything).filter fun o =>
      v.isProjected o .creature || v.isProjected o .planeswalker) ++
        v.playersFor ctx.controller .anyone
  | .otherThan r excluded =>
    (v.candidates ctx r).filter fun o => some o ≠ object? ctx excluded

/-- The legal targets of a requirement, in the order of their identities. -/
def legalTargets (v : View) (ctx : Context) (r : Requirement) : List ObjectId :=
  (SortedSet.ofList (v.candidates ctx r)).toList

/-- Whether there are as many legal targets as a spec asks for. -/
def hasEnoughTargets (v : View) (ctx : Context) (spec : TargetSpec) : Bool :=
  let available := (v.legalTargets ctx spec.requirement).length
  (spec.bounds available).1 ≤ available

/-- Whether every object is among the legal ones and none is repeated. -/
def distinctAmong (legal : List ObjectId) : List ObjectId → Bool
  | [] => true
  | o :: rest => legal.contains o && !rest.contains o && distinctAmong legal rest

/-- Whether a selection of targets meets a spec. -/
def acceptsSelection (v : View) (ctx : Context) (spec : TargetSpec) (chosen : List ObjectId) :
    Bool :=
  let legal := v.legalTargets ctx spec.requirement
  let (fewest, most) := spec.bounds legal.length
  fewest ≤ chosen.length && chosen.length ≤ most && distinctAmong legal chosen

end View

end CardGame
