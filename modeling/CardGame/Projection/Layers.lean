import CardGame.Projection.View

/-!
The layer system. A projection starts from the base characteristics and goes through the stages in
order. At each stage the changes that belong there apply one after the other: first abilities that
define characteristics, then the rest by timestamp, and at equal timestamps floating effects before
static abilities.
-/

namespace CardGame

/-- Where a change of the layer system comes from. -/
inductive LayerSource where
  | floating (effect : FloatingEffect)
  | ability (source : ObjectId) (ability : StaticAbility)
deriving DecidableEq

/-- A change of the layer system, with what decides when it applies. -/
structure LayerItem where
  stage : Stage
  defining : Bool
  timestamp : Nat
  source : LayerSource
deriving DecidableEq

/-- The stage at which a static ability applies. -/
def StaticAbility.stage : StaticAbility → Stage
  | .modifyGroup .. => .modify
  | .grantKeyword .. => .ability
  | .addCardType .. => .cardType
  | .definePowerToughness .. => .setBase

namespace LayerItem

def ofFloating (e : FloatingEffect) : LayerItem :=
  ⟨e.modification.stage, false, e.timestamp, .floating e⟩

/-- The static abilities of an object that work where it is. -/
def ofObject (g : Game) (o : ObjectId) (fs : Facets) : List LayerItem :=
  match fs.card? with
  | none => []
  | some c =>
    let timestamp := (fs.entered?.map (·.2)).getD 0
    (c.abilities.filter fun a => a.isDefining || g.onBattlefield o).map fun a =>
      ⟨a.stage, a.isDefining, timestamp, .ability o a⟩

/-- Every change that a game has to offer: floating effects, then static abilities object by
object. -/
def all (rules : Rules) (g : Game) : List LayerItem :=
  g.floating.map ofFloating ++
    if rules.staticAbilities then g.objects.entries.flatMap fun p => ofObject g p.1 p.2 else []

/-- Whether the first change may apply before the second. -/
def le (a b : LayerItem) : Bool :=
  if a.defining = b.defining then a.timestamp ≤ b.timestamp else a.defining

/-- Puts a change before the first one that may follow it. -/
def place (a : LayerItem) : List LayerItem → List LayerItem
  | [] => [a]
  | b :: rest => if a.le b then a :: b :: rest else b :: place a rest

/-- The changes in the order in which they apply; changes of one rank keep their order. -/
def inOrder : List LayerItem → List LayerItem
  | [] => []
  | a :: rest => place a (inOrder rest)

/-- The context in which an object's own ability works. -/
def contextOf (source : ObjectId) (controller : Seat) : Context :=
  { source := some source, controller }

/-- Applies a static ability, as the projection so far shows the game. -/
def applyAbility (g : Game) (p : Projection) (source : ObjectId) (a : StaticAbility) :
    Projection :=
  match (p.controller? source).or (g.owner? source) with
  | none => p
  | some controller =>
    let v : View := { game := g, projection := some p }
    let ctx := contextOf source controller
    match a with
    | .definePowerToughness power toughness =>
      p.apply source (.setBase (v.evaluate ctx power) (v.evaluate ctx toughness))
    | .modifyGroup f power toughness =>
      p.applyAll (v.permanents f ctx.forFilter) (.modify power toughness)
    | .grantKeyword f keyword => p.applyAll (v.permanents f ctx.forFilter) (.grantKeyword keyword)
    | .addCardType f t => p.applyAll (v.permanents f ctx.forFilter) (.addTypes (.singleton t))

/-- Applies a change. A floating effect that no longer works changes nothing. -/
def apply (g : Game) (p : Projection) (item : LayerItem) : Projection :=
  match item.source with
  | .floating e =>
    if g.isActive e then p.applyAll e.affected.toList e.modification.change else p
  | .ability source a => applyAbility g p source a

end LayerItem

namespace Projection

/-- What the +1/+1 and −1/−1 counters on a permanent add up to. -/
def counterBonus (c : Counters) : Int :=
  countAsAmount (c.count .plusOnePlusOne) - countAsAmount (c.count .minusOneMinusOne)

/-- Applies the counters on permanents. -/
def applyCounters (g : Game) (p : Projection) : Projection :=
  g.battlefield.foldl (fun p o =>
    match (g.facets o).counters? with
    | some c => p.apply o (.modify (counterBonus c) (counterBonus c))
    | none => p) p

/-- Goes through one stage. -/
def applyStage (g : Game) (items : List LayerItem) (p : Projection) (stage : Stage) :
    Projection :=
  let p := (LayerItem.inOrder (items.filter (·.stage = stage))).foldl (LayerItem.apply g) p
  if stage = .counters then p.applyCounters g else p

end Projection

/-- The characteristics of all objects after continuous effects. -/
def Rules.project (rules : Rules) (g : Game) : Projection :=
  Stage.all.foldl (Projection.applyStage g (LayerItem.all rules g)) (Projection.base g)

/-- The view of a game after continuous effects. -/
def Rules.view (rules : Rules) (g : Game) : View :=
  { game := g, projection := some (rules.project g) }

end CardGame
