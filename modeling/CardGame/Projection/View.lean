import CardGame.Projection.Characteristics

/-!
A view of a game answers what filters, amounts and conditions ask. It sees the projected
characteristics of objects, or their base characteristics where there is no projection.
-/

namespace CardGame

/-- What a view answers about damage dealt earlier in the turn, of which the game keeps no
record. -/
structure UnrecordedDamage where
  amount : Int := 0
  happened : Bool := false
deriving DecidableEq

structure View where
  game : Game
  projection : Option Projection := none
  unrecorded : UnrecordedDamage := {}

namespace View

/-- The characteristics of an object, projected if possible. -/
def characteristics? (v : View) (o : ObjectId) : Option Characteristics :=
  (v.projection.bind (·.find? o)).or (Characteristics.base? v.game o)

/-- Whether a fact holds of an object with the given characteristics. -/
def factHolds (v : View) (c : Characteristics) (o : ObjectId) : CardFact → Bool
  | .isType t => c.hasType t
  | .hasSubtype s => c.subtypes.contains s
  | .hasSupertype s => c.supertypes.contains s
  | .hasColor color => c.colors.contains color
  | .colorless => c.colors.isColorless
  | .multicolored => 2 ≤ c.colors.count
  | .manaValue test => (c.manaValue : Int) ≤ maxAmount && test.accepts c.manaValue
  | .power test => c.power.any test.accepts
  | .toughness test => c.toughness.any test.accepts
  | .hasKeyword k => c.hasKeyword k
  | .isToken => v.game.has o .token
  | .isNontoken => !v.game.has o .token
  | .nameIs name => c.name = name

mutual

def cardPasses (v : View) (c : Characteristics) (o : ObjectId) : CardTest → Bool
  | .fact f => v.factHolds c o f
  | .all tests => v.cardPassesAll c o tests
  | .any tests => v.cardPassesAny c o tests
  | .not test => !v.cardPasses c o test

def cardPassesAll (v : View) (c : Characteristics) (o : ObjectId) : List CardTest → Bool
  | [] => true
  | t :: ts => v.cardPasses c o t && v.cardPassesAll c o ts

def cardPassesAny (v : View) (c : Characteristics) (o : ObjectId) : List CardTest → Bool
  | [] => false
  | t :: ts => v.cardPasses c o t || v.cardPassesAny c o ts

end

def statusPasses (v : View) (o : ObjectId) : StatusTest → Bool
  | .tapped => v.game.has o .tapped
  | .untapped => v.game.onBattlefield o && !v.game.has o .tapped
  | .attacking => v.game.has o .attacking
  | .blocking => v.game.has o .blocking
  | .blocked => v.game.has o .blocked
  | .unblocked => v.game.has o .attacking && !v.game.has o .blocked
  | .enteredThisTurn => (v.game.facets o).entered?.any (·.1 = v.game.turn.number)
  | .hasCounter kind => (v.game.facets o).counters?.any (0 < ·.count kind)
  | .attached => v.game.has o .attached
  | .faceDown => v.game.has o .faceDown
  | .wasDealtDamageThisTurn | .dealtDamageThisTurn => v.unrecorded.happened

/-- The player among the targets at an index. -/
def targetPlayer? (v : View) (targets : List ObjectId) (index : Nat) : Option Seat :=
  targets[index]?.bind v.game.seat?

def controlPasses (v : View) (c : Characteristics) (ctx : FilterContext) : ControlTest → Bool
  | .you => c.controller = some ctx.controller
  | .opponent => c.controller.any (· ≠ ctx.controller)
  | .targetPlayer index => (v.targetPlayer? ctx.targets index).any (c.controller = some ·)
  | .specific seat => c.controller = some seat
  | .activePlayer => c.controller = some v.game.turn.active
  | .ownedByYou => c.owner = some ctx.controller
  | .ownedByOpponent => c.owner.any (· ≠ ctx.controller)
  | .ownedByTargetPlayer index => (v.targetPlayer? ctx.targets index).any (c.owner = some ·)

/-- Whether a filter accepts an object. It accepts only cards and tokens. -/
def accepts (v : View) (f : ObjectFilter) (ctx : FilterContext) (o : ObjectId) : Bool :=
  !(f.otherThanSource && ctx.source = some o) &&
    match v.characteristics? o with
    | none => false
    | some c =>
      f.card.all (v.cardPasses c o) && f.status.all (v.statusPasses o) &&
        f.control.all (v.controlPasses c ctx)

/-- The objects of a list that a filter accepts. -/
def select (v : View) (f : ObjectFilter) (ctx : FilterContext) (os : List ObjectId) :
    List ObjectId :=
  os.filter (v.accepts f ctx)

/-- The permanents that a filter accepts. -/
def permanents (v : View) (f : ObjectFilter) (ctx : FilterContext) : List ObjectId :=
  v.select f ctx v.game.battlefield

/-- The object that a reference names. -/
def object? (ctx : Context) : Reference → Option ObjectId
  | .source => ctx.source
  | .target index => ctx.target? index
  | .sacrificed index => ctx.sacrificed[index]?
  | .triggering => ctx.triggeringObject
  | .fixed o => some o

/-- The controller of an object. Players control themselves, and objects away from the battlefield
are their owners'. -/
def controller? (v : View) (o : ObjectId) : Option Seat :=
  match v.game.seat? o with
  | some s => some s
  | none =>
    if v.game.onBattlefield o then (v.characteristics? o).bind (·.controller) else v.game.owner? o

/-- The players that a selector names. -/
def players (v : View) (ctx : Context) : Selector → List Seat
  | .you => [ctx.controller]
  | .opponent =>
    match ctx.opponent with
    | some s => [s]
    | none => if 1 < v.game.seats then [ctx.controller.next v.game.seats] else []
  | .eachOpponent => v.game.turnOrder.filter (· ≠ ctx.controller)
  | .eachPlayer => v.game.turnOrder
  | .activePlayer => [v.game.turn.active]
  | .targetPlayer index => (v.targetPlayer? ctx.targets index).toList
  | .triggeringPlayer => ctx.triggeringPlayer.toList
  | .controllerOf r => ((object? ctx r).bind v.controller?).toList
  | .ownerOf r => ((object? ctx r).bind v.game.owner?).toList
  | .specific s => if s.index < v.game.seats then [s] else []

/-- The objects that a player has in the zones of a kind. The permanents are those that the player
controls, the objects elsewhere those that the player owns. -/
def objectsOf (v : View) (s : Seat) : ZoneKind → List ObjectId
  | .battlefield => v.game.battlefield.filter (v.controller? · = some s)
  | kind => v.game.zone s kind

/-- The number of objects accepted by a filter that some players have in the zones of a kind. -/
def countMatching (v : View) (ctx : Context) (players : List Seat) (zone : ZoneKind)
    (f : ObjectFilter) : Nat :=
  (players.flatMap fun s => v.select f ctx.forFilter (v.objectsOf s zone)).length

/-- The value of a measure; one that names nothing is 0. -/
def measure (v : View) (ctx : Context) : Measure → Int
  | .fixed n => n
  | .x => ctx.x
  | .lifeTotal sel => (v.players ctx sel).foldl (fun sum s => saturate (sum + v.game.life s)) 0
  | .powerOf r => (((object? ctx r).bind v.characteristics?).bind (·.power)).getD 0
  | .toughnessOf r => (((object? ctx r).bind v.characteristics?).bind (·.toughness)).getD 0
  | .manaValueOf r =>
    (((object? ctx r).bind v.characteristics?).map fun c => countAsAmount c.manaValue).getD 0
  | .countersOn r kind =>
    (((object? ctx r).bind fun o => (v.game.facets o).counters?).map
      fun c => countAsAmount (c.count kind)).getD 0
  | .count sel zone f => countAsAmount (v.countMatching ctx (v.players ctx sel) zone f)
  | .cardsInHand sel => countAsAmount ((v.players ctx sel).flatMap v.game.hand).length
  | .damageDealtThisTurn _ => v.unrecorded.amount

/-- Joins two amounts. -/
def join : Joint → Int → Int → Int
  | .add, a, b => saturate (a + b)
  | .subtract, a, b => saturate (a - b)
  | .max, a, b => max a b
  | .min, a, b => min a b

/-- Whether a fact of the game holds. -/
def gameFactHolds (v : View) (ctx : Context) : GameFact → Bool
  | .lifeAtLeast sel amount =>
    let players := v.players ctx sel
    !players.isEmpty && players.all fun s => amount ≤ v.game.life s
  | .controlsMatching sel f count =>
    (count : Int) ≤ countAsAmount (v.countMatching ctx (v.players ctx sel) .battlefield f)
  | .sourceOnBattlefield => ctx.source.any v.game.onBattlefield
  | .targetOnBattlefield index =>
    (ctx.target? index).any fun o => (v.game.seat? o).isSome || v.game.onBattlefield o
  | .xAtLeast n => n ≤ ctx.x

mutual

/-- The value of an amount. -/
def evaluate (v : View) (ctx : Context) : Amount → Int
  | .measure m => v.measure ctx m
  | .join op a b => join op (v.evaluate ctx a) (v.evaluate ctx b)
  | .times a factor => saturate (v.evaluate ctx a * factor)
  | .nonNegative a => max (v.evaluate ctx a) 0
  | .cases c a b => if v.holds ctx c then v.evaluate ctx a else v.evaluate ctx b

/-- Whether a condition holds. -/
def holds (v : View) (ctx : Context) : Condition → Bool
  | .all cs => v.holdAll ctx cs
  | .any cs => v.holdAny ctx cs
  | .not c => !v.holds ctx c
  | .compare a op b => op.holds (v.evaluate ctx a) (v.evaluate ctx b)
  | .fact f => v.gameFactHolds ctx f

def holdAll (v : View) (ctx : Context) : List Condition → Bool
  | [] => true
  | c :: cs => v.holds ctx c && v.holdAll ctx cs

def holdAny (v : View) (ctx : Context) : List Condition → Bool
  | [] => false
  | c :: cs => v.holds ctx c || v.holdAny ctx cs

end

/-- The value of an amount as a number of things, at least 0. -/
def evaluateCount (v : View) (ctx : Context) (a : Amount) : Nat := (v.evaluate ctx a).toNat

end View

end CardGame
