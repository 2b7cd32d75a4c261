import CardGame.Card.Catalog
import CardGame.Game.Basic

/-!
The elementary changes of a game: new objects, moves between zones, floating effects, the stack of
suspended work and the pending decision.
-/

namespace CardGame

namespace Game

/-- Makes a change to the zones a change to the game. -/
def onZones {α : Type} (edit : Edit Zones α) : Edit Game α := fun g =>
  match edit g.zones with
  | .ok a zones => .ok a { g with zones }
  | .error failure zones => .error failure { g with zones }

/-- Hands out a timestamp. -/
def takeTimestamp (g : Game) : Nat × Game :=
  (g.nextTimestamp, { g with nextTimestamp := g.nextTimestamp + 1 })

/-- Hands out the identity of a decision. -/
def takeDecisionId (g : Game) : DecisionId × Game :=
  (⟨g.nextDecision⟩, { g with nextDecision := g.nextDecision + 1 })

/-- Records when an object entered the battlefield and who controls it. -/
def enterBattlefield (o : ObjectId) (controller : Seat) : Edit Game Unit := do
  let (timestamp, g) := (← get).takeTimestamp
  set g
  setFacet o (.entered g.turn.number timestamp)
  setFacet o (.controller controller)

/-- The facets that an object has only as a permanent. -/
def permanentFacets : List FacetKind :=
  [.tapped, .entered, .attacking, .blocking, .blocked, .counters, .damage, .attached, .controller]

/-- A floating effect without one of the objects it affects. It ends when it affects nothing
more. -/
def releaseFrom (o : ObjectId) (e : FloatingEffect) : Option FloatingEffect :=
  if e.affected.contains o then
    if (e.affected.erase o).isEmpty then none else some { e with affected := e.affected.erase o }
  else some e

/-- What leaves the battlefield is a new object: it loses its permanent facets, and no floating
effect applies to it any longer. A token ceases to exist. -/
def leaveBattlefield (g : Game) (o : ObjectId) : Game :=
  let g := g.eraseFacets o permanentFacets
  let g := { g with floating := g.floating.filterMap (releaseFrom o) }
  if g.has o .token then { g with zones := g.zones.remove o, objects := g.objects.erase o } else g

/-- Moves an object to a zone and answers where it was. It enters the battlefield under the given
player's control, or else its new zone's owner's. -/
def move (o : ObjectId) (target : Zone) (p : Position) (controller : Option Seat) :
    Edit Game Zone := do
  match (← get).zone? o with
  | none => throw (.objectNotFound o)
  | some origin =>
    let _ ← onZones (Zones.move o target p)
    if origin.kind = .battlefield then
      if target.kind ≠ .battlefield then modify (·.leaveBattlefield o)
    else if target.kind = .battlefield then enterBattlefield o (controller.getD target.owner)
    return origin

/-- Brings a new object into a zone. If the zone does not exist the object stays in none. -/
def spawn (card : Card) (owner : Seat) (kind : ZoneKind) (token : Bool) : Edit Game ObjectId := do
  let g ← get
  let o : ObjectId := ⟨g.nextObject⟩
  let facets := (Facets.empty.insert (.card card)).insert (.owner owner)
  let facets := if token then facets.insert .token else facets
  set { g with nextObject := g.nextObject + 1, objects := g.objects.insert o facets }
  match g.zones.add o ⟨owner, kind⟩ .top with
  | .error failure => throw failure
  | .ok zones =>
    modify ({ · with zones })
    if kind = .battlefield then enterBattlefield o owner
    return o

/-- Brings a card of the catalog into a zone. -/
def spawnCard (d : CardDefinition) (owner : Seat) (kind : ZoneKind) : Edit Game ObjectId :=
  spawn d.toCard owner kind false

/-- Looks a card up in the catalog and brings it into a zone. -/
def spawnFrom (c : Catalog) (id : CardId) (owner : Seat) (kind : ZoneKind) : Edit Game ObjectId :=
  match c.require id with
  | .ok d => spawnCard d owner kind
  | .error failure => throw failure

/-- Makes a change so many times. What was done before a failure stays. -/
def repeatedly {α : Type} (change : Edit Game α) : Nat → Edit Game (List α)
  | 0 => return []
  | n + 1 => do
    let a ← change
    return a :: (← repeatedly change n)

/-- Shuffles a player's library. -/
def shuffleLibrary (g : Game) (s : Seat) : Game :=
  let (zones, random) := g.zones.shuffle (.library s) g.random
  { g with zones, random }

/-- Starts a floating effect with a new identity and timestamp. -/
def addFloating (g : Game) (modification : PlacedModification) (affected : SortedSet ObjectId)
    (duration : Duration) (source : Option ObjectId) (controller : Seat) : FloatingId × Game :=
  let id : FloatingId := ⟨g.nextFloating⟩
  let effect : FloatingEffect :=
    { id, modification, affected, duration, source, controller
      timestamp := g.nextTimestamp
      createdTurn := g.turn.number }
  (id, { g with
    nextFloating := g.nextFloating + 1
    nextTimestamp := g.nextTimestamp + 1
    floating := g.floating ++ [effect] })

/-- Ends the first floating effect of an identity. -/
def removeFloating (g : Game) (id : FloatingId) : Game :=
  { g with floating := g.floating.eraseP (·.id = id) }

/-- Puts a frame on top of the stack. -/
def pushFrame (g : Game) (f : Frame) : Game := { g with stack := f :: g.stack }

/-- Takes the topmost frame off the stack. -/
def popFrame (g : Game) : Option Frame × Game := (g.stack.head?, { g with stack := g.stack.tail })

/-- Puts a frame on the lowest `depth` frames of the stack, beneath all others. -/
def insertFrame (g : Game) (depth : Nat) (f : Frame) : Game :=
  let above := g.stack.length - depth
  { g with stack := g.stack.take above ++ f :: g.stack.drop above }

end Game

end CardGame
