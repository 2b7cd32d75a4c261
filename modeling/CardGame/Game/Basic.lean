import CardGame.Event
import CardGame.Facet
import CardGame.Settings
import CardGame.Suspension
import CardGame.Zone.Zones

/-!
A game: everything the rules read and write. Games are values, so a rejected action leaves nothing
behind in the game it was tried on.
-/

namespace CardGame

/-- The steps of a turn. -/
inductive Step where
  | untap | upkeep | draw | precombatMain | beginCombat | declareAttackers | declareBlockers
  | combatDamage | endCombat | postcombatMain | endStep | cleanup
deriving DecidableEq

/-- Whose turn it is, and how far it has got. -/
structure Turn where
  number : Nat := 1
  active : Seat := ⟨0⟩
  priority : Seat := ⟨0⟩
  step : Step := .precombatMain
deriving DecidableEq

/-- A game. The stack holds suspended work with the topmost frame first. -/
structure Game where
  seats : Nat
  objects : SortedMap ObjectId Facets
  zones : Zones
  floating : List FloatingEffect
  stack : List Frame
  pending : Option Decision
  turn : Turn
  random : Random
  nextObject : Nat
  nextTimestamp : Nat
  nextFloating : Nat
  nextDecision : Nat
deriving DecidableEq

namespace Game

/-- A new game: a player in every seat, and every zone empty. -/
def start (s : TableSettings) : Except Failure Game := do
  s.check
  return {
    seats := s.players
    objects := .ofList <| (Seat.all s.players).map fun seat =>
      (.ofSeat seat, Facets.empty.insert (.player s.startingLife 0))
    zones := .empty s.players
    floating := []
    stack := []
    pending := none
    turn := {}
    random := .ofSeed s.seed
    nextObject := ObjectId.firstObject s.players
    nextTimestamp := 1
    nextFloating := 1
    nextDecision := 1 }

/-- Every player, in seat order. -/
def players (g : Game) : List Seat := Seat.all g.seats

/-- Every player, the active one first. -/
def turnOrder (g : Game) : List Seat := Seat.turnOrder g.turn.active g.seats

def opponents (g : Game) (s : Seat) : List Seat := s.opponents g.seats

/-- The player that an identity stands for. -/
def seat? (g : Game) (o : ObjectId) : Option Seat := o.seat? g.seats

def contains (g : Game) (o : ObjectId) : Bool := g.objects.contains o

/-- What is known about an object, which is nothing if it does not exist. -/
def facets (g : Game) (o : ObjectId) : Facets := (g.objects.find? o).getD .empty

def has (g : Game) (o : ObjectId) (kind : FacetKind) : Bool := (g.facets o).has kind

/-- A player's life total, 0 for an empty seat. -/
def life (g : Game) (s : Seat) : Int := (((g.facets (.ofSeat s)).player?).map (·.1)).getD 0

/-- The owner of an object. Players own themselves. -/
def owner? (g : Game) (o : ObjectId) : Option Seat :=
  (g.seat? o).or (g.facets o).owner?

/-- The controller of an object apart from continuous effects: the owner, unless another is
recorded. -/
def baseController? (g : Game) (o : ObjectId) : Option Seat :=
  (g.facets o).controller?.or (g.owner? o)

/-- Erases a facet of an object; an object that does not exist has none. -/
def eraseFacet (g : Game) (o : ObjectId) (kind : FacetKind) : Game :=
  { g with objects := g.objects.modify o (·.erase kind) }

def eraseFacets (g : Game) (o : ObjectId) (kinds : List FacetKind) : Game :=
  kinds.foldl (fun g kind => g.eraseFacet o kind) g

/-- Records a facet of an object that exists. -/
def setFacet (o : ObjectId) (f : Facet) : Edit Game Unit := fun g =>
  if g.contains o then .ok () { g with objects := g.objects.modify o (·.insert f) }
  else .error (.objectNotFound o) g

/-- Sets a player's life total. -/
def setLife (s : Seat) (life : Int) : Edit Game Unit := fun g =>
  match (g.facets (.ofSeat s)).player? with
  | some (_, poison) => setFacet (.ofSeat s) (.player life poison) g
  | none => .error (.objectNotFound (.ofSeat s)) g

def zone? (g : Game) (o : ObjectId) : Option Zone := g.zones.zone? o

def onBattlefield (g : Game) (o : ObjectId) : Bool := g.zones.isIn o .battlefield

/-- Every permanent, owner by owner in seat order. -/
def battlefield (g : Game) : List ObjectId := g.zones.allOf .battlefield

/-- The objects of one player's zone, the bottom one first. -/
def zone (g : Game) (owner : Seat) (kind : ZoneKind) : List ObjectId :=
  g.zones.objects ⟨owner, kind⟩

def hand (g : Game) (s : Seat) : List ObjectId := g.zone s .hand

def graveyard (g : Game) (s : Seat) : List ObjectId := g.zone s .graveyard

def library (g : Game) (s : Seat) : List ObjectId := g.zone s .library

/-- The topmost cards of a library, the top one first. -/
def topOfLibrary (g : Game) (s : Seat) (count : Nat) : List ObjectId :=
  g.zones.top (.library s) count

/-- The subtypes of the creature cards in all graveyards, in order. -/
def graveyardCreatureTypes (g : Game) : List CardSubtype :=
  (SortedSet.ofList <| (g.zones.allOf .graveyard).flatMap fun o =>
    match (g.facets o).card? with
    | some c => if c.types.contains .creature then c.subtypes.toList else []
    | none => []).toList

/-- Whether a floating effect still works: it affects a permanent, and its duration has not run
out. -/
def isActive (g : Game) (e : FloatingEffect) : Bool :=
  e.affected.toList.any g.onBattlefield &&
    match e.duration with
    | .whileSourceOnBattlefield => e.source.any g.onBattlefield
    | .whileAttached =>
      e.source.any fun s => g.onBattlefield s && (g.facets s).host?.any e.affected.contains
    | .forTurns 0 => false
    | _ => true

def floatingEffect? (g : Game) (id : FloatingId) : Option FloatingEffect :=
  g.floating.find? (·.id = id)

/-- No decision is named by two frames, given the frames from the bottom and the decisions seen. -/
def checkFrames : List Frame → List DecisionId → Except Failure Unit
  | [], _ => .ok ()
  | ⟨none, _⟩ :: rest, seen => checkFrames rest seen
  | ⟨some d, _⟩ :: rest, seen =>
    if seen.contains d then .error (.decisionTwiceOnStack d) else checkFrames rest (d :: seen)

/-- The zones agree, no decision is named by two frames, and a pending decision is the one that the
topmost frame waits for. -/
def check (g : Game) : Except Failure Unit := do
  g.zones.check
  checkFrames g.stack.reverse []
  match g.pending with
  | none => .ok ()
  | some d =>
    if g.stack.head?.bind (·.decision) = some d.id then .ok () else .error (.decisionNotOnTop d.id)

end Game

end CardGame
