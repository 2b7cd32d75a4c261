import CardGame.Game.Change
import CardGame.Projection.Layers

/-!
Resolving an effect: changes to a game that tell events as they happen, and that may fail as a
whole or stop at a decision.
-/

namespace CardGame

/-- How far a resolution has got. -/
structure Progress where
  game : Game
  events : List Event := []
deriving DecidableEq

/-- A part of a resolution. A failure takes back the whole resolution. -/
abbrev Resolve := StateT Progress (Except Failure)

/-- How a part of a resolution ends. -/
inductive Outcome where
  | done
  | paused (decision : Decision)
deriving DecidableEq

namespace Resolve

/-- The game as it is now. -/
def game : Resolve Game := do return (← get).game

/-- Changes the game. -/
def update (f : Game → Game) : Resolve Unit := modify fun p => { p with game := f p.game }

/-- Makes a change that may fail. -/
def edit {α : Type} (e : Edit Game α) : Resolve α := fun p =>
  match e p.game with
  | .ok a game => .ok (a, { p with game })
  | .error failure _ => .error failure

/-- Tells an event. -/
def emit (e : Event) : Resolve Unit := modify fun p => { p with events := p.events ++ [e] }

/-- Puts a decision to a player and suspends the work that needs the answer. -/
def pause (player : Seat) (prompt : String) (question : Question) (source : Option ObjectId)
    (work : Suspension) : Resolve Outcome := do
  let (id, g) := (← game).takeDecisionId
  let decision : Decision := { id, player, prompt, source, question }
  update fun _ => { g.pushFrame ⟨some id, work⟩ with pending := some decision }
  emit (.decisionRequested id player)
  return .paused decision

/-- The object that a reference names. -/
def object (ctx : Context) (r : Reference) : Resolve ObjectId :=
  match View.object? ctx r with
  | some o => return o
  | none => throw (.unboundReference r)

/-- Fails for an object that does not exist. -/
def require (o : ObjectId) : Resolve Unit := do
  if (← game).contains o then return else throw (.objectNotFound o)

/-- Fails for an object that is in no zone of a kind. -/
def requireIn (o : ObjectId) (kind : ZoneKind) : Resolve Unit := do
  require o
  if (← game).zones.isIn o kind then return else throw (.misplaced o (.anyOf kind))

/-- The owner of an object. -/
def owner (o : ObjectId) : Resolve Seat := do
  match (← game).owner? o with
  | some s => return s
  | none => throw (.objectNotFound o)

/-- The game after continuous effects. -/
def view (rules : Rules) : Resolve View := do return rules.view (← game)

/-- The projected characteristics of an object. -/
def characteristics (v : View) (o : ObjectId) : Resolve Characteristics :=
  match v.projection.bind (·.find? o) with
  | some c => return c
  | none => throw (.objectNotFound o)

/-- The permanent that a reference names, with its characteristics. -/
def permanent (rules : Rules) (ctx : Context) (r : Reference) :
    Resolve (ObjectId × Characteristics) := do
  let o ← object ctx r
  requireIn o .battlefield
  return (o, ← characteristics (← view rules) o)

/-- The value of an amount. -/
def amount (rules : Rules) (ctx : Context) (a : Amount) : Resolve Int := do
  return (← view rules).evaluate ctx a

/-- The value of an amount as a number of things. -/
def count (rules : Rules) (ctx : Context) (a : Amount) : Resolve Nat := do
  return (← view rules).evaluateCount ctx a

/-- The players that a selector names. -/
def players (rules : Rules) (ctx : Context) (s : Selector) : Resolve (List Seat) := do
  return (← view rules).players ctx s

end Resolve

end CardGame
