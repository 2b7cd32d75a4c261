import CardGame.Format.Play
import CardGame.Game.Basic

/-!
Saved games. A game is saved as bytes, and only a game whose invariants hold is restored.
-/

namespace CardGame

namespace Codec

/-- Counters as the list of their kinds and numbers. -/
def counters : Codec Counters := (entries counterKind word).iso .mk (·.counts)

def facetKind : Codec FacetKind :=
  cases [.unit "Card" .card, .unit "Owner" .owner, .unit "Controller" .controller,
    .unit "Tapped" .tapped, .unit "EnteredBattlefield" .entered, .unit "Attacking" .attacking,
    .unit "Blocking" .blocking, .unit "Blocked" .blocked, .unit "Counters" .counters,
    .unit "Damage" .damage, .unit "AttachedTo" .attached, .unit "Token" .token,
    .unit "FaceDown" .faceDown, .unit "Player" .player]

/-- An alternative whose content is always `null`. -/
def bareCase (name : String) (f : Facet) : Case Facet :=
  .of name unit (fun _ => f) fun g => if g = f then some () else none

def facet : Codec Facet :=
  cases [
    .of "Card" card .card fun
      | .card c => some c
      | _ => none,
    .of "Owner" seat .owner fun
      | .owner s => some s
      | _ => none,
    .of "Controller" seat .controller fun
      | .controller s => some s
      | _ => none,
    bareCase "Tapped" .tapped,
    .of "EnteredBattlefield"
      ((Fields.required "turn" word).and <| .required "timestamp" long).codec
      (fun (turn, timestamp) => .entered turn timestamp) fun
      | .entered turn timestamp => some (turn, timestamp)
      | _ => none,
    .of "Attacking" (Fields.required "defender" objectId).codec .attacking fun
      | .attacking o => some o
      | _ => none,
    .of "Blocking" (Fields.required "attackers" objectId.list).codec .blocking fun
      | .blocking os => some os
      | _ => none,
    bareCase "Blocked" .blocked,
    .of "Counters" counters .counters fun
      | .counters c => some c
      | _ => none,
    .of "Damage" (Fields.required "amount" amount).codec .damage fun
      | .damage n => some n
      | _ => none,
    .of "AttachedTo" (Fields.required "host" objectId).codec .attached fun
      | .attached o => some o
      | _ => none,
    bareCase "Token" .token,
    bareCase "FaceDown" .faceDown,
    .of "Player" ((Fields.required "life" amount).and <| .required "poison" word).codec
      (fun (life, poison) => .player life poison) fun
      | .player life poison => some (life, poison)
      | _ => none]

def step : Codec Step :=
  cases [.unit "Untap" .untap, .unit "Upkeep" .upkeep, .unit "Draw" .draw,
    .unit "PrecombatMain" .precombatMain, .unit "BeginCombat" .beginCombat,
    .unit "DeclareAttackers" .declareAttackers, .unit "DeclareBlockers" .declareBlockers,
    .unit "CombatDamage" .combatDamage, .unit "EndCombat" .endCombat,
    .unit "PostcombatMain" .postcombatMain, .unit "End" .endStep, .unit "Cleanup" .cleanup]

def turn : Codec Turn :=
  (((Fields.required "turn_number" word).and <|
    (Fields.required "active_player" seat).and <|
    (Fields.required "priority_player" seat).and <| .required "step" step).iso
      (fun (number, active, priority, step) => { number, active, priority, step })
      (fun t => (t.number, t.active, t.priority, t.step))).codec

end Codec

namespace Binary

def objectId : Binary ObjectId := Codec.objectId.toBinary
def long : Binary Nat := nat 8
def word : Binary Nat := nat 4

def facets : Binary Facets :=
  (map Codec.facetKind.toBinary Codec.facet.toBinary).iso .mk (·.byKind)

def zones : Binary Zones :=
  ((map objectId Codec.zone.toBinary).pair <|
    (map Codec.zone.toBinary objectId.list).pair long).iso
      (fun (location, contents, seats) => { location, contents, seats })
      (fun zs => (zs.location, zs.contents, zs.seats))

/-- The seed and the place in the stream; a place beyond the period is one within it. -/
def random : Binary Random :=
  (long.pair (nat 16)).iso (fun (seed, position) => .resume seed position)
    (fun r => (r.seed, r.position))

/-- The stack is saved from the bottom up. -/
def game : Binary Game :=
  (long.pair <| (map objectId facets).pair <| zones.pair <|
    Codec.floatingEffect.toBinary.list.pair <| Codec.frame.toBinary.list.pair <|
    Codec.decision.toBinary.option.pair <| Codec.turn.toBinary.pair <| random.pair <|
    word.pair <| long.pair <| word.pair word).iso
      (fun (seats, objects, zones, floating, frames, pending, turn, random, nextObject,
          nextTimestamp, nextFloating, nextDecision) =>
        { seats, objects, zones, floating, stack := frames.reverse, pending, turn, random,
          nextObject, nextTimestamp, nextFloating, nextDecision })
      (fun g =>
        (g.seats, g.objects, g.zones, g.floating, g.stack.reverse, g.pending, g.turn, g.random,
          g.nextObject, g.nextTimestamp, g.nextFloating, g.nextDecision))

end Binary

namespace Game

/-- Saves a game. -/
def toBytes (g : Game) : List UInt8 := Binary.game.write g []

/-- Restores a saved game. Bytes behind it are ignored. -/
def ofBytes (bytes : List UInt8) : Except Failure Game :=
  match Binary.game.read bytes with
  | none => .error .malformed
  | some (g, _) => do
    g.check
    return g

end Game

end CardGame
