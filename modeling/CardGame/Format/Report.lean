import CardGame.Format.Snapshot
import CardGame.Play

/-!
What is shown of a game as it goes on: failures, results, and a summary of the whole game. Unlike a
saved game, a summary leaves out what is empty, and it cannot be read back.
-/

namespace CardGame

def Failure.Category.name : Failure.Category → String
  | .objectNotFound => "EntityNotFound"
  | .misplaced => "NotInZone"
  | .invalidTarget => "InvalidTarget"
  | .unbound => "MissingBinding"
  | .wrongAnswer => "InvalidResponse"
  | .outOfBounds => "ResponseOutOfBounds"
  | .noDecisionPending => "NoPendingDecision"
  | .decisionPending => "DecisionPending"
  | .nothingToResume => "NoContinuation"
  | .otherDecisionPending => "DecisionMismatch"
  | .chainTooLong => "ChainLimitExceeded"
  | .brokenInvariant => "InvariantViolated"
  | .unresolvedEffect => "MissingExecutor"
  | .foreignEffect => "WrongEffectKind"
  | .invalidSettings => "InvalidConfig"
  | .malformed => "Serialization"

/-- The members that report a failure. How data is malformed is not told. -/
def Failure.report (f : Failure) : List (String × Json) :=
  match f.category with
  | .malformed => [("error", .str f.category.name)]
  | category =>
    [("error", .str category.name), ("message", .str f.message),
      ("protocol", .bool f.isProtocolViolation)]

/-- The members that report a result: how it ended, and what happened on the way. -/
def Result.report : Result → List (String × Json)
  | .success _ events =>
    [("result", .str "success"), ("events", Codec.event.list.toJson events)]
  | .paused _ decision events =>
    [("result", .str "paused"), ("decision", Codec.decision.toJson decision),
      ("events", Codec.event.list.toJson events)]
  | .failed _ failure => ("result", .str "error") :: failure.report

/-- The zones of some players that hold objects, owner by owner. -/
def Zones.summary (zs : Zones) (owners : List Seat) : Json :=
  .arr <| owners.flatMap fun owner => ZoneKind.all.filterMap fun kind =>
    match zs.objects ⟨owner, kind⟩ with
    | [] => none
    | os => some (.arr [.nat owner.index, .str kind.name, Codec.objectId.list.toJson os])

def Counters.summary (c : Counters) : Json :=
  .arr (c.counts.entries.map fun p => .arr [Codec.counterKind.toJson p.1, .nat p.2])

def Facet.summary : Facet → String × Json
  | .card c => ("name", .str c.name)
  | .owner s => ("owner", Codec.seat.toJson s)
  | .controller s => ("controller", Codec.seat.toJson s)
  | .tapped => ("tapped", .bool true)
  | .entered turn timestamp => ("entered", .arr [.nat turn, .nat timestamp])
  | .attacking o => ("attacking", Codec.objectId.toJson o)
  | .blocking os => ("blocking", Codec.objectId.list.toJson os)
  | .blocked => ("blocked", .bool true)
  | .counters c => ("counters", c.summary)
  | .damage n => ("damage", .int n)
  | .attached o => ("attached", Codec.objectId.toJson o)
  | .token => ("token", .bool true)
  | .faceDown => ("face_down", .bool true)
  | .player life poison => ("player", .arr [.int life, .nat poison])

/-- The facets of an object. Where a facet is held under another kind's entry, only those entries
show whose presence alone counts. -/
def Facets.summary (fs : Facets) : Json :=
  .obj <| fs.byKind.entries.filterMap fun (kind, f) =>
    if f.kind = kind then some f.summary
    else
      match kind with
      | .tapped => some Facet.tapped.summary
      | .blocked => some Facet.blocked.summary
      | .token => some Facet.token.summary
      | .faceDown => some Facet.faceDown.summary
      | _ => none

/-- A game at a glance, the stack from the bottom up. -/
def Game.summary (g : Game) : Json := .obj [
  ("continuations", Codec.frame.list.toJson g.stack.reverse),
  ("entities", .arr (g.objects.entries.map fun (o, fs) => .arr [.nat o.val, fs.summary])),
  ("floating", Codec.floatingEffect.list.toJson g.floating),
  ("pending", Codec.decision.option.toJson g.pending),
  ("rng", .arr [.nat g.random.seed, .str (toString g.random.position)]),
  ("turn", Codec.turn.toJson g.turn),
  ("zones", g.zones.summary g.players)]

end CardGame
