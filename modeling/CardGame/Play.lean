import CardGame.Game.Cleanup
import CardGame.Resolve.Answer
import CardGame.Decision.Check

/-!
Playing: executing an effect, and resuming with a player's answer. Either way the game that comes
back has no floating effect that has stopped working, and a failure gives the game back unchanged.
-/

namespace CardGame

/-- What came of an effect or an answer. A failure leaves the game as it was. -/
inductive Result where
  | success (game : Game) (events : List Event)
  | paused (game : Game) (decision : Decision) (events : List Event)
  | failed (game : Game) (failure : Failure)
deriving DecidableEq

namespace Result

/-- The game to go on with. -/
def game : Result → Game
  | .success g _ | .paused g _ _ | .failed g _ => g

def events : Result → List Event
  | .success _ es | .paused _ _ es => es
  | .failed _ _ => []

/-- The result of a resolution of a game. -/
def ofRun (g : Game) : Except Failure (Outcome × Progress) → Result
  | .ok (.done, p) => .success p.game p.events
  | .ok (.paused decision, p) => .paused p.game decision p.events
  | .error failure => .failed g failure

end Result

namespace Resolve

/-- Ends a resolution: floating effects that no longer work are dropped. -/
def settled (r : Resolve Outcome) : Resolve Outcome := do
  let outcome ← r
  let (g, expired) := (← game).sweep
  update fun _ => g
  expired.forM emit
  return outcome

/-- The result of resolving something in a game. -/
def resultIn (g : Game) (r : Resolve Outcome) : Result := .ofRun g (r.run { game := g })

end Resolve

namespace Rules

/-- Resolves the suspended effects left on the stack, as long as nobody has to be asked and for a
limited number of frames. -/
def chain (rules : Rules) : Nat → Outcome → Resolve Outcome
  | _, .paused decision => return .paused decision
  | steps, .done => do
    match (← Resolve.game).stack with
    | [] => return .done
    | ⟨some id, _⟩ :: _ => throw (.decisionNotPending id)
    | ⟨none, work⟩ :: rest =>
      match steps with
      | 0 => throw (.chainTooLong rules.chainLimit)
      | steps + 1 =>
        match work with
        | .effects remaining ctx =>
          Resolve.update fun g => { g with stack := rest }
          chain rules steps (← Effect.resolveAll rules remaining ctx)
        | other => throw (.undecidedFrame other.name)

/-- Executes an effect, unless a decision is pending. -/
def execute (rules : Rules) (g : Game) (e : Effect) (ctx : Context) : Result :=
  match g.pending with
  | some d => .failed g (.decisionPending d.id)
  | none => (Resolve.settled (e.resolve rules ctx)).resultIn g

/-- Executes an effect as one of a family, in the middle of a resolution: pending decisions and
floating effects that have stopped working are left alone. -/
def executeAs (rules : Rules) (family : Family) (g : Game) (e : Effect) (ctx : Context) : Result :=
  if e.family = family then Resolve.resultIn g (e.resolve rules ctx)
  else .failed g (.foreignKind family e.kind)

/-- The decision that a response answers, and the work that waits for it. -/
def expected (g : Game) (r : Response) : Except Failure (Decision × Suspension) :=
  match g.pending with
  | none => .error .noDecisionPending
  | some d =>
    if d.id ≠ r.decision then .error (.otherDecisionPending d.id r.decision)
    else
      match g.stack with
      | ⟨some id, work⟩ :: _ =>
        if id = d.id then .ok (d, work) else .error (.nothingToResume d.id)
      | _ => .error (.nothingToResume d.id)

/-- Goes on with the work that waited for an answer, then with the effects suspended beneath it. -/
def proceed (rules : Rules) (d : Decision) (work : Suspension) (answer : Answer) :
    Resolve Outcome := do
  Resolve.update fun g => { g with pending := none, stack := g.stack.tail }
  Resolve.emit (.decisionResolved d.id d.player)
  chain rules rules.chainLimit (← work.resume rules d answer)

/-- Resumes with a player's response. -/
def resume (rules : Rules) (g : Game) (r : Response) : Result :=
  match expected g r with
  | .error failure => .failed g failure
  | .ok (d, work) =>
    match d.question.check r.answer with
    | .error failure => .failed g failure
    | .ok () => (Resolve.settled (proceed rules d work r.answer)).resultIn g

/-- The legal targets of a requirement in a game. -/
def legalTargets (rules : Rules) (g : Game) (ctx : Context) (r : Requirement) : List ObjectId :=
  (rules.view g).legalTargets ctx r

end Rules

end CardGame
