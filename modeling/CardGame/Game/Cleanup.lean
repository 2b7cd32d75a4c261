import CardGame.Game.Basic

/-!
The hooks of the turn at which floating effects end. Each answers the game afterwards and the events
of the effects that ended.
-/

namespace CardGame

namespace Game

/-- Ends the floating effects that are not kept. -/
def expire (g : Game) (keep : FloatingEffect → Bool) : Game × List Event :=
  ({ g with floating := g.floating.filter keep },
    (g.floating.filter (!keep ·)).map fun e => .floatingExpired e.id)

/-- Ends the floating effects that no longer work. -/
def sweep (g : Game) : Game × List Event := g.expire g.isActive

/-- One turn less to go. -/
def countDown (e : FloatingEffect) : FloatingEffect :=
  match e.duration with
  | .forTurns n => { e with duration := .forTurns (n - 1) }
  | _ => e

/-- Whether a floating effect, already counted down, outlasts the end of a turn. -/
def outlastsTurn (e : FloatingEffect) : Bool :=
  e.duration ≠ .endOfTurn && e.duration ≠ .forTurns 0 &&
    e.modification.change ≠ .regenerationShield

/-- The end of a turn: durations run down, damage wears off, and what no longer works ends. -/
def endOfTurn (g : Game) : Game × List Event :=
  let (g, expired) := { g with floating := g.floating.map countDown }.expire outlastsTurn
  let g := g.battlefield.foldl (fun g o => g.eraseFacet o .damage) g
  let (g, swept) := g.sweep
  (g, expired ++ swept)

/-- The end of combat. -/
def endOfCombat (g : Game) : Game × List Event := g.expire (·.duration ≠ .endOfCombat)

/-- The beginning of a player's turn. -/
def beginTurn (g : Game) (s : Seat) : Game × List Event :=
  g.expire fun e => !(e.duration = .untilYourNextTurn && e.controller = s)

end Game

end CardGame
