import CardGame.Decision.Basic
import CardGame.Effect.Basic
import CardGame.Effect.Context

/-!
Suspended work: what remains to be done once a player has answered.
-/

namespace CardGame

/-- Work that waits for an answer, or for the work above it on the stack. -/
inductive Suspension where
  | effects (remaining : List Effect) (context : Context)
  | eachPlayerChooses (choice : PlayerChoice) (current : Seat) (remaining : List Seat)
      (picks : List (Seat × Pick)) (context : Context)
  | search (player : Seat) (destination : ZoneKind) (tapped : Bool)
  | scry (player : Seat)
  | reorder (player : Seat)
  | separatePiles (chooser : Seat) (revealed : List ObjectId) (source : Option ObjectId)
  | choosePile (player : Seat) (first second : List ObjectId)
  | may (effect : Effect) (context : Context)
  | modal (modes : List Mode) (context : Context)
  | payOrSuffer (payer : Seat) (cost : Cost) (suffer : Effect) (context : Context)
  | payCost (payer : Seat) (cost : Cost)
  | chooseColor (target : ObjectId) (duration : Duration) (context : Context)
  | chooseTargets (effect : Effect) (context : Context)
  | distributeCounters (kind : CounterKind) (context : Context)
  | divideDamage (context : Context)
deriving DecidableEq

def Suspension.name : Suspension → String
  | .effects .. => "pending effects"
  | .eachPlayerChooses .. => "each player chooses"
  | .search .. => "search library"
  | .scry .. => "scry"
  | .reorder .. => "reorder"
  | .separatePiles .. => "separate piles"
  | .choosePile .. => "choose pile"
  | .may .. => "may"
  | .modal .. => "modal"
  | .payOrSuffer .. => "pay or suffer"
  | .payCost .. => "pay cost"
  | .chooseColor .. => "choose color"
  | .chooseTargets .. => "target on resolution"
  | .distributeCounters .. => "distribute counters"
  | .divideDamage .. => "divided damage"

/-- Suspended work on the stack, with the decision it waits for. Work that waits only for the frames
above it names no decision. -/
structure Frame where
  decision : Option DecisionId
  work : Suspension
deriving DecidableEq

end CardGame
