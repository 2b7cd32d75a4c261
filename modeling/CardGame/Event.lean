import CardGame.Identity
import CardGame.Layer.Modification
import CardGame.Zone.Basic

/-!
What happens in a game, as told to the players.
-/

namespace CardGame

inductive Event where
  | zoneChanged (object : ObjectId) (source target : Zone)
  | cardDrawn (player : Seat) (object : ObjectId)
  | cardDiscarded (player : Seat) (object : ObjectId)
  | tokenCeased (object : ObjectId)
  | tokenCreated (object : ObjectId) (controller : Seat)
  | libraryShuffled (player : Seat)
  | libraryReordered (player : Seat)
  | cardsRevealed (player : Seat) (cards : List ObjectId)
  | destroyed (object : ObjectId)
  | sacrificed (player : Seat) (object : ObjectId)
  | regenerated (object : ObjectId)
  | tapped (object : ObjectId)
  | untapped (object : ObjectId)
  | countersAdded (object : ObjectId) (kind : CounterKind) (amount : Nat)
  | countersRemoved (object : ObjectId) (kind : CounterKind) (amount : Nat)
  | damageDealt (source : Option ObjectId) (target : ObjectId) (amount : Int)
  | lifeChanged (player : Seat) (before after : Int)
  | floatingCreated (id : FloatingId) (change : Modification) (affected : List ObjectId)
  | floatingExpired (id : FloatingId)
  | decisionRequested (id : DecisionId) (player : Seat)
  | decisionResolved (id : DecisionId) (player : Seat)
  | colorChosen (player : Seat) (color : Color)
  | modesChosen (player : Seat) (modes : List Nat)
  | optionChosen (player : Seat) (option : String)
deriving DecidableEq

/-- The object that the event happens to. -/
def Event.object? : Event → Option ObjectId
  | .zoneChanged o _ _ | .cardDrawn _ o | .cardDiscarded _ o | .tokenCeased o
  | .tokenCreated o _ | .destroyed o | .sacrificed _ o | .regenerated o | .tapped o
  | .untapped o | .countersAdded o _ _ | .countersRemoved o _ _ | .damageDealt _ o _ => some o
  | _ => none

end CardGame
