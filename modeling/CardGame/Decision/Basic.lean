import CardGame.Identity
import CardGame.Card.Vocabulary

/-!
Decisions put to players and their answers.
-/

namespace CardGame

/-- What a player is asked, with everything needed to judge an answer. -/
inductive Question where
  | targets (legal : List ObjectId) (min max : Nat)
  | cards (options : List ObjectId) (min max : Nat) (ordered : Bool)
  | yesNo
  | modes (descriptions : List String) (min max : Nat)
  | color (options : List Color)
  | option (options : List String)
  | number (min max : Int)
  | distribution (total : Nat) (recipients : List ObjectId) (minimum : Nat)
  | order (objects : List ObjectId)
  | piles (objects : List ObjectId)
deriving DecidableEq

def Question.name : Question → String
  | .targets .. => "choose targets"
  | .cards .. => "select cards"
  | .yesNo => "yes/no"
  | .modes .. => "choose mode"
  | .color .. => "choose color"
  | .option .. => "choose option"
  | .number .. => "choose number"
  | .distribution .. => "distribute amount"
  | .order .. => "order objects"
  | .piles .. => "split piles"

/-- What a player answers. -/
inductive Answer where
  | targets (chosen : List ObjectId)
  | cards (chosen : List ObjectId)
  | yesNo (yes : Bool)
  | modes (chosen : List Nat)
  | color (chosen : Color)
  | option (index : Nat)
  | number (n : Int)
  | distribution (shares : SortedMap ObjectId Nat)
  | order (objects : List ObjectId)
  | firstPile (objects : List ObjectId)
deriving DecidableEq

def Answer.name : Answer → String
  | .targets _ => "targets"
  | .cards _ => "cards"
  | .yesNo _ => "yes/no"
  | .modes _ => "modes"
  | .color _ => "color"
  | .option _ => "option"
  | .number _ => "number"
  | .distribution _ => "distribution"
  | .order _ => "order"
  | .firstPile _ => "pile"

/-- A question that waits for a player's answer. -/
structure Decision where
  id : DecisionId
  player : Seat
  prompt : String
  source : Option ObjectId
  question : Question
deriving DecidableEq

/-- An answer to the decision of a given identity. -/
structure Response where
  decision : DecisionId
  answer : Answer
deriving DecidableEq

end CardGame
