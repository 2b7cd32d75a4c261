import CardGame.Identity
import CardGame.Card.Vocabulary

/-!
Changes to an object's characteristics, the stage of the layer system at which each applies, and
how long it lasts.
-/

namespace CardGame

/-- The layers, in the order in which they apply. -/
inductive Layer where
  | control | cardType | color | ability | powerToughness | marker
deriving DecidableEq

/-- The parts of the power and toughness layer, in the order in which they apply. -/
inductive Sublayer where
  | setBase | modify | counters
deriving DecidableEq

/-- A step of the layer system. -/
structure Stage where
  layer : Layer
  sublayer : Option Sublayer := none
deriving DecidableEq

namespace Stage

def control : Stage := ⟨.control, none⟩
def cardType : Stage := ⟨.cardType, none⟩
def color : Stage := ⟨.color, none⟩
def ability : Stage := ⟨.ability, none⟩
def setBase : Stage := ⟨.powerToughness, some .setBase⟩
def modify : Stage := ⟨.powerToughness, some .modify⟩
def counters : Stage := ⟨.powerToughness, some .counters⟩
def marker : Stage := ⟨.marker, none⟩

/-- Every step, in order. -/
def all : List Stage := [control, cardType, color, ability, setBase, modify, counters, marker]

end Stage

/-- A change to the characteristics of an object. -/
inductive Modification where
  | changeController (seat : Seat)
  | addTypes (types : SortedSet CardType)
  | removeTypes (types : SortedSet CardType)
  | addSubtypes (subtypes : SortedSet CardSubtype)
  | setColors (colors : ColorSet)
  | addColors (colors : ColorSet)
  | grantKeyword (keyword : Keyword)
  | removeKeyword (keyword : Keyword)
  | setBase (power toughness : Int)
  | modify (power toughness : Int)
  | exileOnDeath
  | regenerationShield
deriving DecidableEq

/-- The stage at which a change belongs. -/
def Modification.stage : Modification → Stage
  | .changeController _ => .control
  | .addTypes _ | .removeTypes _ | .addSubtypes _ => .cardType
  | .setColors _ | .addColors _ => .color
  | .grantKeyword _ | .removeKeyword _ => .ability
  | .setBase _ _ => .setBase
  | .modify _ _ => .modify
  | .exileOnDeath | .regenerationShield => .marker

/-- A change with the stage at which it is applied. -/
structure PlacedModification where
  stage : Stage
  change : Modification
deriving DecidableEq

/-- A change applied at the stage where it belongs. -/
def Modification.placed (m : Modification) : PlacedModification := ⟨m.stage, m⟩

/-- How long a floating effect lasts. -/
inductive Duration where
  | permanent
  | endOfTurn
  | endOfCombat
  | untilYourNextTurn
  | whileSourceOnBattlefield
  | whileAttached
  | forTurns (n : Nat)
deriving DecidableEq

/-- A change that lasts beyond the effect that made it. -/
structure FloatingEffect where
  id : FloatingId
  modification : PlacedModification
  affected : SortedSet ObjectId
  duration : Duration
  source : Option ObjectId
  controller : Seat
  timestamp : Nat
  createdTurn : Nat
deriving DecidableEq

end CardGame
