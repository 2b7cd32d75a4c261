import CardGame.Game.Basic
import CardGame.Saturating

/-!
The characteristics of objects, before and after continuous effects.
-/

namespace CardGame

/-- The characteristics that the rules look at. -/
structure Characteristics where
  name : String
  owner : Option Seat
  controller : Option Seat
  manaValue : Nat
  types : SortedSet CardType
  supertypes : SortedSet Supertype
  subtypes : SortedSet CardSubtype
  colors : ColorSet
  keywords : SortedSet Keyword
  power : Option Int
  toughness : Option Int
  exileOnDeath : Bool
  regenerationShields : Nat
deriving DecidableEq

namespace Characteristics

/-- Everyone sees a face-down object as a nameless 2/2 creature. -/
def faceDown (owner controller : Option Seat) : Characteristics where
  name := ""
  owner
  controller
  manaValue := 0
  types := .singleton .creature
  supertypes := ∅
  subtypes := ∅
  colors := .colorless
  keywords := ∅
  power := some 2
  toughness := some 2
  exileOnDeath := false
  regenerationShields := 0

/-- The characteristics printed on a card. -/
def printed (c : Card) (owner controller : Option Seat) : Characteristics where
  name := c.name
  owner
  controller
  manaValue := c.manaValue
  types := c.types
  supertypes := c.supertypes
  subtypes := c.subtypes
  colors := c.colors
  keywords := c.keywords
  power := c.power
  toughness := c.toughness
  exileOnDeath := false
  regenerationShields := 0

/-- The characteristics of an object apart from continuous effects. Only cards and tokens have
some. -/
def base? (g : Game) (o : ObjectId) : Option Characteristics :=
  (g.facets o).card?.map fun c =>
    if g.has o .faceDown then faceDown (g.owner? o) (g.baseController? o)
    else printed c (g.owner? o) (g.baseController? o)

def hasType (c : Characteristics) (t : CardType) : Bool := c.types.contains t

def hasKeyword (c : Characteristics) (k : Keyword) : Bool := c.keywords.contains k

/-- Whether the object is protected from one of the colors. -/
def isProtectedFrom (c : Characteristics) (colors : ColorSet) : Bool :=
  c.keywords.toList.any fun
    | .protectionFrom color => colors.contains color
    | _ => false

/-- The characteristics after a change. Bonuses go only to objects with power and toughness. -/
def apply (c : Characteristics) : Modification → Characteristics
  | .changeController seat => { c with controller := some seat }
  | .addTypes types => { c with types := c.types.union types }
  | .removeTypes types => { c with types := c.types.diff types }
  | .addSubtypes subtypes => { c with subtypes := c.subtypes.union subtypes }
  | .setColors colors => { c with colors }
  | .addColors colors => { c with colors := c.colors.union colors }
  | .grantKeyword keyword => { c with keywords := c.keywords.insert keyword }
  | .removeKeyword keyword => { c with keywords := c.keywords.erase keyword }
  | .setBase power toughness => { c with power := some power, toughness := some toughness }
  | .modify power toughness =>
    { c with
      power := c.power.map fun p => saturate (p + power)
      toughness := c.toughness.map fun t => saturate (t + toughness) }
  | .exileOnDeath => { c with exileOnDeath := true }
  | .regenerationShield => { c with regenerationShields := c.regenerationShields + 1 }

end Characteristics

/-- The characteristics of every card and token of a game. -/
abbrev Projection := SortedMap ObjectId Characteristics

namespace Projection

/-- The characteristics apart from continuous effects. -/
def base (g : Game) : Projection := g.objects.choose fun o _ => Characteristics.base? g o

def controller? (p : Projection) (o : ObjectId) : Option Seat :=
  (SortedMap.find? p o).bind (·.controller)

def power? (p : Projection) (o : ObjectId) : Option Int := (SortedMap.find? p o).bind (·.power)

def toughness? (p : Projection) (o : ObjectId) : Option Int :=
  (SortedMap.find? p o).bind (·.toughness)

def hasType (p : Projection) (o : ObjectId) (t : CardType) : Bool :=
  (SortedMap.find? p o).any (·.hasType t)

def hasKeyword (p : Projection) (o : ObjectId) (k : Keyword) : Bool :=
  (SortedMap.find? p o).any (·.hasKeyword k)

/-- Changes the characteristics of one object. -/
def apply (p : Projection) (o : ObjectId) (m : Modification) : Projection :=
  p.modify o (·.apply m)

/-- Changes the characteristics of some objects. -/
def applyAll (p : Projection) (objects : List ObjectId) (m : Modification) : Projection :=
  objects.foldl (fun p o => p.apply o m) p

end Projection

end CardGame
