import CardGame.Amount

/-!
What is printed on a card: its characteristics and its static abilities.
-/

namespace CardGame

/-- An ability that changes characteristics for as long as its object is on the battlefield. Only
one that defines the object's own power and toughness works in every zone. -/
inductive StaticAbility where
  | modifyGroup (filter : ObjectFilter) (power toughness : Int)
  | grantKeyword (filter : ObjectFilter) (keyword : Keyword)
  | addCardType (filter : ObjectFilter) (cardType : CardType)
  | definePowerToughness (power toughness : Amount)
deriving DecidableEq

/-- Whether the ability defines a characteristic of its own object. -/
def StaticAbility.isDefining : StaticAbility → Bool
  | .definePowerToughness _ _ => true
  | _ => false

/-- The printed characteristics of a card or token. -/
structure Face where
  name : String := ""
  manaValue : Nat := 0
  colors : ColorSet := .colorless
  supertypes : SortedSet Supertype := ∅
  types : SortedSet CardType := ∅
  subtypes : SortedSet CardSubtype := ∅
  power : Option Int := none
  toughness : Option Int := none
  keywords : SortedSet Keyword := ∅
  abilities : List StaticAbility := []
deriving DecidableEq

/-- A card or token in the game, with the catalog card it is an instance of. -/
structure Card extends Face where
  definition : Option CardId := none
deriving DecidableEq

/-- A card of the catalog. -/
structure CardDefinition extends Face where
  id : CardId := ⟨0⟩
deriving DecidableEq

namespace CardDefinition

/-- The card that instances of the definition are. -/
def toCard (d : CardDefinition) : Card := { toFace := d.toFace, definition := some d.id }

/-- A blank card of some types. -/
def ofTypes (id : CardId) (name : String) (types : List CardType) : CardDefinition :=
  { id, name, types := .ofList types }

def creature (id : CardId) (name : String) (power toughness : Int) : CardDefinition :=
  { ofTypes id name [.creature] with power := some power, toughness := some toughness }

def land (id : CardId) (name : String) : CardDefinition := ofTypes id name [.land]

def withManaValue (d : CardDefinition) (n : Nat) : CardDefinition := { d with manaValue := n }

def withColor (d : CardDefinition) (c : Color) : CardDefinition :=
  { d with colors := d.colors.insert c }

def withType (d : CardDefinition) (t : CardType) : CardDefinition :=
  { d with types := d.types.insert t }

def withSupertype (d : CardDefinition) (s : Supertype) : CardDefinition :=
  { d with supertypes := d.supertypes.insert s }

def withSubtype (d : CardDefinition) (s : CardSubtype) : CardDefinition :=
  { d with subtypes := d.subtypes.insert s }

def withKeyword (d : CardDefinition) (k : Keyword) : CardDefinition :=
  { d with keywords := d.keywords.insert k }

def withAbility (d : CardDefinition) (a : StaticAbility) : CardDefinition :=
  { d with abilities := d.abilities ++ [a] }

end CardDefinition

/-- The description of a token that an effect creates. -/
structure TokenTemplate where
  name : String
  colors : ColorSet
  types : SortedSet CardType
  subtypes : SortedSet CardSubtype
  power : Option Int
  toughness : Option Int
  keywords : SortedSet Keyword
deriving DecidableEq

namespace TokenTemplate

def creature (name : String) (power toughness : Int) : TokenTemplate where
  name
  colors := .colorless
  types := .singleton .creature
  subtypes := ∅
  power := some power
  toughness := some toughness
  keywords := ∅

def withSubtype (t : TokenTemplate) (s : CardSubtype) : TokenTemplate :=
  { t with subtypes := t.subtypes.insert s }

def withKeyword (t : TokenTemplate) (k : Keyword) : TokenTemplate :=
  { t with keywords := t.keywords.insert k }

def withColors (t : TokenTemplate) (cs : ColorSet) : TokenTemplate := { t with colors := cs }

/-- The token's characteristics in the game. -/
def toCard (t : TokenTemplate) : Card where
  name := t.name
  colors := t.colors
  types := t.types
  subtypes := t.subtypes
  power := t.power
  toughness := t.toughness
  keywords := t.keywords

end TokenTemplate

end CardGame
