import CardGame.Collection.SortedSet

/-!
The words of a card: its types, colors, keywords and the counters that can lie on it.
-/

namespace CardGame

/-- Card types of the type line. -/
inductive CardType where
  | artifact | battle | creature | enchantment | instant | land | planeswalker | sorcery
deriving DecidableEq

/-- Whether objects of the type can stay on the battlefield. -/
def CardType.isPermanent : CardType → Bool
  | .instant | .sorcery => false
  | _ => true

inductive Supertype where
  | basic | legendary | snow | world
deriving DecidableEq

/-- A subtype is an open word such as `Goblin` or `Forest`. -/
structure CardSubtype where
  name : String
deriving DecidableEq

inductive Color where
  | white | blue | black | red | green
deriving DecidableEq

namespace Color

def all : List Color := [.white, .blue, .black, .red, .green]

def name : Color → String
  | .white => "white"
  | .blue => "blue"
  | .black => "black"
  | .red => "red"
  | .green => "green"

/-- The bit that stands for the color in a set. -/
def bit : Color → Nat
  | .white => 1
  | .blue => 2
  | .black => 4
  | .red => 8
  | .green => 16

end Color

/-- A set of colors as a bit mask. Bits that stand for no color are kept. -/
structure ColorSet where
  bits : Nat
deriving DecidableEq

namespace ColorSet

def colorless : ColorSet := ⟨0⟩

instance : Inhabited ColorSet := ⟨colorless⟩

def insert (s : ColorSet) (c : Color) : ColorSet := ⟨s.bits ||| c.bit⟩

def ofList (cs : List Color) : ColorSet := cs.foldl insert colorless

def union (s t : ColorSet) : ColorSet := ⟨s.bits ||| t.bits⟩

def contains (s : ColorSet) (c : Color) : Bool := s.bits &&& c.bit ≠ 0

def intersects (s t : ColorSet) : Bool := s.bits &&& t.bits ≠ 0

def isColorless (s : ColorSet) : Bool := s.bits = 0

/-- The number of bits set, each of which counts as a color. -/
def count (s : ColorSet) : Nat := ((List.range 8).filter s.bits.testBit).length

/-- The colors of the set, in color order. -/
def toList (s : ColorSet) : List Color := Color.all.filter s.contains

end ColorSet

/-- Keyword abilities. -/
inductive Keyword where
  | deathtouch | defender | doubleStrike | firstStrike | flying | haste | hexproof
  | indestructible | lifelink | menace | reach | shroud | trample | vigilance
  | protectionFrom (color : Color)
deriving DecidableEq

/-- The name a player reads. -/
def Keyword.text : Keyword → String
  | .deathtouch => "Deathtouch"
  | .defender => "Defender"
  | .doubleStrike => "DoubleStrike"
  | .firstStrike => "FirstStrike"
  | .flying => "Flying"
  | .haste => "Haste"
  | .hexproof => "Hexproof"
  | .indestructible => "Indestructible"
  | .lifelink => "Lifelink"
  | .menace => "Menace"
  | .reach => "Reach"
  | .shroud => "Shroud"
  | .trample => "Trample"
  | .vigilance => "Vigilance"
  | .protectionFrom color => "protection from " ++ color.name

/-- Kinds of counters. -/
inductive CounterKind where
  | plusOnePlusOne | minusOneMinusOne | loyalty | charge
  | named (name : String)
deriving DecidableEq

instance : Ranked CardType where
  rank t := [t.ctorIdx]
  rank_inj {a b} h := by cases a <;> cases b <;> first | rfl | cases h

instance : Ranked Supertype where
  rank t := [t.ctorIdx]
  rank_inj {a b} h := by cases a <;> cases b <;> first | rfl | cases h

instance : Ranked Color where
  rank c := [c.ctorIdx]
  rank_inj {a b} h := by cases a <;> cases b <;> first | rfl | cases h

instance : Ranked CardSubtype where
  rank s := Ranked.rank s.name
  rank_inj {a b} h := by
    cases a
    cases b
    exact congrArg CardSubtype.mk (Ranked.rank_inj h)

/-- Protection comes after every other keyword, by color. -/
instance : Ranked Keyword where
  rank
    | .protectionFrom color => [Keyword.ctorIdx (.protectionFrom color), color.ctorIdx]
    | k => [k.ctorIdx]
  rank_inj {a b} h := by
    cases a <;> cases b <;> first | rfl | cases h | skip
    next c d => cases c <;> cases d <;> first | rfl | cases h

/-- Named counters come after every other kind, by name. -/
instance : Ranked CounterKind where
  rank
    | .named name => CounterKind.ctorIdx (.named name) :: Ranked.rank name
    | k => [k.ctorIdx]
  rank_inj {a b} h := by
    cases a <;> cases b <;> first | rfl | cases h | skip
    next n m => exact congrArg CounterKind.named (Ranked.rank_inj (List.cons.inj h).2)

end CardGame
