import CardGame.Identity
import CardGame.Card.Vocabulary

/-!
Filters say which objects an effect means. A filter tests an object on three axes: what its card
says, how it lies on the battlefield, and who controls or owns it.
-/

namespace CardGame

/-- A range of numbers. -/
inductive NumberTest where
  | equal (n : Int)
  | atLeast (n : Int)
  | atMost (n : Int)
  | between (lo hi : Int)
deriving DecidableEq

def NumberTest.accepts : NumberTest → Int → Bool
  | .equal n, x => x = n
  | .atLeast n, x => n ≤ x
  | .atMost n, x => x ≤ n
  | .between lo hi, x => lo ≤ x && x ≤ hi

/-- A single fact about an object's characteristics. -/
inductive CardFact where
  | isType (t : CardType)
  | hasSubtype (s : CardSubtype)
  | hasSupertype (s : Supertype)
  | hasColor (c : Color)
  | colorless
  | multicolored
  | manaValue (test : NumberTest)
  | power (test : NumberTest)
  | toughness (test : NumberTest)
  | hasKeyword (k : Keyword)
  | isToken
  | isNontoken
  | nameIs (name : String)
deriving DecidableEq

/-- A combination of facts about an object's characteristics. -/
inductive CardTest where
  | fact (f : CardFact)
  | all (tests : List CardTest)
  | any (tests : List CardTest)
  | not (test : CardTest)

namespace CardTest

mutual

def same : CardTest → CardTest → Bool
  | .fact f, .fact g => f = g
  | .all xs, .all ys => sameAll xs ys
  | .any xs, .any ys => sameAll xs ys
  | .not x, .not y => same x y
  | _, _ => false

def sameAll : List CardTest → List CardTest → Bool
  | [], [] => true
  | x :: xs, y :: ys => same x y && sameAll xs ys
  | _, _ => false

end

mutual

theorem same_iff : ∀ a b : CardTest, same a b ↔ a = b
  | .fact f, b => by cases b <;> simp [same]
  | .all xs, b => by cases b <;> simp [same, sameAll_iff xs]
  | .any xs, b => by cases b <;> simp [same, sameAll_iff xs]
  | .not x, b => by cases b <;> simp [same, same_iff x]

theorem sameAll_iff : ∀ xs ys : List CardTest, sameAll xs ys ↔ xs = ys
  | [], ys => by cases ys <;> simp [sameAll]
  | x :: xs, ys => by cases ys <;> simp [sameAll, same_iff x, sameAll_iff xs]

end

instance : DecidableEq CardTest := fun a b => decidable_of_iff _ (same_iff a b)

end CardTest

/-- How an object lies in play. The game keeps no record of past damage, so nothing ever satisfies
the last two. -/
inductive StatusTest where
  | tapped
  | untapped
  | attacking
  | blocking
  | blocked
  | unblocked
  | enteredThisTurn
  | hasCounter (kind : CounterKind)
  | attached
  | faceDown
  | wasDealtDamageThisTurn
  | dealtDamageThisTurn
deriving DecidableEq

/-- Whether the game tracks what the test asks. -/
def StatusTest.isTracked : StatusTest → Bool
  | .wasDealtDamageThisTurn | .dealtDamageThisTurn => false
  | _ => true

/-- Who controls or owns an object, as seen by the player using the filter. -/
inductive ControlTest where
  | you
  | opponent
  | targetPlayer (index : Nat)
  | specific (seat : Seat)
  | activePlayer
  | ownedByYou
  | ownedByOpponent
  | ownedByTargetPlayer (index : Nat)
deriving DecidableEq

/-- Accepts the objects that pass every test. -/
structure ObjectFilter where
  card : List CardTest := []
  status : List StatusTest := []
  control : Option ControlTest := none
  otherThanSource : Bool := false
deriving DecidableEq

namespace ObjectFilter

/-- Accepts every object. -/
def anything : ObjectFilter := {}

def withCard (f : ObjectFilter) (test : CardTest) : ObjectFilter :=
  { f with card := f.card ++ [test] }

def withFact (f : ObjectFilter) (fact : CardFact) : ObjectFilter := f.withCard (.fact fact)

def withStatus (f : ObjectFilter) (test : StatusTest) : ObjectFilter :=
  { f with status := f.status ++ [test] }

def controlledBy (f : ObjectFilter) (test : ControlTest) : ObjectFilter :=
  { f with control := some test }

/-- Leaves out the source of the effect. -/
def other (f : ObjectFilter) : ObjectFilter := { f with otherThanSource := true }

def ofType (t : CardType) : ObjectFilter := anything.withFact (.isType t)

def creature : ObjectFilter := ofType .creature

def land : ObjectFilter := ofType .land

/-- Accepts every card type that can stay on the battlefield. -/
def permanent : ObjectFilter :=
  anything.withCard (.any
    ([.artifact, .battle, .creature, .enchantment, .land, .planeswalker].map fun t =>
      .fact (.isType t)))

/-- Whether the game tracks everything that the filter asks. -/
def isTracked (f : ObjectFilter) : Bool := f.status.all StatusTest.isTracked

end ObjectFilter

end CardGame
