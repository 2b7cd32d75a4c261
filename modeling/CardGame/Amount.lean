import CardGame.ObjectFilter
import CardGame.Zone.Basic

/-!
Amounts and conditions that are worked out when an effect resolves, and the references to objects
and players in them.
-/

namespace CardGame

/-- Names an object by its role in the effect. -/
inductive Reference where
  | source
  | target (index : Nat)
  | sacrificed (index : Nat)
  | triggering
  | fixed (object : ObjectId)
deriving DecidableEq

/-- The reference as an error names it. -/
def Reference.text : Reference → String
  | .source => "Source"
  | .target index => "Target(" ++ toString index ++ ")"
  | .sacrificed index => "Sacrificed(" ++ toString index ++ ")"
  | .triggering => "Triggering"
  | .fixed object => "Fixed(EntityId(" ++ toString object.val ++ "))"

/-- Names players by their role in the effect. -/
inductive Selector where
  | you
  | opponent
  | eachOpponent
  | eachPlayer
  | activePlayer
  | targetPlayer (index : Nat)
  | triggeringPlayer
  | controllerOf (object : Reference)
  | ownerOf (object : Reference)
  | specific (seat : Seat)
deriving DecidableEq

/-- The selector as an error names it. -/
def Selector.text : Selector → String
  | .you => "You"
  | .opponent => "Opponent"
  | .eachOpponent => "EachOpponent"
  | .eachPlayer => "EachPlayer"
  | .activePlayer => "ActivePlayer"
  | .targetPlayer index => "TargetPlayer(" ++ toString index ++ ")"
  | .triggeringPlayer => "TriggeringPlayer"
  | .controllerOf object => "ControllerOf(" ++ object.text ++ ")"
  | .ownerOf object => "OwnerOf(" ++ object.text ++ ")"
  | .specific seat => "Specific(PlayerId(" ++ toString seat.index ++ "))"

/-- How two amounts compare. -/
inductive Relation where
  | eq | ne | lt | le | gt | ge
deriving DecidableEq

def Relation.holds : Relation → Int → Int → Bool
  | .eq, x, y => x = y
  | .ne, x, y => x ≠ y
  | .lt, x, y => x < y
  | .le, x, y => x ≤ y
  | .gt, x, y => x > y
  | .ge, x, y => x ≥ y

/-- An amount read off the game. The game keeps no record of past damage, so the last one is 0. -/
inductive Measure where
  | fixed (n : Int)
  | x
  | lifeTotal (players : Selector)
  | powerOf (object : Reference)
  | toughnessOf (object : Reference)
  | manaValueOf (object : Reference)
  | countersOn (object : Reference) (kind : CounterKind)
  | count (players : Selector) (zone : ZoneKind) (filter : ObjectFilter)
  | cardsInHand (players : Selector)
  | damageDealtThisTurn (object : Reference)
deriving DecidableEq

/-- The ways to join two amounts. -/
inductive Joint where
  | add | subtract | max | min
deriving DecidableEq

/-- A condition that contains no other condition and no amount. -/
inductive GameFact where
  | lifeAtLeast (players : Selector) (amount : Int)
  | controlsMatching (players : Selector) (filter : ObjectFilter) (count : Nat)
  | sourceOnBattlefield
  | targetOnBattlefield (index : Nat)
  | xAtLeast (n : Int)
deriving DecidableEq

mutual

/-- An amount built by arithmetic and by cases. -/
inductive Amount where
  | measure (m : Measure)
  | join (op : Joint) (a b : Amount)
  | times (a : Amount) (factor : Int)
  | nonNegative (a : Amount)
  | cases (condition : Condition) (yes no : Amount)

/-- A condition built by connectives. -/
inductive Condition where
  | all (conditions : List Condition)
  | any (conditions : List Condition)
  | not (condition : Condition)
  | compare (left : Amount) (op : Relation) (right : Amount)
  | fact (f : GameFact)

end

mutual

def Amount.same : Amount → Amount → Bool
  | .measure m, .measure n => m = n
  | .join o a b, .join p c d => o = p && a.same c && b.same d
  | .times a k, .times b l => a.same b && k = l
  | .nonNegative a, .nonNegative b => a.same b
  | .cases c a b, .cases d e f => c.same d && a.same e && b.same f
  | _, _ => false

def Condition.same : Condition → Condition → Bool
  | .all xs, .all ys => Condition.sameAll xs ys
  | .any xs, .any ys => Condition.sameAll xs ys
  | .not x, .not y => x.same y
  | .compare a o b, .compare c p d => a.same c && o = p && b.same d
  | .fact f, .fact g => f = g
  | _, _ => false

def Condition.sameAll : List Condition → List Condition → Bool
  | [], [] => true
  | x :: xs, y :: ys => x.same y && Condition.sameAll xs ys
  | _, _ => false

end

mutual

theorem Amount.same_iff : ∀ a b : Amount, a.same b ↔ a = b
  | .measure m, b => by cases b <;> simp [Amount.same]
  | .join o a c, b => by
    cases b <;> simp [Amount.same, Amount.same_iff a, Amount.same_iff c, and_assoc]
  | .times a k, b => by cases b <;> simp [Amount.same, Amount.same_iff a]
  | .nonNegative a, b => by cases b <;> simp [Amount.same, Amount.same_iff a]
  | .cases c x y, b => by
    cases b <;>
      simp [Amount.same, Condition.same_iff c, Amount.same_iff x, Amount.same_iff y, and_assoc]

theorem Condition.same_iff : ∀ a b : Condition, a.same b ↔ a = b
  | .all xs, b => by cases b <;> simp [Condition.same, Condition.sameAll_iff xs]
  | .any xs, b => by cases b <;> simp [Condition.same, Condition.sameAll_iff xs]
  | .not x, b => by cases b <;> simp [Condition.same, Condition.same_iff x]
  | .compare x o y, b => by
    cases b <;> simp [Condition.same, Amount.same_iff x, Amount.same_iff y, and_assoc]
  | .fact f, b => by cases b <;> simp [Condition.same]

theorem Condition.sameAll_iff : ∀ xs ys : List Condition, Condition.sameAll xs ys ↔ xs = ys
  | [], ys => by cases ys <;> simp [Condition.sameAll]
  | x :: xs, ys => by
    cases ys <;> simp [Condition.sameAll, Condition.same_iff x, Condition.sameAll_iff xs]

end

instance : DecidableEq Amount := fun a b => decidable_of_iff _ (Amount.same_iff a b)

instance : DecidableEq Condition := fun a b => decidable_of_iff _ (Condition.same_iff a b)

/-- Whether the game tracks what the measure reads. -/
def Measure.isTracked : Measure → Bool
  | .damageDealtThisTurn _ => false
  | .count _ _ filter => filter.isTracked
  | _ => true

/-- Whether the game tracks what the fact asks. -/
def GameFact.isTracked : GameFact → Bool
  | .controlsMatching _ filter _ => filter.isTracked
  | _ => true

mutual

/-- Whether the game tracks everything that the amount depends on. -/
def Amount.isTracked : Amount → Bool
  | .measure m => m.isTracked
  | .join _ a b => a.isTracked && b.isTracked
  | .times a _ => a.isTracked
  | .nonNegative a => a.isTracked
  | .cases c a b => c.isTracked && a.isTracked && b.isTracked

/-- Whether the game tracks everything that the condition depends on. -/
def Condition.isTracked : Condition → Bool
  | .all cs => Condition.allTracked cs
  | .any cs => Condition.allTracked cs
  | .not c => c.isTracked
  | .compare a _ b => a.isTracked && b.isTracked
  | .fact f => f.isTracked

def Condition.allTracked : List Condition → Bool
  | [] => true
  | c :: cs => c.isTracked && Condition.allTracked cs

end

namespace Amount

def fixed (n : Int) : Amount := .measure (.fixed n)

def plus (a b : Amount) : Amount := .join .add a b

def minus (a b : Amount) : Amount := .join .subtract a b

/-- The number of permanents you control that a filter accepts. -/
def countYouControl (filter : ObjectFilter) : Amount := .measure (.count .you .battlefield filter)

end Amount

namespace Condition

/-- Holds in every game. -/
def always : Condition := .all []

/-- Both conditions; a conjunction takes in a further member. -/
def and : Condition → Condition → Condition
  | .all cs, c => .all (cs ++ [c])
  | b, c => .all [b, c]

/-- Either condition; a disjunction takes in a further member. -/
def or : Condition → Condition → Condition
  | .any cs, c => .any (cs ++ [c])
  | b, c => .any [b, c]

/-- You control a permanent that a filter accepts. -/
def youControl (filter : ObjectFilter) : Condition := .fact (.controlsMatching .you filter 1)

end Condition

end CardGame
