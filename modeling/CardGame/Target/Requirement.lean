import CardGame.Amount

/-!
What may be targeted and how many targets are chosen.
-/

namespace CardGame

/-- Which players may be targeted. -/
inductive PlayerFilter where
  | anyone | you | opponent
deriving DecidableEq

/-- What may be targeted. -/
inductive Requirement where
  | creature (filter : ObjectFilter)
  | permanent (filter : ObjectFilter)
  | player (filter : PlayerFilter)
  | cardInZone (zone : ZoneKind) (filter : ObjectFilter)
  | spell (filter : ObjectFilter)
  | anyTarget
  | otherThan (requirement : Requirement) (excluded : Reference)
deriving DecidableEq

namespace Requirement

/-- A card in any graveyard. -/
def cardInGraveyard (filter : ObjectFilter) : Requirement := .cardInZone .graveyard filter

/-- The same requirement without the source of the effect. -/
def otherThanSource (r : Requirement) : Requirement := .otherThan r .source

end Requirement

/-- How many targets are chosen. -/
inductive TargetCount where
  | exactly (n : Nat)
  | upTo (n : Nat)
  | atLeast (n : Nat)
  | range (min max : Nat)
  | all
deriving DecidableEq

/-- The fewest and the most targets, given how many objects can be targeted. -/
def TargetCount.bounds : TargetCount → Nat → Nat × Nat
  | .exactly n, _ => (n, n)
  | .upTo n, _ => (0, n)
  | .atLeast n, available => (n, max available n)
  | .range min max, _ => (min, max)
  | .all, available => (available, available)

/-- The targets that an effect asks for. -/
structure TargetSpec where
  requirement : Requirement
  count : TargetCount := .exactly 1
  optional : Bool := false
deriving DecidableEq

/-- The fewest and the most targets. Optional targets may all be left out, and a range the wrong way
round is cut down to its upper end. -/
def TargetSpec.bounds (spec : TargetSpec) (available : Nat) : Nat × Nat :=
  let (fewest, most) := spec.count.bounds available
  (min (if spec.optional then 0 else fewest) most, most)

end CardGame
