import CardGame.Zone.Basic
import CardGame.Effect.Kind

/-!
Everything that can go wrong. Each constructor is one cause; `Failure.message` words it and
`Failure.category` groups the causes.
-/

namespace CardGame

/-- Where an object was expected to be. -/
inductive Place where
  | anyOf (kind : ZoneKind)
  | within (zone : Zone)
  | outsideHand
deriving DecidableEq

def Place.text : Place → String
  | .anyOf kind => kind.name
  | .within zone => toString zone
  | .outsideHand => "a zone other than hand"

/-- The causes of failure. -/
inductive Failure where
  -- Objects and players
  | objectNotFound (object : ObjectId)
  | misplaced (object : ObjectId) (expected : Place)
  | notController (player : Seat) (object : ObjectId)
  | undamageable (object : ObjectId)
  | isPlayer (object : ObjectId)
  | tooFewCounters (total recipients : Nat)
  | tooLittleDamage (total recipients : Nat)
  | strayDamage (object : ObjectId)
  | smallDamage (object : ObjectId) (share : Int)
  | missingDamage (object : ObjectId)
  | damageOverflow
  | wrongDamageTotal (sum expected : Int)
  | unboundReference (reference : Reference)
  | unboundSelector (selector : Selector)
  -- Answers
  | wrongAnswer (expected actual : String)
  | wrongCount (what : String) (chosen min max : Nat)
  | notOffered (what : String) (object : ObjectId)
  | chosenTwice (what : String) (object : ObjectId)
  | noSuchMode (mode : Nat)
  | modeChosenTwice (mode : Nat)
  | colorNotOffered (color : Color)
  | optionOutOf (index options : Nat)
  | noSuchOption (index : Nat)
  | noSuchPile (index : Nat)
  | numberOutside (n min max : Int)
  | notRecipient (object : ObjectId)
  | smallShare (object : ObjectId) (share minimum : Nat)
  | distributionOverflow
  | wrongTotal (sum total : Nat)
  -- The order of calls
  | noDecisionPending
  | decisionPending (decision : DecisionId)
  | nothingToResume (decision : DecisionId)
  | otherDecisionPending (expected actual : DecisionId)
  | chainTooLong (limit : Nat)
  -- Broken invariants
  | alreadyInZone (object : ObjectId) (zone : Zone)
  | unknownZone (zone : Zone)
  | notPermutation (zone : Zone)
  | listedOtherThanLocated (listed located : Nat)
  | listedTimes (object : ObjectId) (times : Nat) (zone : Zone)
  | decisionTwiceOnStack (decision : DecisionId)
  | decisionNotOnTop (decision : DecisionId)
  | decisionNotPending (decision : DecisionId)
  | undecidedFrame (name : String)
  | effectsGivenAnswer
  -- Set-up
  | unresolvedKind (kind : EffectKind)
  | foreignKind (family : Family) (kind : EffectKind)
  | noPlayers
  | tooManyPlayers
  | nonPositiveLife (life : Int)
  | noChainSteps
  | cardAlreadyRegistered (card : CardId)
  | unknownCard (card : CardId)
  | malformed
deriving DecidableEq

namespace Failure

/-- The groups of causes that callers tell apart. -/
inductive Category where
  | objectNotFound | misplaced | invalidTarget | unbound | wrongAnswer
  | outOfBounds | noDecisionPending | decisionPending | nothingToResume
  | otherDecisionPending | chainTooLong | brokenInvariant | unresolvedEffect
  | foreignEffect | invalidSettings | malformed
deriving DecidableEq

def category : Failure → Category
  | .objectNotFound _ => .objectNotFound
  | .misplaced .. => .misplaced
  | .notController .. | .undamageable _ | .isPlayer _ | .tooFewCounters .. | .tooLittleDamage ..
  | .strayDamage _ | .smallDamage .. | .missingDamage _ | .damageOverflow
  | .wrongDamageTotal .. => .invalidTarget
  | .unboundReference _ | .unboundSelector _ => .unbound
  | .wrongAnswer .. => .wrongAnswer
  | .wrongCount .. | .notOffered .. | .chosenTwice .. | .noSuchMode _ | .modeChosenTwice _
  | .colorNotOffered _ | .optionOutOf .. | .noSuchOption _ | .noSuchPile _ | .numberOutside ..
  | .notRecipient _ | .smallShare .. | .distributionOverflow
  | .wrongTotal .. => .outOfBounds
  | .noDecisionPending => .noDecisionPending
  | .decisionPending _ => .decisionPending
  | .nothingToResume _ => .nothingToResume
  | .otherDecisionPending .. => .otherDecisionPending
  | .chainTooLong _ => .chainTooLong
  | .alreadyInZone .. | .unknownZone _ | .notPermutation _ | .listedOtherThanLocated ..
  | .listedTimes .. | .decisionTwiceOnStack _ | .decisionNotOnTop _ | .decisionNotPending _
  | .undecidedFrame _ | .effectsGivenAnswer => .brokenInvariant
  | .unresolvedKind _ => .unresolvedEffect
  | .foreignKind .. => .foreignEffect
  | .noPlayers | .tooManyPlayers | .nonPositiveLife _ | .noChainSteps
  | .cardAlreadyRegistered _ | .unknownCard _ => .invalidSettings
  | .malformed => .malformed

/-- Whether the caller has lost track of the pending decision. -/
def isProtocolViolation (f : Failure) : Bool :=
  match f.category with
  | .noDecisionPending | .decisionPending | .nothingToResume | .otherDecisionPending => true
  | _ => false

/-- The cause in words, without its category. -/
def detail : Failure → String
  | .objectNotFound o => toString o
  | .misplaced o place => s!"{o} is not in the expected zone ({place.text})"
  | .notController p o => s!"{p} cannot sacrifice {o}, which they do not control"
  | .undamageable o => s!"{o} cannot be dealt damage"
  | .isPlayer o => s!"{o} is a player"
  | .tooFewCounters total n => s!"cannot distribute {total} counters among {n} targets"
  | .tooLittleDamage total n => s!"cannot divide {total} damage among {n} targets"
  | .strayDamage o => s!"damage assigned to {o}, which is not a target"
  | .smallDamage o share => s!"{o} is assigned {share} damage, minimum is 1"
  | .missingDamage o => s!"{o} is assigned no damage"
  | .damageOverflow => "damage division overflows"
  | .wrongDamageTotal sum expected => s!"divided {sum} damage, expected {expected}"
  | .unboundReference r => r.text
  | .unboundSelector s => s.text
  | .wrongAnswer expected actual => s!"expected {expected}, got {actual}"
  | .wrongCount what n lo hi => s!"{what}: chose {n}, allowed {lo}..={hi}"
  | .notOffered what o => s!"{what}: {o} was not offered"
  | .chosenTwice what o => s!"{what}: {o} chosen twice"
  | .noSuchMode n => s!"mode {n} does not exist"
  | .modeChosenTwice n => s!"mode {n} chosen twice"
  | .colorNotOffered c => s!"color {c.name} was not offered"
  | .optionOutOf i n => s!"option {i} out of {n} options"
  | .noSuchOption i => s!"option {i} does not exist"
  | .noSuchPile i => s!"pile {i} does not exist"
  | .numberOutside n lo hi => s!"number {n} outside {lo}..={hi}"
  | .notRecipient o => s!"{o} is not a recipient"
  | .smallShare o n least => s!"{o} receives {n}, minimum is {least}"
  | .distributionOverflow => "distribution overflows"
  | .wrongTotal sum total => s!"distributed {sum}, must be {total}"
  | .noDecisionPending => "no decision is pending"
  | .decisionPending d => toString d
  | .nothingToResume d => toString d
  | .otherDecisionPending expected actual => s!"expected {expected}, got {actual}"
  | .chainTooLong limit => toString limit
  | .alreadyInZone o z => s!"{o} is already in {z}"
  | .unknownZone z => s!"unknown zone {z}"
  | .notPermutation z => s!"reorder of {z} is not a permutation"
  | .listedOtherThanLocated n m => s!"{n} zone entries for {m} located entities"
  | .listedTimes o n z => s!"{o} appears {n} times in {z}"
  | .decisionTwiceOnStack d => s!"{d} appears on more than one continuation frame"
  | .decisionNotOnTop d => s!"pending {d} has no matching top continuation frame"
  | .decisionNotPending d => s!"{d} is on the continuation stack but no decision is pending"
  | .undecidedFrame name => s!"{name} frame has no decision id"
  | .effectsGivenAnswer => "pending effects frame resumed with an answer"
  | .unresolvedKind k => k.name
  | .foreignKind family k => s!"executor for \"{family.name}\" received {k.name}"
  | .noPlayers => "must have at least 1 player"
  | .tooManyPlayers => "at most 255 players supported"
  | .nonPositiveLife n => s!"starting life must be positive, got {n}"
  | .noChainSteps => "max_chain_steps must be at least 1"
  | .cardAlreadyRegistered c => s!"card {c} already registered"
  | .unknownCard c => s!"unknown card {c}"
  | .malformed => "malformed data"

/-- The full message. -/
def message (f : Failure) : String :=
  match f.category with
  | .objectNotFound => "entity not found: " ++ f.detail
  | .misplaced => f.detail
  | .invalidTarget => "invalid target: " ++ f.detail
  | .unbound => "context is missing a binding: " ++ f.detail
  | .wrongAnswer => "response does not match decision: " ++ f.detail
  | .outOfBounds => "response out of bounds: " ++ f.detail
  | .noDecisionPending => f.detail
  | .decisionPending => s!"a decision is pending ({f.detail}); resume it before executing"
  | .nothingToResume => "no continuation frame available to consume " ++ f.detail
  | .otherDecisionPending => "decision id mismatch: " ++ f.detail
  | .chainTooLong => s!"continuation chain exceeded {f.detail} steps"
  | .brokenInvariant => "state invariant violated: " ++ f.detail
  | .unresolvedEffect => "no executor registered for effect kind " ++ f.detail
  | .foreignEffect => f.detail
  | .invalidSettings => "invalid configuration: " ++ f.detail
  | .malformed => "serialization error: " ++ f.detail

end Failure

end CardGame
