import CardGame.Card.Face
import CardGame.Layer.Modification
import CardGame.Target.Requirement

/-!
Effects as players read them on cards. Simple effects fall into five families; the rest compose
other effects or ask players to choose.
-/

namespace CardGame

/-- Effects that change characteristics for a while. -/
inductive ContinuousEffect where
  | modifyStats (target : Reference) (power toughness : Amount) (duration : Duration)
  | setBase (target : Reference) (power toughness : Int) (duration : Duration)
  | animate (target : Reference) (power toughness : Int) (subtypes : SortedSet CardSubtype)
      (duration : Duration)
  | grantKeyword (target : Reference) (keyword : Keyword) (duration : Duration)
  | removeKeyword (target : Reference) (keyword : Keyword) (duration : Duration)
  | modifyGroup (filter : ObjectFilter) (power toughness : Amount) (duration : Duration)
  | grantKeywordToGroup (filter : ObjectFilter) (keyword : Keyword) (duration : Duration)
  | gainControl (target : Reference) (duration : Duration)
  | regenerate (target : Reference)
  | exileOnDeath (target : Reference)
  | protectFromColor (target : Reference) (duration : Duration)
deriving DecidableEq

/-- Effects on the state of permanents. -/
inductive PermanentEffect where
  | tap (target : Reference)
  | untap (target : Reference)
  | addCounters (target : Reference) (kind : CounterKind) (amount : Amount)
  | removeCounters (target : Reference) (kind : CounterKind) (amount : Amount)
  | distributeCounters (kind : CounterKind) (amount : Amount)
deriving DecidableEq

/-- Effects that take objects away. -/
inductive RemovalEffect where
  | destroy (target : Reference)
  | destroyAll (filter : ObjectFilter)
  | exile (target : Reference)
  | returnToHand (target : Reference)
  | sacrifice (players : Selector) (filter : ObjectFilter) (count : Amount)
deriving DecidableEq

/-- Effects on damage and life. -/
inductive DamageEffect where
  | deal (target : Reference) (amount : Amount)
  | divide (amount : Amount)
  | gainLife (players : Selector) (amount : Amount)
  | loseLife (players : Selector) (amount : Amount)
deriving DecidableEq

/-- Effects on libraries and hands, and the creation of tokens. -/
inductive LibraryEffect where
  | draw (players : Selector) (count : Amount)
  | discard (players : Selector) (count : Amount)
  | discardAtRandom (players : Selector) (count : Amount)
  | mill (players : Selector) (count : Amount)
  | shuffle (players : Selector)
  | scry (count : Amount)
  | reorderTop (count : Amount)
  | search (filter : ObjectFilter) (count : Nat) (destination : ZoneKind) (tapped : Bool)
  | separate (count : Amount) (separator : Selector)
  | createToken (token : TokenTemplate) (count : Amount) (controllers : Selector)
deriving DecidableEq

/-- What players who choose in turn choose. -/
inductive PlayerChoice where
  | discard (count : Nat)
  | sacrifice (filter : ObjectFilter) (count : Nat)
  | creatureType
deriving DecidableEq

/-- What one player chose. -/
inductive Pick where
  | objects (objects : List ObjectId)
  | creatureType (subtype : CardSubtype)
  | nothing
deriving DecidableEq

/-- A cost that may be paid to avoid an effect. -/
inductive Cost where
  | life (amount : Int)
  | discard (count : Nat)
  | sacrifice (filter : ObjectFilter) (count : Nat)
deriving DecidableEq

/-- The question put to the player who may pay. -/
def Cost.prompt : Cost → String
  | .life n => "Pay " ++ toString n ++ " life?"
  | .discard n => "Discard " ++ toString n ++ " card(s)?"
  | .sacrifice _ n => "Sacrifice " ++ toString n ++ " permanent(s)?"

/-- An effect. Each mode of a modal effect comes with its description. -/
inductive Effect where
  | continuous (e : ContinuousEffect)
  | permanent (e : PermanentEffect)
  | removal (e : RemovalEffect)
  | damage (e : DamageEffect)
  | library (e : LibraryEffect)
  | composite (effects : List Effect)
  | conditional (condition : Condition) (yes : Effect) (no : Option Effect)
  | may (prompt : String) (effect : Effect)
  | modal (modes : List (String × Effect)) (min max : Nat)
  | payOrSuffer (payer : Selector) (cost : Cost) (suffer : Effect)
  | chooseTargets (spec : TargetSpec) (effect : Effect)
  | eachPlayerChooses (players : Selector) (choice : PlayerChoice)

/-- A mode of a modal effect: its description and the effect itself. -/
abbrev Mode := String × Effect

namespace Effect

mutual

def same : Effect → Effect → Bool
  | .continuous a, .continuous b => a = b
  | .permanent a, .permanent b => a = b
  | .removal a, .removal b => a = b
  | .damage a, .damage b => a = b
  | .library a, .library b => a = b
  | .composite xs, .composite ys => sameAll xs ys
  | .conditional c a b, .conditional d e f => c = d && same a e && sameOption b f
  | .may p a, .may q b => p = q && same a b
  | .modal xs k l, .modal ys m n => sameModes xs ys && k = m && l = n
  | .payOrSuffer p c a, .payOrSuffer q d b => p = q && c = d && same a b
  | .chooseTargets s a, .chooseTargets t b => s = t && same a b
  | .eachPlayerChooses p c, .eachPlayerChooses q d => p = q && c = d
  | _, _ => false

def sameAll : List Effect → List Effect → Bool
  | [], [] => true
  | x :: xs, y :: ys => same x y && sameAll xs ys
  | _, _ => false

def sameOption : Option Effect → Option Effect → Bool
  | none, none => true
  | some x, some y => same x y
  | _, _ => false

def sameModes : List (String × Effect) → List (String × Effect) → Bool
  | [], [] => true
  | x :: xs, y :: ys => sameMode x y && sameModes xs ys
  | _, _ => false

def sameMode : String × Effect → String × Effect → Bool
  | (s, x), (t, y) => s = t && same x y

end

mutual

theorem same_iff : ∀ a b : Effect, same a b ↔ a = b
  | .continuous _, b => by cases b <;> simp [same]
  | .permanent _, b => by cases b <;> simp [same]
  | .removal _, b => by cases b <;> simp [same]
  | .damage _, b => by cases b <;> simp [same]
  | .library _, b => by cases b <;> simp [same]
  | .composite xs, b => by cases b <;> simp [same, sameAll_iff xs]
  | .conditional _ x y, b => by
    cases b <;> simp [same, same_iff x, sameOption_iff y, and_assoc]
  | .may _ x, b => by cases b <;> simp [same, same_iff x]
  | .modal xs _ _, b => by cases b <;> simp [same, sameModes_iff xs, and_assoc]
  | .payOrSuffer _ _ x, b => by cases b <;> simp [same, same_iff x, and_assoc]
  | .chooseTargets _ x, b => by cases b <;> simp [same, same_iff x]
  | .eachPlayerChooses _ _, b => by cases b <;> simp [same]

theorem sameAll_iff : ∀ xs ys : List Effect, sameAll xs ys ↔ xs = ys
  | [], ys => by cases ys <;> simp [sameAll]
  | x :: xs, ys => by cases ys <;> simp [sameAll, same_iff x, sameAll_iff xs]

theorem sameOption_iff : ∀ x y : Option Effect, sameOption x y ↔ x = y
  | none, y => by cases y <;> simp [sameOption]
  | some x, y => by cases y <;> simp [sameOption, same_iff x]

theorem sameModes_iff : ∀ xs ys : List (String × Effect), sameModes xs ys ↔ xs = ys
  | [], ys => by cases ys <;> simp [sameModes]
  | x :: xs, ys => by cases ys <;> simp [sameModes, sameMode_iff x, sameModes_iff xs]

theorem sameMode_iff : ∀ x y : String × Effect, sameMode x y ↔ x = y
  | (_, x), (_, y) => by simp [sameMode, same_iff x]

end

instance : DecidableEq Effect := fun a b => decidable_of_iff _ (same_iff a b)

/-- The first target gets a bonus until end of turn. -/
def pumpTarget (power toughness : Int) : Effect :=
  .continuous (.modifyStats (.target 0) (.fixed power) (.fixed toughness) .endOfTurn)

def destroyTarget : Effect := .removal (.destroy (.target 0))

def damageTarget (amount : Int) : Effect := .damage (.deal (.target 0) (.fixed amount))

/-- You draw some cards. -/
def draw (count : Int) : Effect := .library (.draw .you (.fixed count))

/-- You gain some life. -/
def gainLife (amount : Int) : Effect := .damage (.gainLife .you (.fixed amount))

def discard (players : Selector) (count : Int) : Effect :=
  .library (.discard players (.fixed count))

end Effect

end CardGame
