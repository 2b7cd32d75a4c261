import CardGame.Card.Face
import CardGame.Format.Codec

/-!
The formats of cards: their words, filters, amounts and static abilities.
-/

namespace CardGame

namespace Codec

def seat : Codec Seat := byte.iso .mk (·.index)
def objectId : Codec ObjectId := word.iso .mk (·.val)
def cardId : Codec CardId := word.iso .mk (·.val)
def decisionId : Codec DecisionId := word.iso .mk (·.val)
def floatingId : Codec FloatingId := word.iso .mk (·.val)

def cardType : Codec CardType :=
  cases [.unit "Artifact" .artifact, .unit "Battle" .battle, .unit "Creature" .creature,
    .unit "Enchantment" .enchantment, .unit "Instant" .instant, .unit "Land" .land,
    .unit "Planeswalker" .planeswalker, .unit "Sorcery" .sorcery]

def supertype : Codec Supertype :=
  cases [.unit "Basic" .basic, .unit "Legendary" .legendary, .unit "Snow" .snow,
    .unit "World" .world]

def subtype : Codec CardSubtype := string.iso .mk (·.name)

def color : Codec Color :=
  cases [.unit "White" .white, .unit "Blue" .blue, .unit "Black" .black, .unit "Red" .red,
    .unit "Green" .green]

def colorSet : Codec ColorSet := byte.iso .mk (·.bits)

def keyword : Codec Keyword :=
  cases [.unit "Deathtouch" .deathtouch, .unit "Defender" .defender,
    .unit "DoubleStrike" .doubleStrike, .unit "FirstStrike" .firstStrike,
    .unit "Flying" .flying, .unit "Haste" .haste, .unit "Hexproof" .hexproof,
    .unit "Indestructible" .indestructible, .unit "Lifelink" .lifelink,
    .unit "Menace" .menace, .unit "Reach" .reach, .unit "Shroud" .shroud,
    .unit "Trample" .trample, .unit "Vigilance" .vigilance,
    .of "ProtectionFrom" color .protectionFrom fun
      | .protectionFrom c => some c
      | _ => none]

def counterKind : Codec CounterKind :=
  cases [.unit "PlusOnePlusOne" .plusOnePlusOne, .unit "MinusOneMinusOne" .minusOneMinusOne,
    .unit "Loyalty" .loyalty, .unit "Charge" .charge,
    .of "Named" string .named fun
      | .named name => some name
      | _ => none]

def zoneKind : Codec ZoneKind :=
  cases [.unit "Library" .library, .unit "Hand" .hand, .unit "Graveyard" .graveyard,
    .unit "Battlefield" .battlefield, .unit "Stack" .stack, .unit "Exile" .exile]

def zone : Codec Zone :=
  (((Fields.required "owner" seat).and (.required "kind" zoneKind)).iso
    (fun p => ⟨p.1, p.2⟩) (fun z => (z.owner, z.kind))).codec

def position : Codec Position :=
  cases [.unit "Top" .top, .unit "Bottom" .bottom,
    .of "Index" long .index fun
      | .index n => some n
      | _ => none]

def numberTest : Codec NumberTest :=
  cases [
    .of "Equal" amount .equal fun
      | .equal n => some n
      | _ => none,
    .of "AtLeast" amount .atLeast fun
      | .atLeast n => some n
      | _ => none,
    .of "AtMost" amount .atMost fun
      | .atMost n => some n
      | _ => none,
    .of "Between" (pair amount amount) (fun p => .between p.1 p.2) fun
      | .between lo hi => some (lo, hi)
      | _ => none]

/-- Makes an alternative that is a fact an alternative of tests. -/
def factCase {α : Type} (name : String) (c : Codec α) (make : α → CardFact)
    (content : CardFact → Option α) : Case CardTest :=
  .of name c (fun a => .fact (make a)) fun
    | .fact f => content f
    | _ => none

/-- Tests nested less than a given number of times. -/
def cardTestLevel : Nat → Codec CardTest
  | 0 => empty
  | n + 1 =>
    let inner : Codec CardTest := delay fun _ => cardTestLevel n
    cases [
      factCase "IsCardType" cardType .isType fun
        | .isType t => some t
        | _ => none,
      factCase "HasSubtype" subtype .hasSubtype fun
        | .hasSubtype s => some s
        | _ => none,
      factCase "HasSupertype" supertype .hasSupertype fun
        | .hasSupertype s => some s
        | _ => none,
      factCase "HasColor" color .hasColor fun
        | .hasColor c => some c
        | _ => none,
      .unit "Colorless" (.fact .colorless),
      .unit "Multicolored" (.fact .multicolored),
      factCase "ManaValue" numberTest .manaValue fun
        | .manaValue t => some t
        | _ => none,
      factCase "Power" numberTest .power fun
        | .power t => some t
        | _ => none,
      factCase "Toughness" numberTest .toughness fun
        | .toughness t => some t
        | _ => none,
      factCase "HasKeyword" keyword .hasKeyword fun
        | .hasKeyword k => some k
        | _ => none,
      .unit "IsToken" (.fact .isToken),
      .unit "IsNontoken" (.fact .isNontoken),
      factCase "NameIs" string .nameIs fun
        | .nameIs name => some name
        | _ => none,
      .of "And" inner.list .all fun
        | .all tests => some tests
        | _ => none,
      .of "Or" inner.list .any fun
        | .any tests => some tests
        | _ => none,
      .of "Not" inner .not fun
        | .not test => some test
        | _ => none]

mutual

/-- How deep a test is nested. -/
def depthOfTest : CardTest → Nat
  | .fact _ => 0
  | .all tests => depthOfTests tests + 1
  | .any tests => depthOfTests tests + 1
  | .not test => depthOfTest test + 1

def depthOfTests : List CardTest → Nat
  | [] => 0
  | t :: ts => max (depthOfTest t) (depthOfTests ts)

end

def cardTest : Codec CardTest := recursive depthOfTest cardTestLevel

def statusTest : Codec StatusTest :=
  cases [.unit "Tapped" .tapped, .unit "Untapped" .untapped, .unit "Attacking" .attacking,
    .unit "Blocking" .blocking, .unit "Blocked" .blocked, .unit "Unblocked" .unblocked,
    .unit "EnteredThisTurn" .enteredThisTurn,
    .of "HasCounter" counterKind .hasCounter fun
      | .hasCounter kind => some kind
      | _ => none,
    .unit "Attached" .attached, .unit "FaceDown" .faceDown,
    .unit "WasDealtDamageThisTurn" .wasDealtDamageThisTurn,
    .unit "DealtDamageThisTurn" .dealtDamageThisTurn]

def controlTest : Codec ControlTest :=
  cases [.unit "You" .you, .unit "Opponent" .opponent,
    .of "TargetPlayer" long .targetPlayer fun
      | .targetPlayer index => some index
      | _ => none,
    .of "Specific" seat .specific fun
      | .specific s => some s
      | _ => none,
    .unit "ActivePlayer" .activePlayer, .unit "OwnedByYou" .ownedByYou,
    .unit "OwnedByOpponent" .ownedByOpponent,
    .of "OwnedByTargetPlayer" long .ownedByTargetPlayer fun
      | .ownedByTargetPlayer index => some index
      | _ => none]

/-- The name of the filter's control test is optional, as every other part of it. -/
def filter : Codec ObjectFilter :=
  (((Fields.withDefault "card_predicates" cardTest.list []).and <|
    (Fields.withDefault "state_predicates" statusTest.list []).and <|
    (Fields.withDefault "controller" controlTest.option none).and <|
    .withDefault "exclude_source" bool false).iso
      (fun (card, status, control, otherThanSource) => ⟨card, status, control, otherThanSource⟩)
      (fun f => (f.card, f.status, f.control, f.otherThanSource))).codec

def reference : Codec Reference :=
  cases [.unit "Source" .source,
    .of "Target" long .target fun
      | .target index => some index
      | _ => none,
    .of "Sacrificed" long .sacrificed fun
      | .sacrificed index => some index
      | _ => none,
    .unit "Triggering" .triggering,
    .of "Fixed" objectId .fixed fun
      | .fixed o => some o
      | _ => none]

def selector : Codec Selector :=
  cases [.unit "You" .you, .unit "Opponent" .opponent, .unit "EachOpponent" .eachOpponent,
    .unit "EachPlayer" .eachPlayer, .unit "ActivePlayer" .activePlayer,
    .of "TargetPlayer" long .targetPlayer fun
      | .targetPlayer index => some index
      | _ => none,
    .unit "TriggeringPlayer" .triggeringPlayer,
    .of "ControllerOf" reference .controllerOf fun
      | .controllerOf r => some r
      | _ => none,
    .of "OwnerOf" reference .ownerOf fun
      | .ownerOf r => some r
      | _ => none,
    .of "Specific" seat .specific fun
      | .specific s => some s
      | _ => none]

def relation : Codec Relation :=
  cases [.unit "Eq" .eq, .unit "Ne" .ne, .unit "Lt" .lt, .unit "Le" .le, .unit "Gt" .gt,
    .unit "Ge" .ge]

/-- Makes an alternative that is a measure an alternative of amounts. -/
def measureCase {α : Type} (name : String) (c : Codec α) (make : α → Measure)
    (content : Measure → Option α) : Case Amount :=
  .of name c (fun a => .measure (make a)) fun
    | .measure m => content m
    | _ => none

/-- Makes a way to join two amounts an alternative of amounts. -/
def joinCase (name : String) (inner : Codec Amount) (op : Joint) : Case Amount :=
  .of name (pair inner inner) (fun p => .join op p.1 p.2) fun
    | .join o a b => if o = op then some (a, b) else none
    | _ => none

/-- Makes an alternative that is a fact an alternative of conditions. -/
def gameFactCase {α : Type} (name : String) (c : Codec α) (make : α → GameFact)
    (content : GameFact → Option α) : Case Condition :=
  .of name c (fun a => .fact (make a)) fun
    | .fact f => content f
    | _ => none

mutual

/-- Amounts nested less than a given number of times. -/
def amountLevel : Nat → Codec Amount
  | 0 => empty
  | n + 1 =>
    let inner : Codec Amount := delay fun _ => amountLevel n
    let condition : Codec Condition := delay fun _ => conditionLevel n
    cases [
      measureCase "Fixed" amount .fixed fun
        | .fixed n => some n
        | _ => none,
      .unit "X" (.measure .x),
      measureCase "LifeTotal" selector .lifeTotal fun
        | .lifeTotal s => some s
        | _ => none,
      joinCase "Add" inner .add,
      joinCase "Subtract" inner .subtract,
      .of "Multiply" (pair inner amount) (fun p => .times p.1 p.2) fun
        | .times a factor => some (a, factor)
        | _ => none,
      joinCase "Max" inner .max,
      joinCase "Min" inner .min,
      .of "NonNegative" inner .nonNegative fun
        | .nonNegative a => some a
        | _ => none,
      .record "Conditional"
        ((Fields.required "condition" condition).and <|
          (Fields.required "then" inner).and <| .required "otherwise" inner)
        (fun (c, a, b) => .cases c a b) fun
        | .cases c a b => some (c, a, b)
        | _ => none,
      measureCase "PowerOf" reference .powerOf fun
        | .powerOf r => some r
        | _ => none,
      measureCase "ToughnessOf" reference .toughnessOf fun
        | .toughnessOf r => some r
        | _ => none,
      measureCase "ManaValueOf" reference .manaValueOf fun
        | .manaValueOf r => some r
        | _ => none,
      measureCase "CountersOn"
        ((Fields.required "entity" reference).and <| .required "kind" counterKind).content
        (fun (r, kind) => .countersOn r kind) fun
        | .countersOn r kind => some (r, kind)
        | _ => none,
      measureCase "Count"
        ((Fields.required "player" selector).and <|
          (Fields.required "zone" zoneKind).and <| .required "filter" filter).content
        (fun (s, zone, f) => .count s zone f) fun
        | .count s zone f => some (s, zone, f)
        | _ => none,
      measureCase "CardsInHand" selector .cardsInHand fun
        | .cardsInHand s => some s
        | _ => none,
      measureCase "DamageDealtThisTurn" reference .damageDealtThisTurn fun
        | .damageDealtThisTurn r => some r
        | _ => none]

/-- Conditions nested less than a given number of times. -/
def conditionLevel : Nat → Codec Condition
  | 0 => empty
  | n + 1 =>
    let inner : Codec Condition := delay fun _ => conditionLevel n
    let amounts : Codec Amount := delay fun _ => amountLevel n
    cases [
      .of "All" inner.list .all fun
        | .all cs => some cs
        | _ => none,
      .of "Any" inner.list .any fun
        | .any cs => some cs
        | _ => none,
      .of "Not" inner .not fun
        | .not c => some c
        | _ => none,
      .record "Compare"
        ((Fields.required "left" amounts).and <|
          (Fields.required "op" relation).and <| .required "right" amounts)
        (fun (a, op, b) => .compare a op b) fun
        | .compare a op b => some (a, op, b)
        | _ => none,
      gameFactCase "LifeAtLeast"
        ((Fields.required "player" selector).and <| .required "amount" amount).content
        (fun (s, n) => .lifeAtLeast s n) fun
        | .lifeAtLeast s n => some (s, n)
        | _ => none,
      gameFactCase "ControlsMatching"
        ((Fields.required "player" selector).and <|
          (Fields.required "filter" filter).and <| .required "count" word).content
        (fun (s, f, n) => .controlsMatching s f n) fun
        | .controlsMatching s f n => some (s, f, n)
        | _ => none,
      .unit "SourceOnBattlefield" (.fact .sourceOnBattlefield),
      gameFactCase "TargetOnBattlefield" long .targetOnBattlefield fun
        | .targetOnBattlefield index => some index
        | _ => none,
      gameFactCase "XAtLeast" amount .xAtLeast fun
        | .xAtLeast n => some n
        | _ => none]

end

mutual

/-- How deep an amount is nested. -/
def depthOfAmount : Amount → Nat
  | .measure _ => 0
  | .join _ a b => max (depthOfAmount a) (depthOfAmount b) + 1
  | .times a _ => depthOfAmount a + 1
  | .nonNegative a => depthOfAmount a + 1
  | .cases c a b => max (depthOfCondition c) (max (depthOfAmount a) (depthOfAmount b)) + 1

/-- How deep a condition is nested. -/
def depthOfCondition : Condition → Nat
  | .all cs => depthOfConditions cs + 1
  | .any cs => depthOfConditions cs + 1
  | .not c => depthOfCondition c + 1
  | .compare a _ b => max (depthOfAmount a) (depthOfAmount b) + 1
  | .fact _ => 0

def depthOfConditions : List Condition → Nat
  | [] => 0
  | c :: cs => max (depthOfCondition c) (depthOfConditions cs)

end

def dynamicAmount : Codec Amount := recursive depthOfAmount amountLevel

def condition : Codec Condition := recursive depthOfCondition conditionLevel

def staticAbility : Codec StaticAbility :=
  cases [
    .record "ModifyStatsForGroup"
      ((Fields.required "filter" filter).and <|
        (Fields.required "power" amount).and <| .required "toughness" amount)
      (fun (f, p, t) => .modifyGroup f p t) fun
      | .modifyGroup f p t => some (f, p, t)
      | _ => none,
    .record "GrantKeywordToGroup"
      ((Fields.required "filter" filter).and <| .required "keyword" keyword)
      (fun (f, k) => .grantKeyword f k) fun
      | .grantKeyword f k => some (f, k)
      | _ => none,
    .record "AddCardTypeToGroup"
      ((Fields.required "filter" filter).and <| .required "card_type" cardType)
      (fun (f, t) => .addCardType f t) fun
      | .addCardType f t => some (f, t)
      | _ => none,
    .record "CharacteristicDefiningPt"
      ((Fields.required "power" dynamicAmount).and <| .required "toughness" dynamicAmount)
      (fun (p, t) => .definePowerToughness p t) fun
      | .definePowerToughness p t => some (p, t)
      | _ => none]

def faceFields : Fields Face :=
  ((Fields.required "name" string).and <|
    (Fields.required "mana_value" word).and <|
    (Fields.required "colors" colorSet).and <|
    (Fields.required "supertypes" supertype.set).and <|
    (Fields.required "types" cardType.set).and <|
    (Fields.required "subtypes" subtype.set).and <|
    (Fields.optional "power" amount).and <|
    (Fields.optional "toughness" amount).and <|
    (Fields.required "keywords" keyword.set).and <|
    .withDefault "static_abilities" staticAbility.list []).iso
      (fun (name, manaValue, colors, supertypes, types, subtypes, power, toughness, keywords,
          abilities) =>
        { name, manaValue, colors, supertypes, types, subtypes, power, toughness, keywords,
          abilities })
      (fun c =>
        (c.name, c.manaValue, c.colors, c.supertypes, c.types, c.subtypes, c.power,
          c.toughness, c.keywords, c.abilities))

def card : Codec Card :=
  (((Fields.optional "definition" cardId).and faceFields).iso
    (fun (definition, face) => { face with definition })
    (fun c => (c.definition, c.toFace))).codec

def cardDefinition : Codec CardDefinition :=
  (((Fields.required "id" cardId).and faceFields).iso
    (fun (id, face) => { face with id })
    (fun d => (d.id, d.toFace))).codec

def tokenTemplate : Codec TokenTemplate :=
  (((Fields.required "name" string).and <|
    (Fields.required "colors" colorSet).and <|
    (Fields.required "types" cardType.set).and <|
    (Fields.required "subtypes" subtype.set).and <|
    (Fields.optional "power" amount).and <|
    (Fields.optional "toughness" amount).and <|
    .required "keywords" keyword.set).iso
      (fun (name, colors, types, subtypes, power, toughness, keywords) =>
        { name, colors, types, subtypes, power, toughness, keywords })
      (fun t =>
        (t.name, t.colors, t.types, t.subtypes, t.power, t.toughness, t.keywords))).codec

end Codec

end CardGame
