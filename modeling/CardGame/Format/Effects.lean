import CardGame.Effect.Context
import CardGame.Effect.Kind
import CardGame.Format.Cards

/-!
The formats of effects, their contexts and floating effects.
-/

namespace CardGame

namespace Codec

def layer : Codec Layer :=
  cases [.unit "Control" .control, .unit "Type" .cardType, .unit "Color" .color,
    .unit "Ability" .ability, .unit "PowerToughness" .powerToughness,
    .unit "RulesMarkers" .marker]

def sublayer : Codec Sublayer :=
  cases [.unit "SetBase" .setBase, .unit "Modify" .modify, .unit "Counters" .counters]

/-- The two numbers of a power and toughness. -/
def powerToughness : Fields (Int × Int) :=
  (Fields.required "power" amount).and <| .required "toughness" amount

def modification : Codec Modification :=
  cases [
    .of "ChangeController" seat .changeController fun
      | .changeController s => some s
      | _ => none,
    .of "AddCardTypes" cardType.set .addTypes fun
      | .addTypes ts => some ts
      | _ => none,
    .of "RemoveCardTypes" cardType.set .removeTypes fun
      | .removeTypes ts => some ts
      | _ => none,
    .of "AddSubtypes" subtype.set .addSubtypes fun
      | .addSubtypes ss => some ss
      | _ => none,
    .of "SetColors" colorSet .setColors fun
      | .setColors cs => some cs
      | _ => none,
    .of "AddColors" colorSet .addColors fun
      | .addColors cs => some cs
      | _ => none,
    .of "GrantKeyword" keyword .grantKeyword fun
      | .grantKeyword k => some k
      | _ => none,
    .of "RemoveKeyword" keyword .removeKeyword fun
      | .removeKeyword k => some k
      | _ => none,
    .record "SetBasePowerToughness" powerToughness (fun (p, t) => .setBase p t) fun
      | .setBase p t => some (p, t)
      | _ => none,
    .record "ModifyPowerToughness" powerToughness (fun (p, t) => .modify p t) fun
      | .modify p t => some (p, t)
      | _ => none,
    .unit "ExileOnDeath" .exileOnDeath,
    .unit "RegenerationShield" .regenerationShield]

def placedModification : Codec PlacedModification :=
  (((Fields.required "layer" layer).and <|
    (Fields.optional "sublayer" sublayer).and <| .required "modification" modification).iso
      (fun (layer, sublayer, change) => ⟨⟨layer, sublayer⟩, change⟩)
      (fun m => (m.stage.layer, m.stage.sublayer, m.change))).codec

def duration : Codec Duration :=
  cases [.unit "Permanent" .permanent, .unit "EndOfTurn" .endOfTurn,
    .unit "EndOfCombat" .endOfCombat, .unit "UntilYourNextTurn" .untilYourNextTurn,
    .unit "WhileSourceOnBattlefield" .whileSourceOnBattlefield,
    .unit "WhileAttached" .whileAttached,
    .of "ForTurns" word .forTurns fun
      | .forTurns n => some n
      | _ => none]

def floatingEffect : Codec FloatingEffect :=
  (((Fields.required "id" floatingId).and <|
    (Fields.required "modification" placedModification).and <|
    (Fields.required "affected" objectId.set).and <|
    (Fields.required "duration" duration).and <|
    (Fields.optional "source" objectId).and <|
    (Fields.required "controller" seat).and <|
    (Fields.required "timestamp" long).and <| .required "created_turn" word).iso
      (fun (id, modification, affected, duration, source, controller, timestamp, createdTurn) =>
        { id, modification, affected, duration, source, controller, timestamp, createdTurn })
      (fun e =>
        (e.id, e.modification, e.affected, e.duration, e.source, e.controller, e.timestamp,
          e.createdTurn))).codec

def playerFilter : Codec PlayerFilter :=
  cases [.unit "Any" .anyone, .unit "You" .you, .unit "Opponent" .opponent]

/-- Requirements nested less than a given number of times. -/
def requirementLevel : Nat → Codec Requirement
  | 0 => empty
  | n + 1 =>
    cases [
      .of "Creature" filter .creature fun
        | .creature f => some f
        | _ => none,
      .of "Permanent" filter .permanent fun
        | .permanent f => some f
        | _ => none,
      .of "Player" playerFilter .player fun
        | .player f => some f
        | _ => none,
      .record "CardInZone"
        ((Fields.required "zone" zoneKind).and <| .required "filter" filter)
        (fun (zone, f) => .cardInZone zone f) fun
        | .cardInZone zone f => some (zone, f)
        | _ => none,
      .of "Spell" filter .spell fun
        | .spell f => some f
        | _ => none,
      .unit "AnyTarget" .anyTarget,
      .record "OtherThan"
        ((Fields.required "requirement" (delay fun _ => requirementLevel n)).and <|
          .required "excluded" reference)
        (fun (r, excluded) => .otherThan r excluded) fun
        | .otherThan r excluded => some (r, excluded)
        | _ => none]

/-- How deep a requirement is nested. -/
def depthOfRequirement : Requirement → Nat
  | .otherThan r _ => depthOfRequirement r + 1
  | _ => 0

def requirement : Codec Requirement := recursive depthOfRequirement requirementLevel

def targetCount : Codec TargetCount :=
  cases [
    .of "Exactly" long .exactly fun
      | .exactly n => some n
      | _ => none,
    .of "UpTo" long .upTo fun
      | .upTo n => some n
      | _ => none,
    .of "AtLeast" long .atLeast fun
      | .atLeast n => some n
      | _ => none,
    .record "Range" ((Fields.required "min" long).and <| .required "max" long)
      (fun (min, max) => .range min max) fun
      | .range min max => some (min, max)
      | _ => none,
    .unit "All" .all]

def targetSpec : Codec TargetSpec :=
  (((Fields.required "requirement" requirement).and <|
    (Fields.required "count" targetCount).and <| .required "optional" bool).iso
      (fun (requirement, count, optional) => { requirement, count, optional })
      (fun s => (s.requirement, s.count, s.optional))).codec

def playerChoice : Codec PlayerChoice :=
  cases [
    .record "Discard" (.required "count" word) .discard fun
      | .discard n => some n
      | _ => none,
    .record "Sacrifice" ((Fields.required "filter" filter).and <| .required "count" word)
      (fun (f, n) => .sacrifice f n) fun
      | .sacrifice f n => some (f, n)
      | _ => none,
    .unit "ChooseCreatureType" .creatureType]

def pick : Codec Pick :=
  cases [
    .of "Objects" objectId.list .objects fun
      | .objects os => some os
      | _ => none,
    .of "CreatureType" subtype .creatureType fun
      | .creatureType s => some s
      | _ => none,
    .unit "Nothing" .nothing]

def cost : Codec Cost :=
  cases [
    .of "PayLife" amount .life fun
      | .life n => some n
      | _ => none,
    .of "DiscardCards" word .discard fun
      | .discard n => some n
      | _ => none,
    .record "SacrificePermanents"
      ((Fields.required "filter" filter).and <| .required "count" word)
      (fun (f, n) => .sacrifice f n) fun
      | .sacrifice f n => some (f, n)
      | _ => none]

/-- Makes a continuous effect an alternative of effects. -/
def continuousCase {α : Type} (name : String) (f : Fields α) (make : α → ContinuousEffect)
    (content : ContinuousEffect → Option α) : Case Effect :=
  .record name f (fun a => .continuous (make a)) fun
    | .continuous e => content e
    | _ => none

/-- Makes an effect on permanents an alternative of effects. -/
def permanentCase {α : Type} (name : String) (f : Fields α) (make : α → PermanentEffect)
    (content : PermanentEffect → Option α) : Case Effect :=
  .record name f (fun a => .permanent (make a)) fun
    | .permanent e => content e
    | _ => none

/-- Makes a removal effect an alternative of effects. -/
def removalCase {α : Type} (name : String) (f : Fields α) (make : α → RemovalEffect)
    (content : RemovalEffect → Option α) : Case Effect :=
  .record name f (fun a => .removal (make a)) fun
    | .removal e => content e
    | _ => none

/-- Makes an effect on damage and life an alternative of effects. -/
def damageCase {α : Type} (name : String) (f : Fields α) (make : α → DamageEffect)
    (content : DamageEffect → Option α) : Case Effect :=
  .record name f (fun a => .damage (make a)) fun
    | .damage e => content e
    | _ => none

/-- Makes an effect on libraries an alternative of effects. -/
def libraryCase {α : Type} (name : String) (f : Fields α) (make : α → LibraryEffect)
    (content : LibraryEffect → Option α) : Case Effect :=
  .record name f (fun a => .library (make a)) fun
    | .library e => content e
    | _ => none

/-- The alternatives that are continuous effects, apart from protection. -/
def continuousCases : List (Case Effect) := [
  continuousCase "ModifyStats"
    ((Fields.required "target" reference).and <|
      (Fields.required "power" dynamicAmount).and <|
      (Fields.required "toughness" dynamicAmount).and <| .required "duration" duration)
    (fun (r, p, t, d) => .modifyStats r p t d) fun
    | .modifyStats r p t d => some (r, p, t, d)
    | _ => none,
  continuousCase "SetBasePowerToughness"
    ((Fields.required "target" reference).and <|
      (Fields.required "power" amount).and <|
      (Fields.required "toughness" amount).and <| .required "duration" duration)
    (fun (r, p, t, d) => .setBase r p t d) fun
    | .setBase r p t d => some (r, p, t, d)
    | _ => none,
  continuousCase "Animate"
    ((Fields.required "target" reference).and <|
      (Fields.required "power" amount).and <|
      (Fields.required "toughness" amount).and <|
      (Fields.required "subtypes" subtype.set).and <| .required "duration" duration)
    (fun (r, p, t, ss, d) => .animate r p t ss d) fun
    | .animate r p t ss d => some (r, p, t, ss, d)
    | _ => none,
  continuousCase "GrantKeyword"
    ((Fields.required "target" reference).and <|
      (Fields.required "keyword" keyword).and <| .required "duration" duration)
    (fun (r, k, d) => .grantKeyword r k d) fun
    | .grantKeyword r k d => some (r, k, d)
    | _ => none,
  continuousCase "RemoveKeyword"
    ((Fields.required "target" reference).and <|
      (Fields.required "keyword" keyword).and <| .required "duration" duration)
    (fun (r, k, d) => .removeKeyword r k d) fun
    | .removeKeyword r k d => some (r, k, d)
    | _ => none,
  continuousCase "ModifyStatsForGroup"
    ((Fields.required "filter" filter).and <|
      (Fields.required "power" dynamicAmount).and <|
      (Fields.required "toughness" dynamicAmount).and <| .required "duration" duration)
    (fun (f, p, t, d) => .modifyGroup f p t d) fun
    | .modifyGroup f p t d => some (f, p, t, d)
    | _ => none,
  continuousCase "GrantKeywordToGroup"
    ((Fields.required "filter" filter).and <|
      (Fields.required "keyword" keyword).and <| .required "duration" duration)
    (fun (f, k, d) => .grantKeywordToGroup f k d) fun
    | .grantKeywordToGroup f k d => some (f, k, d)
    | _ => none,
  continuousCase "GainControl"
    ((Fields.required "target" reference).and <| .required "duration" duration)
    (fun (r, d) => .gainControl r d) fun
    | .gainControl r d => some (r, d)
    | _ => none,
  continuousCase "Regenerate" (.required "target" reference) .regenerate fun
    | .regenerate r => some r
    | _ => none,
  continuousCase "ExileOnDeath" (.required "target" reference) .exileOnDeath fun
    | .exileOnDeath r => some r
    | _ => none]

/-- The alternatives that are effects on permanents. -/
def permanentCases : List (Case Effect) := [
  permanentCase "Tap" (.required "target" reference) .tap fun
    | .tap r => some r
    | _ => none,
  permanentCase "Untap" (.required "target" reference) .untap fun
    | .untap r => some r
    | _ => none,
  permanentCase "AddCounters"
    ((Fields.required "target" reference).and <|
      (Fields.required "kind" counterKind).and <| .required "amount" dynamicAmount)
    (fun (r, kind, n) => .addCounters r kind n) fun
    | .addCounters r kind n => some (r, kind, n)
    | _ => none,
  permanentCase "RemoveCounters"
    ((Fields.required "target" reference).and <|
      (Fields.required "kind" counterKind).and <| .required "amount" dynamicAmount)
    (fun (r, kind, n) => .removeCounters r kind n) fun
    | .removeCounters r kind n => some (r, kind, n)
    | _ => none,
  permanentCase "DistributeCounters"
    ((Fields.required "kind" counterKind).and <| .required "amount" dynamicAmount)
    (fun (kind, n) => .distributeCounters kind n) fun
    | .distributeCounters kind n => some (kind, n)
    | _ => none]

/-- The alternatives that take objects away. -/
def removalCases : List (Case Effect) := [
  removalCase "Destroy" (.required "target" reference) .destroy fun
    | .destroy r => some r
    | _ => none,
  removalCase "DestroyAll" (.required "filter" filter) .destroyAll fun
    | .destroyAll f => some f
    | _ => none,
  removalCase "Exile" (.required "target" reference) .exile fun
    | .exile r => some r
    | _ => none,
  removalCase "ReturnToHand" (.required "target" reference) .returnToHand fun
    | .returnToHand r => some r
    | _ => none,
  removalCase "Sacrifice"
    ((Fields.required "player" selector).and <|
      (Fields.required "filter" filter).and <| .required "count" dynamicAmount)
    (fun (s, f, n) => .sacrifice s f n) fun
    | .sacrifice s f n => some (s, f, n)
    | _ => none]

/-- The alternatives on damage and life. -/
def damageCases : List (Case Effect) := [
  damageCase "DealDamage"
    ((Fields.required "target" reference).and <| .required "amount" dynamicAmount)
    (fun (r, n) => .deal r n) fun
    | .deal r n => some (r, n)
    | _ => none,
  damageCase "DealDividedDamage" (.required "amount" dynamicAmount) .divide fun
    | .divide n => some n
    | _ => none,
  damageCase "GainLife"
    ((Fields.required "player" selector).and <| .required "amount" dynamicAmount)
    (fun (s, n) => .gainLife s n) fun
    | .gainLife s n => some (s, n)
    | _ => none,
  damageCase "LoseLife"
    ((Fields.required "player" selector).and <| .required "amount" dynamicAmount)
    (fun (s, n) => .loseLife s n) fun
    | .loseLife s n => some (s, n)
    | _ => none]

/-- Players and a number of things. -/
def playersCount : Fields (Selector × Amount) :=
  (Fields.required "player" selector).and <| .required "count" dynamicAmount

/-- The alternatives on libraries, hands and tokens. -/
def libraryCases : List (Case Effect) := [
  libraryCase "Draw" playersCount (fun (s, n) => .draw s n) fun
    | .draw s n => some (s, n)
    | _ => none,
  libraryCase "Discard" playersCount (fun (s, n) => .discard s n) fun
    | .discard s n => some (s, n)
    | _ => none,
  libraryCase "DiscardAtRandom" playersCount (fun (s, n) => .discardAtRandom s n) fun
    | .discardAtRandom s n => some (s, n)
    | _ => none,
  libraryCase "Mill" playersCount (fun (s, n) => .mill s n) fun
    | .mill s n => some (s, n)
    | _ => none,
  libraryCase "ShuffleLibrary" (.required "player" selector) .shuffle fun
    | .shuffle s => some s
    | _ => none,
  libraryCase "Scry" (.required "count" dynamicAmount) .scry fun
    | .scry n => some n
    | _ => none,
  libraryCase "LookAtTopAndReorder" (.required "count" dynamicAmount) .reorderTop fun
    | .reorderTop n => some n
    | _ => none,
  libraryCase "SearchLibrary"
    ((Fields.required "filter" filter).and <|
      (Fields.required "count" word).and <|
      (Fields.required "destination" zoneKind).and <| .required "tapped" bool)
    (fun (f, n, destination, tapped) => .search f n destination tapped) fun
    | .search f n destination tapped => some (f, n, destination, tapped)
    | _ => none,
  libraryCase "RevealAndSeparate"
    ((Fields.required "count" dynamicAmount).and <| .required "separator" selector)
    (fun (n, s) => .separate n s) fun
    | .separate n s => some (n, s)
    | _ => none,
  libraryCase "CreateToken"
    ((Fields.required "token" tokenTemplate).and <|
      (Fields.required "count" dynamicAmount).and <| .required "controller" selector)
    (fun (t, n, s) => .createToken t n s) fun
    | .createToken t n s => some (t, n, s)
    | _ => none]

/-- A mode, given the format of its effect. -/
def modeOf (effect : Codec Effect) : Codec Mode :=
  ((Fields.required "description" string).and <| .required "effect" effect).codec

/-- The alternatives that compose the given kind of effects or ask a player. -/
def composedCases (inner : Codec Effect) : List (Case Effect) := [
  .of "Composite" inner.list .composite fun
    | .composite es => some es
    | _ => none,
  .record "Conditional"
    ((Fields.required "condition" condition).and <|
      (Fields.required "then" inner).and <| .optional "otherwise" inner)
    (fun (c, yes, no) => .conditional c yes no) fun
    | .conditional c yes no => some (c, yes, no)
    | _ => none,
  .record "May" ((Fields.required "prompt" string).and <| .required "effect" inner)
    (fun (prompt, e) => .may prompt e) fun
    | .may prompt e => some (prompt, e)
    | _ => none,
  .record "Modal"
    ((Fields.required "modes" (modeOf inner).list).and <|
      (Fields.required "min" long).and <| .required "max" long)
    (fun (modes, min, max) => .modal modes min max) fun
    | .modal modes min max => some (modes, min, max)
    | _ => none,
  .record "PayOrSuffer"
    ((Fields.required "payer" selector).and <|
      (Fields.required "cost" cost).and <| .required "suffer" inner)
    (fun (payer, c, suffer) => .payOrSuffer payer c suffer) fun
    | .payOrSuffer payer c suffer => some (payer, c, suffer)
    | _ => none,
  continuousCase "ChooseColorProtection"
    ((Fields.required "target" reference).and <| .required "duration" duration)
    (fun (r, d) => .protectFromColor r d) fun
    | .protectFromColor r d => some (r, d)
    | _ => none,
  .record "TargetOnResolution"
    ((Fields.required "spec" targetSpec).and <| .required "effect" inner)
    (fun (spec, e) => .chooseTargets spec e) fun
    | .chooseTargets spec e => some (spec, e)
    | _ => none,
  .record "EachPlayerChooses"
    ((Fields.required "players" selector).and <| .required "choice" playerChoice)
    (fun (players, choice) => .eachPlayerChooses players choice) fun
    | .eachPlayerChooses players choice => some (players, choice)
    | _ => none]

/-- Effects nested less than a given number of times. -/
def effectLevel : Nat → Codec Effect
  | 0 => empty
  | n + 1 =>
    cases (continuousCases ++ permanentCases ++ removalCases ++ damageCases ++ libraryCases ++
      composedCases (delay fun _ => effectLevel n))

mutual

/-- How deep an effect is nested. -/
def depthOfEffect : Effect → Nat
  | .composite es => depthOfEffects es + 1
  | .conditional _ yes no => max (depthOfEffect yes) (depthOfOption no) + 1
  | .may _ e => depthOfEffect e + 1
  | .modal modes _ _ => depthOfModes modes + 1
  | .payOrSuffer _ _ e => depthOfEffect e + 1
  | .chooseTargets _ e => depthOfEffect e + 1
  | _ => 0

def depthOfEffects : List Effect → Nat
  | [] => 0
  | e :: es => max (depthOfEffect e) (depthOfEffects es)

def depthOfOption : Option Effect → Nat
  | none => 0
  | some e => depthOfEffect e

def depthOfModes : List (String × Effect) → Nat
  | [] => 0
  | m :: ms => max (depthOfMode m) (depthOfModes ms)

def depthOfMode : String × Effect → Nat
  | (_, e) => depthOfEffect e

end

def effect : Codec Effect := recursive depthOfEffect effectLevel

def mode : Codec Mode := modeOf effect

def effectKind : Codec EffectKind := cases (EffectKind.all.map fun k => .unit k.name k)

def contextFields : Fields Context :=
  ((Fields.optional "source" objectId).and <|
    (Fields.required "controller" seat).and <|
    (Fields.optional "opponent" seat).and <|
    (Fields.required "targets" objectId.list).and <|
    (Fields.required "x_value" amount).and <|
    (Fields.required "sacrificed" objectId.list).and <|
    (Fields.optional "triggering_entity" objectId).and <|
    (Fields.optional "triggering_player" seat).and <|
    .required "damage_distribution" (numbered ObjectId.mk (·.val) amount)).iso
      (fun (source, controller, opponent, targets, x, sacrificed, triggeringObject,
          triggeringPlayer, division) =>
        { source, controller, opponent, targets, x, sacrificed, triggeringObject,
          triggeringPlayer, division })
      (fun c =>
        (c.source, c.controller, c.opponent, c.targets, c.x, c.sacrificed, c.triggeringObject,
          c.triggeringPlayer, c.division))

def context : Codec Context := contextFields.codec

end Codec

end CardGame
