import CardGame.Format.Effects
import CardGame.Projection.Characteristics

/-!
The formats of decisions, suspended work, events, settings and characteristics.
-/

namespace CardGame

namespace Codec

def question : Codec Question :=
  cases [
    .record "ChooseTargets"
      ((Fields.required "legal" objectId.list).and <|
        (Fields.required "min" long).and <| .required "max" long)
      (fun (legal, min, max) => .targets legal min max) fun
      | .targets legal min max => some (legal, min, max)
      | _ => none,
    .record "SelectCards"
      ((Fields.required "options" objectId.list).and <|
        (Fields.required "min" long).and <|
        (Fields.required "max" long).and <| .required "ordered" bool)
      (fun (options, min, max, ordered) => .cards options min max ordered) fun
      | .cards options min max ordered => some (options, min, max, ordered)
      | _ => none,
    .unit "YesNo" .yesNo,
    .record "ChooseMode"
      ((Fields.required "modes" string.list).and <|
        (Fields.required "min" long).and <| .required "max" long)
      (fun (modes, min, max) => .modes modes min max) fun
      | .modes modes min max => some (modes, min, max)
      | _ => none,
    .record "ChooseColor" (.required "options" color.list) .color fun
      | .color options => some options
      | _ => none,
    .record "ChooseOption" (.required "options" string.list) .option fun
      | .option options => some options
      | _ => none,
    .record "ChooseNumber" ((Fields.required "min" amount).and <| .required "max" amount)
      (fun (min, max) => .number min max) fun
      | .number min max => some (min, max)
      | _ => none,
    .record "DistributeAmount"
      ((Fields.required "total" word).and <|
        (Fields.required "targets" objectId.list).and <| .required "min_per_target" word)
      (fun (total, recipients, minimum) => .distribution total recipients minimum) fun
      | .distribution total recipients minimum => some (total, recipients, minimum)
      | _ => none,
    .record "OrderObjects" (.required "objects" objectId.list) .order fun
      | .order os => some os
      | _ => none,
    .record "SplitPiles" (.required "objects" objectId.list) .piles fun
      | .piles os => some os
      | _ => none]

def answer : Codec Answer :=
  cases [
    .of "Targets" objectId.list .targets fun
      | .targets os => some os
      | _ => none,
    .of "Cards" objectId.list .cards fun
      | .cards os => some os
      | _ => none,
    .of "YesNo" bool .yesNo fun
      | .yesNo yes => some yes
      | _ => none,
    .of "Modes" long.list .modes fun
      | .modes chosen => some chosen
      | _ => none,
    .of "Color" color .color fun
      | .color c => some c
      | _ => none,
    .of "Option" long .option fun
      | .option index => some index
      | _ => none,
    .of "Number" amount .number fun
      | .number n => some n
      | _ => none,
    .of "Distribution" (numbered ObjectId.mk (·.val) word) .distribution fun
      | .distribution shares => some shares
      | _ => none,
    .of "Order" objectId.list .order fun
      | .order os => some os
      | _ => none,
    .of "FirstPile" objectId.list .firstPile fun
      | .firstPile os => some os
      | _ => none]

def decision : Codec Decision :=
  (((Fields.required "id" decisionId).and <|
    (Fields.required "player" seat).and <|
    (Fields.required "prompt" string).and <|
    (Fields.optional "source" objectId).and <| .required "kind" question).iso
      (fun (id, player, prompt, source, question) => { id, player, prompt, source, question })
      (fun d => (d.id, d.player, d.prompt, d.source, d.question))).codec

def response : Codec Response :=
  (((Fields.required "decision_id" decisionId).and <| .required "answer" answer).iso
    (fun (decision, answer) => { decision, answer })
    (fun r => (r.decision, r.answer))).codec

def suspension : Codec Suspension :=
  cases [
    .record "PendingEffects"
      ((Fields.required "remaining" effect.list).and <| .required "context" context)
      (fun (es, ctx) => .effects es ctx) fun
      | .effects es ctx => some (es, ctx)
      | _ => none,
    .record "EachPlayerChooses"
      ((Fields.required "choice" playerChoice).and <|
        (Fields.required "current" seat).and <|
        (Fields.required "remaining" seat.list).and <|
        (Fields.required "picks" (seat.pair pick).list).and <| .required "context" context)
      (fun (choice, current, rest, picks, ctx) =>
        .eachPlayerChooses choice current rest picks ctx) fun
      | .eachPlayerChooses choice current rest picks ctx =>
        some (choice, current, rest, picks, ctx)
      | _ => none,
    .record "SearchLibrary"
      ((Fields.required "player" seat).and <|
        (Fields.required "destination" zoneKind).and <| .required "tapped" bool)
      (fun (s, destination, tapped) => .search s destination tapped) fun
      | .search s destination tapped => some (s, destination, tapped)
      | _ => none,
    .record "Scry" (.required "player" seat) .scry fun
      | .scry s => some s
      | _ => none,
    .record "Reorder" (.required "player" seat) .reorder fun
      | .reorder s => some s
      | _ => none,
    .record "SeparatePiles"
      ((Fields.required "chooser" seat).and <|
        (Fields.required "revealed" objectId.list).and <| .optional "source" objectId)
      (fun (s, revealed, source) => .separatePiles s revealed source) fun
      | .separatePiles s revealed source => some (s, revealed, source)
      | _ => none,
    .record "ChoosePile"
      ((Fields.required "player" seat).and <|
        (Fields.required "first" objectId.list).and <| .required "second" objectId.list)
      (fun (s, first, second) => .choosePile s first second) fun
      | .choosePile s first second => some (s, first, second)
      | _ => none,
    .record "May" ((Fields.required "effect" effect).and <| .required "context" context)
      (fun (e, ctx) => .may e ctx) fun
      | .may e ctx => some (e, ctx)
      | _ => none,
    .record "Modal" ((Fields.required "modes" mode.list).and <| .required "context" context)
      (fun (modes, ctx) => .modal modes ctx) fun
      | .modal modes ctx => some (modes, ctx)
      | _ => none,
    .record "PayOrSuffer"
      ((Fields.required "payer" seat).and <|
        (Fields.required "cost" cost).and <|
        (Fields.required "suffer" effect).and <| .required "context" context)
      (fun (s, c, e, ctx) => .payOrSuffer s c e ctx) fun
      | .payOrSuffer s c e ctx => some (s, c, e, ctx)
      | _ => none,
    .record "PayCost" ((Fields.required "payer" seat).and <| .required "cost" cost)
      (fun (s, c) => .payCost s c) fun
      | .payCost s c => some (s, c)
      | _ => none,
    .record "ChooseColor"
      ((Fields.required "target" objectId).and <|
        (Fields.required "duration" duration).and <| .required "context" context)
      (fun (o, d, ctx) => .chooseColor o d ctx) fun
      | .chooseColor o d ctx => some (o, d, ctx)
      | _ => none,
    .record "TargetOnResolution"
      ((Fields.required "effect" effect).and <| .required "context" context)
      (fun (e, ctx) => .chooseTargets e ctx) fun
      | .chooseTargets e ctx => some (e, ctx)
      | _ => none,
    .record "DistributeCounters"
      ((Fields.required "kind" counterKind).and <| .required "context" context)
      (fun (kind, ctx) => .distributeCounters kind ctx) fun
      | .distributeCounters kind ctx => some (kind, ctx)
      | _ => none,
    .record "DividedDamage" (.required "context" context) .divideDamage fun
      | .divideDamage ctx => some ctx
      | _ => none]

def frame : Codec Frame :=
  (((Fields.optional "decision_id" decisionId).and <| .required "continuation" suspension).iso
    (fun (decision, work) => { decision, work })
    (fun f => (f.decision, f.work))).codec

/-- An object alone. -/
def objectFields : Fields ObjectId := .required "entity" objectId

/-- A player and an object. -/
def playerObject : Fields (Seat × ObjectId) := (Fields.required "player" seat).and objectFields

/-- An object and some counters. -/
def objectCounters : Fields (ObjectId × CounterKind × Nat) :=
  objectFields.and <| (Fields.required "kind" counterKind).and <| .required "amount" word

/-- A decision and the player asked. -/
def decisionPlayer : Fields (DecisionId × Seat) :=
  (Fields.required "id" decisionId).and <| .required "player" seat

def event : Codec Event :=
  cases [
    .record "ZoneChanged"
      (objectFields.and <| (Fields.required "from" zone).and <| .required "to" zone)
      (fun (o, source, target) => .zoneChanged o source target) fun
      | .zoneChanged o source target => some (o, source, target)
      | _ => none,
    .record "CardDrawn" playerObject (fun (s, o) => .cardDrawn s o) fun
      | .cardDrawn s o => some (s, o)
      | _ => none,
    .record "CardDiscarded" playerObject (fun (s, o) => .cardDiscarded s o) fun
      | .cardDiscarded s o => some (s, o)
      | _ => none,
    .record "TokenCeasedToExist" objectFields .tokenCeased fun
      | .tokenCeased o => some o
      | _ => none,
    .record "TokenCreated" (objectFields.and <| .required "controller" seat)
      (fun (o, s) => .tokenCreated o s) fun
      | .tokenCreated o s => some (o, s)
      | _ => none,
    .record "LibraryShuffled" (.required "player" seat) .libraryShuffled fun
      | .libraryShuffled s => some s
      | _ => none,
    .record "LibraryReordered" (.required "player" seat) .libraryReordered fun
      | .libraryReordered s => some s
      | _ => none,
    .record "CardsRevealed"
      ((Fields.required "player" seat).and <| .required "cards" objectId.list)
      (fun (s, os) => .cardsRevealed s os) fun
      | .cardsRevealed s os => some (s, os)
      | _ => none,
    .record "Destroyed" objectFields .destroyed fun
      | .destroyed o => some o
      | _ => none,
    .record "Sacrificed" playerObject (fun (s, o) => .sacrificed s o) fun
      | .sacrificed s o => some (s, o)
      | _ => none,
    .record "Regenerated" objectFields .regenerated fun
      | .regenerated o => some o
      | _ => none,
    .record "Tapped" objectFields .tapped fun
      | .tapped o => some o
      | _ => none,
    .record "Untapped" objectFields .untapped fun
      | .untapped o => some o
      | _ => none,
    .record "CountersAdded" objectCounters (fun (o, kind, n) => .countersAdded o kind n) fun
      | .countersAdded o kind n => some (o, kind, n)
      | _ => none,
    .record "CountersRemoved" objectCounters (fun (o, kind, n) => .countersRemoved o kind n) fun
      | .countersRemoved o kind n => some (o, kind, n)
      | _ => none,
    .record "DamageDealt"
      ((Fields.optional "source" objectId).and <|
        (Fields.required "target" objectId).and <| .required "amount" amount)
      (fun (source, target, n) => .damageDealt source target n) fun
      | .damageDealt source target n => some (source, target, n)
      | _ => none,
    .record "LifeChanged"
      ((Fields.required "player" seat).and <|
        (Fields.required "old" amount).and <| .required "new" amount)
      (fun (s, before, after) => .lifeChanged s before after) fun
      | .lifeChanged s before after => some (s, before, after)
      | _ => none,
    .record "FloatingEffectCreated"
      ((Fields.required "id" floatingId).and <|
        (Fields.required "modification" modification).and <|
        .required "affected" objectId.list)
      (fun (id, change, affected) => .floatingCreated id change affected) fun
      | .floatingCreated id change affected => some (id, change, affected)
      | _ => none,
    .record "FloatingEffectExpired" (.required "id" floatingId) .floatingExpired fun
      | .floatingExpired id => some id
      | _ => none,
    .record "DecisionRequested" decisionPlayer (fun (id, s) => .decisionRequested id s) fun
      | .decisionRequested id s => some (id, s)
      | _ => none,
    .record "DecisionResolved" decisionPlayer (fun (id, s) => .decisionResolved id s) fun
      | .decisionResolved id s => some (id, s)
      | _ => none,
    .record "ColorChosen" ((Fields.required "player" seat).and <| .required "color" color)
      (fun (s, c) => .colorChosen s c) fun
      | .colorChosen s c => some (s, c)
      | _ => none,
    .record "ModesChosen" ((Fields.required "player" seat).and <| .required "modes" long.list)
      (fun (s, modes) => .modesChosen s modes) fun
      | .modesChosen s modes => some (s, modes)
      | _ => none,
    .record "OptionChosen" ((Fields.required "player" seat).and <| .required "option" string)
      (fun (s, option) => .optionChosen s option) fun
      | .optionChosen s option => some (s, option)
      | _ => none]

def tableSettings : Codec TableSettings :=
  (((Fields.required "player_count" long).and <|
    (Fields.withDefault "starting_life" amount 20).and <| .withDefault "seed" long 0).iso
      (fun (players, startingLife, seed) => { players, startingLife, seed })
      (fun s => (s.players, s.startingLife, s.seed))).codec

def rules : Codec Rules :=
  (((Fields.withDefault "max_chain_steps" long 256).and <|
    .withDefault "apply_static_abilities" bool true).iso
      (fun (chainLimit, staticAbilities) => { chainLimit, staticAbilities })
      (fun r => (r.chainLimit, r.staticAbilities))).codec

def characteristics : Codec Characteristics :=
  (((Fields.required "name" string).and <|
    (Fields.optional "owner" seat).and <|
    (Fields.optional "controller" seat).and <|
    (Fields.required "mana_value" word).and <|
    (Fields.required "types" cardType.set).and <|
    (Fields.required "supertypes" supertype.set).and <|
    (Fields.required "subtypes" subtype.set).and <|
    (Fields.required "colors" colorSet).and <|
    (Fields.required "keywords" keyword.set).and <|
    (Fields.optional "power" amount).and <|
    (Fields.optional "toughness" amount).and <|
    (Fields.required "exile_on_death" bool).and <|
    .required "regeneration_shields" word).iso
      (fun (name, owner, controller, manaValue, types, supertypes, subtypes, colors, keywords,
          power, toughness, exileOnDeath, regenerationShields) =>
        { name, owner, controller, manaValue, types, supertypes, subtypes, colors, keywords,
          power, toughness, exileOnDeath, regenerationShields })
      (fun c =>
        (c.name, c.owner, c.controller, c.manaValue, c.types, c.supertypes, c.subtypes,
          c.colors, c.keywords, c.power, c.toughness, c.exileOnDeath,
          c.regenerationShields))).codec

end Codec

/-- Reads settings from a text in which none of the named fields is repeated. Members of other names
may be anything, garbled or not. -/
def readSettings {α : Type} (c : Codec α) (fields : List String) (text : String) :
    Except Failure α :=
  match Json.read? text with
  | none => .error .malformed
  | some j =>
    let names : List String :=
      match j with
      | .obj members => (members.map fun m => m.1).filter fields.contains
      | _ => []
    if names.Nodup then
      match c.ofJson j with
      | some a => .ok a
      | none => .error .malformed
    else .error .malformed

/-- Reads usable table settings from JSON. -/
def TableSettings.ofJsonText (text : String) : Except Failure TableSettings := do
  let s ← readSettings Codec.tableSettings ["player_count", "starting_life", "seed"] text
  s.check
  return s

/-- Reads usable rules from JSON. -/
def Rules.ofJsonText (text : String) : Except Failure Rules := do
  let r ← readSettings Codec.rules ["max_chain_steps", "apply_static_abilities"] text
  r.check
  return r

end CardGame
