import CardGame.Resolve.Action

/-!
Resolving effects that change characteristics for a while. They act on what is on the battlefield
when they resolve.
-/

namespace CardGame

namespace ContinuousEffect

/-- Starts floating effects on one permanent. -/
def onPermanent (rules : Rules) (ctx : Context) (target : Reference) (changes : List Modification)
    (duration : Duration) : Resolve Outcome := do
  let (o, _) ← Resolve.permanent rules ctx target
  changes.forM fun change => Resolve.addFloating change (.singleton o) duration ctx
  return .done

/-- Starts one floating effect on every permanent that a filter accepts, if there is one. -/
def onGroup (rules : Rules) (ctx : Context) (f : ObjectFilter) (change : Modification)
    (duration : Duration) : Resolve Outcome := do
  let affected := SortedSet.ofList ((← Resolve.view rules).permanents f ctx.forFilter)
  if !affected.isEmpty then Resolve.addFloating change affected duration ctx
  return .done

/-- What animation does to a permanent. -/
def animation (power toughness : Int) (subtypes : SortedSet CardSubtype) : List Modification :=
  [.addTypes (.singleton .creature)] ++
    (if subtypes.isEmpty then [] else [.addSubtypes subtypes]) ++ [.setBase power toughness]

def resolve (rules : Rules) (ctx : Context) : ContinuousEffect → Resolve Outcome
  | .modifyStats target power toughness duration => do
    let p ← Resolve.amount rules ctx power
    let t ← Resolve.amount rules ctx toughness
    onPermanent rules ctx target [.modify p t] duration
  | .setBase target power toughness duration =>
    onPermanent rules ctx target [.setBase power toughness] duration
  | .animate target power toughness subtypes duration =>
    onPermanent rules ctx target (animation power toughness subtypes) duration
  | .grantKeyword target keyword duration =>
    onPermanent rules ctx target [.grantKeyword keyword] duration
  | .removeKeyword target keyword duration =>
    onPermanent rules ctx target [.removeKeyword keyword] duration
  | .modifyGroup f power toughness duration => do
    let p ← Resolve.amount rules ctx power
    let t ← Resolve.amount rules ctx toughness
    onGroup rules ctx f (.modify p t) duration
  | .grantKeywordToGroup f keyword duration =>
    onGroup rules ctx f (.grantKeyword keyword) duration
  | .gainControl target duration =>
    onPermanent rules ctx target [.changeController ctx.controller] duration
  | .regenerate target => onPermanent rules ctx target [.regenerationShield] .endOfTurn
  | .exileOnDeath target => onPermanent rules ctx target [.exileOnDeath] .endOfTurn
  | .protectFromColor target duration => do
    let (o, _) ← Resolve.permanent rules ctx target
    Resolve.pause ctx.controller "Choose a color" (.color Color.all) ctx.source
      (.chooseColor o duration ctx)

/-- Protects a permanent from the color that was chosen, if it is still on the battlefield. -/
def protect (player : Seat) (target : ObjectId) (duration : Duration) (ctx : Context)
    (color : Color) : Resolve Outcome := do
  Resolve.emit (.colorChosen player color)
  if (← Resolve.game).onBattlefield target then
    Resolve.addFloating (.grantKeyword (.protectionFrom color)) (.singleton target) duration ctx
  return .done

end ContinuousEffect

end CardGame
