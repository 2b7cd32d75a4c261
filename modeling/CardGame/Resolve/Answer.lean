import CardGame.Resolve.Effect

/-!
Going on with suspended work once the player has answered.
-/

namespace CardGame

namespace Suspension

/-- The effects of the chosen modes. -/
def modeEffects (modes : List Mode) : List Nat → Except Failure (List Effect)
  | [] => .ok []
  | i :: rest =>
    match modes[i]? with
    | none => .error (.noSuchMode i)
    | some (_, e) => do return e :: (← modeEffects modes rest)

/-- Resolves the chosen modes in the order in which the card lists them. -/
def resolveModes (rules : Rules) (player : Seat) (modes : List Mode) (chosen : List Nat)
    (ctx : Context) : Resolve Outcome := do
  let chosen := (SortedSet.ofList chosen).toList
  match modeEffects modes chosen with
  | .error failure => throw failure
  | .ok es =>
    Resolve.emit (.modesChosen player chosen)
    Effect.resolveAll rules es ctx

/-- Pays the cost, or suffers the effect if the cost can no longer be paid. -/
def payOrElse (rules : Rules) (payer : Seat) (cost : Cost) (suffer : Effect) (ctx : Context) :
    Resolve Outcome := do
  if cost.isPayable (← Resolve.view rules) ctx payer then cost.pay rules ctx payer
  else Effect.resolve rules suffer ctx

/-- A distributed amount as damage. -/
def asDamage (shares : SortedMap ObjectId Nat) : SortedMap ObjectId Int :=
  shares.mapEntries fun _ n => countAsAmount n

/-- Goes on with suspended work. The answer must be of the kind that the work waits for. -/
def resume (rules : Rules) (d : Decision) : Suspension → Answer → Resolve Outcome
  | .search player destination tapped, .cards chosen =>
    LibraryEffect.finishSearch player destination tapped chosen
  | .scry player, .cards chosen => LibraryEffect.finishScry player chosen
  | .reorder player, .order objects => LibraryEffect.finishReorder player objects
  | .separatePiles chooser revealed source, .firstPile pile =>
    LibraryEffect.offerPiles chooser revealed source pile
  | .choosePile player first second, .option index =>
    LibraryEffect.takePile player first second d.question index
  | .may effect ctx, .yesNo yes =>
    if yes then effect.resolve rules ctx else return .done
  | .modal modes ctx, .modes chosen => resolveModes rules d.player modes chosen ctx
  | .payOrSuffer payer cost suffer ctx, .yesNo yes =>
    if yes then payOrElse rules payer cost suffer ctx else suffer.resolve rules ctx
  | .payCost payer cost, .cards chosen => do
    cost.payWith rules payer chosen
    return .done
  | .chooseColor target duration ctx, .color color =>
    ContinuousEffect.protect d.player target duration ctx color
  | .chooseTargets effect ctx, .targets chosen => effect.resolve rules (ctx.withTargets chosen)
  | .distributeCounters kind _, .distribution shares => do
    PermanentEffect.placeShares kind shares
    return .done
  | .divideDamage ctx, .distribution shares => do
    DamageEffect.dealShares rules ctx.source (asDamage shares)
    return .done
  | .eachPlayerChooses choice current remaining picks ctx, answer =>
    match PlayerChoice.pickOf d.question answer with
    | .error failure => throw failure
    | .ok pick => choice.goOn rules ctx remaining (picks ++ [(current, pick)])
  | .effects _ _, _ => throw .effectsGivenAnswer
  | _, answer => throw (.wrongAnswer d.question.name answer.name)

end Suspension

end CardGame
