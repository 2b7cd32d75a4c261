import CardGame.Resolve.Basic

/-!
The actions that effects are made of: moving, destroying and sacrificing objects, drawing and
discarding, tapping, counters, life and damage, floating effects and tokens.
-/

namespace CardGame

namespace Resolve

/-- Moves an object and answers where it was. -/
def moveTo (o : ObjectId) (target : Zone) (p : Position) (controller : Option Seat) :
    Resolve Zone := do
  let origin ← edit (Game.move o target p controller)
  emit (.zoneChanged o origin target)
  if !(← game).contains o then emit (.tokenCeased o)
  return origin

/-- Moves an object to its owner's zone of a kind. -/
def moveToOwners (o : ObjectId) (kind : ZoneKind) : Resolve Zone := do
  moveTo o ⟨← owner o, kind⟩ .top none

/-- Taps a permanent. -/
def tap (o : ObjectId) : Resolve Unit := do
  requireIn o .battlefield
  if !(← game).has o .tapped then
    edit (Game.setFacet o .tapped)
    emit (.tapped o)

/-- Untaps a permanent. -/
def untap (o : ObjectId) : Resolve Unit := do
  requireIn o .battlefield
  let wasTapped := (((← game).facets o).get? .tapped).isSome
  update (·.eraseFacet o .tapped)
  if wasTapped then emit (.untapped o)

/-- Puts an object onto its owner's battlefield. -/
def putOntoBattlefield (o : ObjectId) (controller : Option Seat) (tapped : Bool) :
    Resolve Unit := do
  let _ ← moveTo o (.battlefield (← owner o)) .top controller
  if tapped then tap o

/-- Draws some cards, or as many as the library holds. -/
def draw (s : Seat) (count : Nat) : Resolve (List ObjectId) := do
  let cards := (← game).topOfLibrary s count
  cards.forM fun o => do
    let _ ← moveTo o (.hand s) .top none
    emit (.cardDrawn s o)
  return cards

/-- Discards the given cards of a hand. -/
def discard (s : Seat) (cards : List ObjectId) : Resolve Unit := do
  cards.forM fun o => do
    if (← game).zone? o ≠ some (.hand s) then throw (.misplaced o (.within (.hand s)))
    let _ ← moveToOwners o .graveyard
    emit (.cardDiscarded s o)

/-- Puts some cards from the top of a library into the graveyard. -/
def mill (s : Seat) (count : Nat) : Resolve (List ObjectId) := do
  let cards := (← game).topOfLibrary s count
  cards.forM fun o => do
    let _ ← moveToOwners o .graveyard
  return cards

def shuffleLibrary (s : Seat) : Resolve Unit := do
  update (·.shuffleLibrary s)
  emit (.libraryShuffled s)

/-- Puts a permanent into its owner's graveyard, or into exile if it is marked for that. -/
def die (o : ObjectId) (c : Characteristics) : Resolve Unit := do
  let _ ← moveToOwners o (if c.exileOnDeath then .exile else .graveyard)

/-- The older of two floating effects; of two equally old ones the first. -/
def older (e f : FloatingEffect) : FloatingEffect := if f.timestamp < e.timestamp then f else e

/-- The oldest regeneration shield of a permanent. -/
def shield? (g : Game) (o : ObjectId) : Option FloatingEffect :=
  match g.floating.filter fun e =>
    e.modification.change = .regenerationShield && e.affected.contains o with
  | [] => none
  | e :: rest => some (rest.foldl older e)

/-- Uses up a shield instead of destroying a permanent, which is tapped, healed and taken out of
combat. -/
def regenerate (o : ObjectId) : Resolve Unit := do
  match shield? (← game) o with
  | none => pure ()
  | some e =>
    update (·.removeFloating e.id)
    emit (.floatingExpired e.id)
  tap o
  update (·.eraseFacets o [.damage, .attacking, .blocking, .blocked])
  emit (.regenerated o)

/-- Destroys a permanent and answers whether it was destroyed. -/
def destroy (o : ObjectId) (c : Characteristics) : Resolve Bool := do
  requireIn o .battlefield
  if c.hasKeyword .indestructible then return false
  else if 0 < c.regenerationShields then
    regenerate o
    return false
  else
    emit (.destroyed o)
    die o c
    return true

/-- Sacrifices a permanent that the player controls. -/
def sacrifice (s : Seat) (o : ObjectId) (c : Characteristics) : Resolve Unit := do
  requireIn o .battlefield
  if c.controller ≠ some s then throw (.notController s o)
  emit (.sacrificed s o)
  die o c

def addCounters (o : ObjectId) (kind : CounterKind) (n : Nat) : Resolve Unit := do
  requireIn o .battlefield
  if n ≠ 0 then
    let counters := (((← game).facets o).counters?.getD {}).add kind n
    edit (Game.setFacet o (.counters counters))
    emit (.countersAdded o kind n)

/-- Removes up to some counters and answers how many there were to remove. -/
def removeCounters (o : ObjectId) (kind : CounterKind) (n : Nat) : Resolve Nat := do
  requireIn o .battlefield
  match ((← game).facets o).counters? with
  | none => return 0
  | some counters =>
    let (taken, left) := counters.take kind n
    if left.isEmpty then update (·.eraseFacet o .counters)
    else edit (Game.setFacet o (.counters left))
    if 0 < taken then emit (.countersRemoved o kind taken)
    return taken

def changeLife (s : Seat) (delta : Int) : Resolve Unit := do
  if delta ≠ 0 then
    let before := (← game).life s
    let after := saturate (before + delta)
    edit (Game.setLife s after)
    emit (.lifeChanged s before after)

/-- Deals damage. A player loses life, a creature is marked with the damage, and a planeswalker
loses loyalty. -/
def dealDamage (source : Option ObjectId) (target : ObjectId) (n : Int)
    (c : Option Characteristics) : Resolve Unit := do
  if 0 < n then
    match (← game).seat? target with
    | some s =>
      emit (.damageDealt source target n)
      changeLife s (-n)
    | none =>
      requireIn target .battlefield
      match c with
      | none => throw (.objectNotFound target)
      | some c =>
        if !c.hasType .creature && !c.hasType .planeswalker then throw (.undamageable target)
        emit (.damageDealt source target n)
        if c.hasType .creature then
          let marked := ((← game).facets target).damage?.getD 0
          edit (Game.setFacet target (.damage (saturate (marked + n))))
        if c.hasType .planeswalker then
          let _ ← removeCounters target .loyalty n.toNat

/-- Starts a floating effect. -/
def addFloating (change : Modification) (affected : SortedSet ObjectId) (duration : Duration)
    (ctx : Context) : Resolve Unit := do
  let (id, g) := (← game).addFloating change.placed affected duration ctx.source ctx.controller
  update fun _ => g
  emit (.floatingCreated id change affected.toList)

/-- Creates a token under a player's control. -/
def createToken (t : TokenTemplate) (s : Seat) : Resolve ObjectId := do
  let o ← edit (Game.spawn t.toCard s .battlefield true)
  edit (Game.setFacet o (.controller s))
  emit (.tokenCreated o s)
  return o

end Resolve

end CardGame
