import CardGame.Proofs.Machine.Change
import CardGame.Proofs.Machine.Mirror
import CardGame.Resolve.Action

/-!
The actions on a machine. Identities and timestamps are handed out one after the other until they
run out, counters are added up until they no longer fit, the place of a frame or of a floating
effect is worked out, and what a player loses is the negative of an amount. Other actions are what
they are.
-/

namespace CardGame

namespace Checked

/-- Hands out a timestamp. -/
def takeTimestamp (g : Game) : Checked (Nat × Game) := do
  let next ← tick maxLong g.nextTimestamp
  return (g.nextTimestamp, { g with nextTimestamp := next })

/-- Hands out the identity of a decision. -/
def takeDecisionId (g : Game) : Checked (DecisionId × Game) := do
  let next ← tick maxWord g.nextDecision
  return (⟨g.nextDecision⟩, { g with nextDecision := next })

/-- Starts a floating effect with a new identity and timestamp. -/
def addFloating (g : Game) (modification : PlacedModification) (affected : SortedSet ObjectId)
    (duration : Duration) (source : Option ObjectId) (controller : Seat) :
    Checked (FloatingId × Game) := do
  let next ← tick maxWord g.nextFloating
  let (timestamp, g') ← takeTimestamp g
  let id : FloatingId := ⟨g.nextFloating⟩
  let effect : FloatingEffect :=
    { id, modification, affected, duration, source, controller, timestamp
      createdTurn := g.turn.number }
  return (id, { g' with nextFloating := next, floating := g.floating ++ [effect] })

/-- Ends the first floating effect of an identity. -/
def removeFloating (g : Game) (id : FloatingId) : Checked Game :=
  match g.floating.findIdx? (·.id = id) with
  | none => return g
  | some i => do return { g with floating := ← removeAt g.floating i }

/-- Puts a frame at a place of the stack, counted from the bottom; beyond the top means the top. -/
def insertFrame (g : Game) (depth : Nat) (f : Frame) : Checked Game := do
  let frames ← insertAt g.stack.reverse (min depth g.stack.length) f
  return { g with stack := frames.reverse }

/-- More counters of a kind. -/
def moreCounters (c : Counters) (kind : CounterKind) (n : Nat) : Checked Counters := do
  return ⟨c.counts.insert kind (← gather (c.count kind) n)⟩

/-- Takes off up to some counters of a kind, and answers how many it took. -/
def fewerCounters (c : Counters) (kind : CounterKind) (n : Nat) : Checked (Nat × Counters) := do
  let taken := min (c.count kind) n
  let left ← sub (c.count kind) taken
  return (taken, ⟨if left = 0 then c.counts.erase kind else c.counts.insert kind left⟩)

theorem takeTimestamp_cases (g : Game) :
    (g.nextTimestamp + 1 ≤ maxLong ∧ takeTimestamp g = .ok g.takeTimestamp) ∨
      takeTimestamp g = .error .exhausted := by
  unfold takeTimestamp
  rcases tick_cases maxLong g.nextTimestamp with ⟨hle, hnext⟩ | hout
  · rw [hnext]
    exact Or.inl ⟨hle, rfl⟩
  · rw [hout]
    exact Or.inr rfl

theorem takeDecisionId_cases (g : Game) :
    (g.nextDecision + 1 ≤ maxWord ∧ takeDecisionId g = .ok g.takeDecisionId) ∨
      takeDecisionId g = .error .exhausted := by
  unfold takeDecisionId
  rcases tick_cases maxWord g.nextDecision with ⟨hle, hnext⟩ | hout
  · rw [hnext]
    exact Or.inl ⟨hle, rfl⟩
  · rw [hout]
    exact Or.inr rfl

theorem addFloating_cases (g : Game) (modification : PlacedModification)
    (affected : SortedSet ObjectId) (duration : Duration) (source : Option ObjectId)
    (controller : Seat) :
    (g.nextFloating + 1 ≤ maxWord ∧ g.nextTimestamp + 1 ≤ maxLong ∧
      addFloating g modification affected duration source controller =
        .ok (g.addFloating modification affected duration source controller)) ∨
      addFloating g modification affected duration source controller = .error .exhausted := by
  unfold addFloating
  rcases tick_cases maxWord g.nextFloating with ⟨hle, hnext⟩ | hout
  · rcases takeTimestamp_cases g with ⟨hle', hstamp⟩ | hout
    · rw [hnext, hstamp]
      exact Or.inl ⟨hle, hle', rfl⟩
    · rw [hnext, hout]
      exact Or.inr rfl
  · rw [hout]
    exact Or.inr rfl

/-- The place where a floating effect is found exists. -/
theorem removeFloating_eq (g : Game) (id : FloatingId) :
    removeFloating g id = .ok (g.removeFloating id) := by
  unfold removeFloating Game.removeFloating
  rw [List.eraseP_eq_eraseIdx]
  cases hfind : g.floating.findIdx? (·.id = id) with
  | none => rfl
  | some i =>
    have hi : i < g.floating.length := by
      obtain ⟨hi, -⟩ := List.findIdx?_eq_some_iff_getElem.mp hfind
      exact hi
    simp only [removeAt_eq hi]
    rfl

/-- A frame is never put above the top. -/
theorem insertFrame_eq (g : Game) (depth : Nat) (f : Frame) :
    insertFrame g depth f = .ok (g.insertFrame depth f) := by
  have hplace : min depth g.stack.length ≤ g.stack.reverse.length := by
    rw [List.length_reverse]
    exact Nat.min_le_right _ _
  have habove : g.stack.length - min depth g.stack.length = g.stack.length - depth := by omega
  unfold insertFrame Game.insertFrame
  simp only [insertAt_eq hplace, ok_bind]
  rw [List.reverse_append, List.reverse_cons, List.append_assoc, List.take_reverse,
    List.drop_reverse, List.reverse_reverse, List.reverse_reverse, habove]
  rfl

theorem moreCounters_cases (c : Counters) (kind : CounterKind) (n : Nat) :
    moreCounters c kind n = .ok (c.add kind n) ∨ moreCounters c kind n = .error .exhausted := by
  unfold moreCounters
  rcases gather_cases (c.count kind) n with hsum | hout
  · rw [hsum]
    exact Or.inl rfl
  · rw [hout]
    exact Or.inr rfl

/-- No more counters are taken off than there are. -/
theorem fewerCounters_eq (c : Counters) (kind : CounterKind) (n : Nat) :
    fewerCounters c kind n = .ok (c.take kind n) := by
  unfold fewerCounters
  simp only [sub_eq (Nat.min_le_left (c.count kind) n)]
  rfl

end Checked

namespace Machine

open Checked

/-- Makes a change in which nothing can trap but which may fail. -/
def edit {α : Type} (e : Edit Game α) : Machine α := lift (Resolve.edit e)

/-- Makes a change that may trap. -/
def change (c : Game → Checked Game) : Machine Unit := do
  let g ← check (c (← game))
  update fun _ => g

/-- Puts a decision to a player and suspends the work that needs the answer. -/
def pause (player : Seat) (prompt : String) (question : Question) (source : Option ObjectId)
    (work : Suspension) : Machine Outcome := do
  let (id, g) ← check (takeDecisionId (← game))
  let decision : Decision := { id, player, prompt, source, question }
  update fun _ => { g.pushFrame ⟨some id, work⟩ with pending := some decision }
  emit (.decisionRequested id player)
  return .paused decision

/-- Records when an object entered the battlefield and who controls it. -/
def enterBattlefield (o : ObjectId) (controller : Seat) : Machine Unit := do
  let (timestamp, g) ← check (takeTimestamp (← game))
  update fun _ => g
  edit (Game.setFacet o (.entered g.turn.number timestamp))
  edit (Game.setFacet o (.controller controller))

/-- Moves an object to a zone and answers where it was. -/
def move (o : ObjectId) (target : Zone) (p : Position) (controller : Option Seat) :
    Machine Zone := do
  match (← game).zone? o with
  | none => throw (.objectNotFound o)
  | some origin =>
    let _ ← edit (Game.onZones (Zones.move o target p))
    if origin.kind = .battlefield then
      if target.kind ≠ .battlefield then update (·.leaveBattlefield o)
    else if target.kind = .battlefield then enterBattlefield o (controller.getD target.owner)
    return origin

/-- Brings a new object into a zone. -/
def spawn (card : Card) (owner : Seat) (kind : ZoneKind) (token : Bool) : Machine ObjectId := do
  let g ← game
  let o : ObjectId := ⟨g.nextObject⟩
  let next ← check (tick maxWord g.nextObject)
  let facets := (Facets.empty.insert (.card card)).insert (.owner owner)
  let facets := if token then facets.insert .token else facets
  update fun _ => { g with nextObject := next, objects := g.objects.insert o facets }
  match g.zones.add o ⟨owner, kind⟩ .top with
  | .error failure => throw failure
  | .ok zones =>
    update ({ · with zones })
    if kind = .battlefield then enterBattlefield o owner
    return o

/-- Moves an object, tells it, and answers where it was. -/
def moveTo (o : ObjectId) (target : Zone) (p : Position) (controller : Option Seat) :
    Machine Zone := do
  let origin ← move o target p controller
  emit (.zoneChanged o origin target)
  if !(← game).contains o then emit (.tokenCeased o)
  return origin

/-- Moves an object to its owner's zone of a kind. -/
def moveToOwners (o : ObjectId) (kind : ZoneKind) : Machine Zone := do
  moveTo o ⟨← lift (Resolve.owner o), kind⟩ .top none

/-- Puts an object onto its owner's battlefield. -/
def putOntoBattlefield (o : ObjectId) (controller : Option Seat) (tapped : Bool) :
    Machine Unit := do
  let _ ← moveTo o (.battlefield (← lift (Resolve.owner o))) .top controller
  if tapped then lift (Resolve.tap o)

/-- Draws some cards, or as many as the library holds. -/
def draw (s : Seat) (count : Nat) : Machine (List ObjectId) := do
  let cards := (← game).topOfLibrary s count
  cards.forM fun o => do
    let _ ← moveTo o (.hand s) .top none
    emit (.cardDrawn s o)
  return cards

/-- Discards the given cards of a hand. -/
def discard (s : Seat) (cards : List ObjectId) : Machine Unit := do
  cards.forM fun o => do
    if (← game).zone? o ≠ some (.hand s) then throw (.misplaced o (.within (.hand s)))
    let _ ← moveToOwners o .graveyard
    emit (.cardDiscarded s o)

/-- Puts some cards from the top of a library into the graveyard. -/
def mill (s : Seat) (count : Nat) : Machine (List ObjectId) := do
  let cards := (← game).topOfLibrary s count
  cards.forM fun o => do
    let _ ← moveToOwners o .graveyard
  return cards

/-- Puts a permanent into its owner's graveyard, or into exile if it is marked for that. -/
def die (o : ObjectId) (c : Characteristics) : Machine Unit := do
  let _ ← moveToOwners o (if c.exileOnDeath then .exile else .graveyard)

/-- Uses up a shield instead of destroying a permanent, which is tapped, healed and taken out of
combat. -/
def regenerate (o : ObjectId) : Machine Unit := do
  match Resolve.shield? (← game) o with
  | none => pure ()
  | some e =>
    change (removeFloating · e.id)
    emit (.floatingExpired e.id)
  lift (Resolve.tap o)
  update (·.eraseFacets o [.damage, .attacking, .blocking, .blocked])
  emit (.regenerated o)

/-- Destroys a permanent and answers whether it was destroyed. -/
def destroy (o : ObjectId) (c : Characteristics) : Machine Bool := do
  lift (Resolve.requireIn o .battlefield)
  if c.hasKeyword .indestructible then return false
  else if 0 < c.regenerationShields then
    regenerate o
    return false
  else
    emit (.destroyed o)
    die o c
    return true

/-- Sacrifices a permanent that the player controls. -/
def sacrifice (s : Seat) (o : ObjectId) (c : Characteristics) : Machine Unit := do
  lift (Resolve.requireIn o .battlefield)
  if c.controller ≠ some s then throw (.notController s o)
  emit (.sacrificed s o)
  die o c

def addCounters (o : ObjectId) (kind : CounterKind) (n : Nat) : Machine Unit := do
  lift (Resolve.requireIn o .battlefield)
  if n ≠ 0 then
    let counters ← check (moreCounters (((← game).facets o).counters?.getD {}) kind n)
    edit (Game.setFacet o (.counters counters))
    emit (.countersAdded o kind n)

/-- Removes up to some counters and answers how many there were to remove. -/
def removeCounters (o : ObjectId) (kind : CounterKind) (n : Nat) : Machine Nat := do
  lift (Resolve.requireIn o .battlefield)
  match ((← game).facets o).counters? with
  | none => return 0
  | some counters =>
    let (taken, left) ← check (fewerCounters counters kind n)
    if left.isEmpty then update (·.eraseFacet o .counters)
    else edit (Game.setFacet o (.counters left))
    if 0 < taken then emit (.countersRemoved o kind taken)
    return taken

/-- Deals damage: what a player loses is the negative of it, and what a planeswalker loses is the
number that it is. -/
def dealDamage (source : Option ObjectId) (target : ObjectId) (n : Int)
    (c : Option Characteristics) : Machine Unit := do
  if 0 < n then
    match (← game).seat? target with
    | some s =>
      emit (.damageDealt source target n)
      lift (Resolve.changeLife s (← check (neg n)))
    | none =>
      lift (Resolve.requireIn target .battlefield)
      match c with
      | none => throw (.objectNotFound target)
      | some c =>
        if !c.hasType .creature && !c.hasType .planeswalker then throw (.undamageable target)
        emit (.damageDealt source target n)
        if c.hasType .creature then
          let marked := ((← game).facets target).damage?.getD 0
          edit (Game.setFacet target (.damage (saturate (marked + n))))
        if c.hasType .planeswalker then
          let _ ← removeCounters target .loyalty (← check (fit maxWord n.toNat))

/-- Starts a floating effect. -/
def addFloating (change : Modification) (affected : SortedSet ObjectId) (duration : Duration)
    (ctx : Context) : Machine Unit := do
  let (id, g) ←
    check (Checked.addFloating (← game) change.placed affected duration ctx.source ctx.controller)
  update fun _ => g
  emit (.floatingCreated id change affected.toList)

/-- Creates a token under a player's control. -/
def createToken (t : TokenTemplate) (s : Seat) : Machine ObjectId := do
  let o ← spawn t.toCard s .battlefield true
  edit (Game.setFacet o (.controller s))
  emit (.tokenCreated o s)
  return o

/-- The permanent that a reference names, with its characteristics. -/
def permanent (rules : Rules) (ctx : Context) (r : Reference) :
    Machine (ObjectId × Characteristics) := do
  let o ← lift (Resolve.object ctx r)
  lift (Resolve.requireIn o .battlefield)
  let v ← view rules
  return (o, ← lift (Resolve.characteristics v o))

/-- The value of an amount. -/
def amount (rules : Rules) (ctx : Context) (a : Amount) : Machine Int := do
  let v ← view rules
  check (evaluate v ctx a)

/-- The value of an amount as a number of things. -/
def count (rules : Rules) (ctx : Context) (a : Amount) : Machine Nat := do
  let n ← amount rules ctx a
  check (fit maxWord (max n 0).toNat)

/-- The players that a selector names. -/
def players (rules : Rules) (ctx : Context) (sel : Selector) : Machine (List Seat) := do
  let v ← view rules
  check (Checked.players v ctx sel)

end Machine

end CardGame
