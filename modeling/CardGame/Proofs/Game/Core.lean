import CardGame.Proofs.Failure
import CardGame.Game.Change
import CardGame.Game.Cleanup

/-!
The part of a game that resolving depends on. Suspended work, the pending decision and the number of
the next decision take no part in it. Neither do floating effects that have run out of turns: they
do nothing and can only be swept, so that it does not matter when. `Game.core` leaves these out, and
the lemmas here say that reading a game reads its core and that changing it changes its core.
-/

namespace CardGame

/-- A floating effect that has no turns left. Shields are looked for without asking how long they
last, so they do not count. -/
def FloatingEffect.isSpent (e : FloatingEffect) : Bool :=
  decide (e.duration = .forTurns 0) && decide (e.modification.change ≠ .regenerationShield)

/-- A game without suspended work and, if `pruned`, without spent floating effects. -/
def Game.core (pruned : Bool) (g : Game) : Game :=
  { g with
    floating := g.floating.filter fun e => !(pruned && e.isSpent)
    stack := []
    pending := none
    nextDecision := 0 }

namespace Game

variable {b : Bool} {g : Game}

@[simp] theorem seats_core : (g.core b).seats = g.seats := rfl
@[simp] theorem objects_core : (g.core b).objects = g.objects := rfl
@[simp] theorem zones_core : (g.core b).zones = g.zones := rfl
@[simp] theorem turn_core : (g.core b).turn = g.turn := rfl
@[simp] theorem random_core : (g.core b).random = g.random := rfl
@[simp] theorem nextObject_core : (g.core b).nextObject = g.nextObject := rfl
@[simp] theorem nextTimestamp_core : (g.core b).nextTimestamp = g.nextTimestamp := rfl
@[simp] theorem nextFloating_core : (g.core b).nextFloating = g.nextFloating := rfl
@[simp] theorem facets_core : (g.core b).facets = g.facets := rfl
@[simp] theorem contains_core : (g.core b).contains = g.contains := rfl
@[simp] theorem has_core : (g.core b).has = g.has := rfl
@[simp] theorem life_core : (g.core b).life = g.life := rfl
@[simp] theorem seat?_core : (g.core b).seat? = g.seat? := rfl
@[simp] theorem owner?_core : (g.core b).owner? = g.owner? := rfl
@[simp] theorem baseController?_core : (g.core b).baseController? = g.baseController? := rfl
@[simp] theorem zone?_core : (g.core b).zone? = g.zone? := rfl
@[simp] theorem onBattlefield_core : (g.core b).onBattlefield = g.onBattlefield := rfl
@[simp] theorem battlefield_core : (g.core b).battlefield = g.battlefield := rfl
@[simp] theorem zone_core : (g.core b).zone = g.zone := rfl
@[simp] theorem hand_core : (g.core b).hand = g.hand := rfl
@[simp] theorem library_core : (g.core b).library = g.library := rfl
@[simp] theorem topOfLibrary_core : (g.core b).topOfLibrary = g.topOfLibrary := rfl
@[simp] theorem players_core : (g.core b).players = g.players := rfl
@[simp] theorem turnOrder_core : (g.core b).turnOrder = g.turnOrder := rfl
@[simp] theorem graveyardCreatureTypes_core :
    (g.core b).graveyardCreatureTypes = g.graveyardCreatureTypes := rfl
@[simp] theorem isActive_core : (g.core b).isActive = g.isActive := rfl

@[simp] theorem core_core (c : Bool) : (g.core c).core b = g.core (b || c) := by
  simp only [core, List.filter_filter]
  congr 2
  funext e
  cases b <;> cases c <;> simp

@[simp] theorem eraseFacet_core (o : ObjectId) (kind : FacetKind) :
    (g.core b).eraseFacet o kind = (g.eraseFacet o kind).core b := rfl

@[simp] theorem eraseFacets_core (o : ObjectId) (kinds : List FacetKind) :
    (g.core b).eraseFacets o kinds = (g.eraseFacets o kinds).core b := by
  unfold eraseFacets
  induction kinds generalizing g with
  | nil => rfl
  | cons kind rest ih => simp only [List.foldl_cons, eraseFacet_core, ih]

theorem isSpent_of_releaseFrom {o : ObjectId} {e e' : FloatingEffect}
    (h : releaseFrom o e = some e') : e'.isSpent = e.isSpent := by
  unfold releaseFrom at h
  split at h
  · split at h
    · cases h
    · cases h
      rfl
  · cases h
    rfl

private theorem filterMap_releaseFrom_filter (o : ObjectId) (fs : List FloatingEffect) :
    (fs.filter fun e => !(b && e.isSpent)).filterMap (releaseFrom o) =
      (fs.filterMap (releaseFrom o)).filter fun e => !(b && e.isSpent) := by
  rw [List.filterMap_filter, List.filter_filterMap]
  congr 1
  funext e
  cases hrelease : releaseFrom o e with
  | none => simp
  | some e' =>
    rw [← isSpent_of_releaseFrom hrelease]
    cases hkept : !(b && e'.isSpent) <;> simp [Option.filter, hkept]

/-- Without an object, the floating effects of the core are the core's floating effects. -/
private theorem releaseAll_core (o : ObjectId) :
    ({ g.core b with floating := (g.core b).floating.filterMap (releaseFrom o) } : Game) =
      ({ g with floating := g.floating.filterMap (releaseFrom o) } : Game).core b := by
  simp only [core, filterMap_releaseFrom_filter]

@[simp] theorem leaveBattlefield_core (o : ObjectId) :
    (g.core b).leaveBattlefield o = (g.leaveBattlefield o).core b := by
  unfold leaveBattlefield
  simp only [eraseFacets_core]
  generalize g.eraseFacets o permanentFacets = g'
  simp only [releaseAll_core, has_core]
  split
  · simp only [core, filterMap_releaseFrom_filter]
  · rfl

@[simp] theorem shuffleLibrary_core (s : Seat) :
    (g.core b).shuffleLibrary s = (g.shuffleLibrary s).core b := rfl

/-- A new floating effect is new for the core, too. -/
theorem core_addFloating (modification : PlacedModification) (affected : SortedSet ObjectId)
    (duration : Duration) (source : Option ObjectId) (controller : Seat) :
    ((g.core b).addFloating modification affected duration source controller).2.core b =
      (g.addFloating modification affected duration source controller).2.core b := by
  simp [addFloating, core, List.filter_append, List.filter_filter]

/-- What is recorded of a new object. -/
def newFacets (card : Card) (owner : Seat) (token : Bool) : Facets :=
  let facets := (Facets.empty.insert (.card card)).insert (.owner owner)
  if token then facets.insert .token else facets

/-- A game with a new object, given the zones that it was put in. -/
def arrival (g : Game) (card : Card) (owner : Seat) (token : Bool) (zones : Zones) : Game :=
  { g with
    nextObject := g.nextObject + 1
    objects := g.objects.insert ⟨g.nextObject⟩ (newFacets card owner token)
    zones }

private theorem get_bind {α : Type} (k : Game → Edit Game α) (g : Game) :
    ((get : Edit Game Game) >>= k) g = k g g := rfl

private theorem set_bind {α : Type} (g' : Game) (k : PUnit → Edit Game α) (g : Game) :
    ((set g' : Edit Game PUnit) >>= k) g = k ⟨⟩ g' := rfl

private theorem modify_bind {α : Type} (f : Game → Game) (k : PUnit → Edit Game α) (g : Game) :
    ((modify f : Edit Game PUnit) >>= k) g = k ⟨⟩ (f g) := rfl

/-- A new object arrives, unless its zone does not take it, and may then enter the battlefield. -/
theorem spawn_eq (card : Card) (owner : Seat) (kind : ZoneKind) (token : Bool) (g : Game) :
    spawn card owner kind token g =
      match g.zones.add ⟨g.nextObject⟩ ⟨owner, kind⟩ .top with
      | .error failure => .error failure (g.arrival card owner token g.zones)
      | .ok zones =>
        (if kind = .battlefield then
          (enterBattlefield ⟨g.nextObject⟩ owner >>= fun _ => pure ⟨g.nextObject⟩)
          else pure (⟨g.nextObject⟩ : ObjectId) : Edit Game ObjectId)
            (g.arrival card owner token zones) := by
  unfold spawn
  rw [get_bind]
  simp only []
  rw [set_bind]
  cases g.zones.add ⟨g.nextObject⟩ ⟨owner, kind⟩ .top with
  | error failure => rfl
  | ok zones =>
    simp only []
    rw [modify_bind]
    split <;> rfl

end Game

namespace Edit

variable {α β : Type}

/-- The outcome of an edit with the core of the game it leaves. -/
def onCore (b : Bool) : EStateM.Result Failure Game α → EStateM.Result Failure Game α
  | .ok a g => .ok a (g.core b)
  | .error failure g => .error failure (g.core b)

/-- An edit that does to the core what it does to the game, and that never fails as if the caller
had lost track of the decisions. -/
structure Natural (e : Edit Game α) : Prop where
  onCore : ∀ b g, e (g.core b) = onCore b (e g)
  plain : ∀ {g g' : Game} {failure : Failure}, e g = .error failure g' →
    failure.isOfCalls = false

theorem natural_pure (a : α) : Natural (pure a) where
  onCore _ _ := rfl
  plain h := by cases h

theorem natural_throw {failure : Failure} (hplain : failure.isOfCalls = false) :
    Natural (throw failure : Edit Game α) where
  onCore _ _ := rfl
  plain h := by
    cases h
    exact hplain

theorem Natural.bind {e : Edit Game α} {k : α → Edit Game β} (he : Natural e)
    (hk : ∀ a, Natural (k a)) : Natural (e >>= k) where
  onCore b g := by
    change EStateM.bind e k (g.core b) = Edit.onCore b (EStateM.bind e k g)
    unfold EStateM.bind
    rw [he.onCore b g]
    cases e g with
    | ok a g' => exact (hk a).onCore b g'
    | error failure g' => rfl
  plain {g g' failure} h := by
    change EStateM.bind e k g = .error failure g' at h
    unfold EStateM.bind at h
    split at h
    · exact (hk _).plain h
    · next failure' g'' hfirst =>
      cases h
      exact he.plain hfirst

theorem natural_get_bind {k : Game → Edit Game α} (hread : ∀ b g, k (g.core b) = k g)
    (hk : ∀ g, Natural (k g)) : Natural (get >>= k) where
  onCore b g := by
    change k (g.core b) (g.core b) = Edit.onCore b (k g g)
    rw [hread, (hk g).onCore b g]
  plain {g g' failure} h := (hk g).plain h

theorem natural_modify {f : Game → Game} (hf : ∀ b g, f (g.core b) = (f g).core b) :
    Natural (modify f) where
  onCore b g := by
    change EStateM.Result.ok PUnit.unit (f (g.core b)) = .ok PUnit.unit ((f g).core b)
    rw [hf]
  plain h := by cases h

theorem natural_setFacet (o : ObjectId) (f : Facet) : Natural (Game.setFacet o f) where
  onCore b g := by
    unfold Game.setFacet
    rw [Game.contains_core]
    split <;> rfl
  plain h := by
    unfold Game.setFacet at h
    split at h <;> cases h
    rfl

theorem natural_setLife (s : Seat) (life : Int) : Natural (Game.setLife s life) where
  onCore b g := by
    unfold Game.setLife
    rw [Game.facets_core]
    split
    · exact (natural_setFacet _ _).onCore b g
    · rfl
  plain h := by
    unfold Game.setLife at h
    split at h
    · exact (natural_setFacet _ _).plain h
    · cases h
      rfl

theorem natural_onZones {e : Edit Zones α}
    (hplain : ∀ {zs zs' failure}, e zs = .error failure zs' → failure.isOfCalls = false) :
    Natural (Game.onZones e) where
  onCore b g := by
    unfold Game.onZones
    rw [Game.zones_core]
    split <;> rfl
  plain h := by
    unfold Game.onZones at h
    split at h
    · cases h
    · next hfailed =>
      cases h
      exact hplain hfailed

theorem natural_moveZones (o : ObjectId) (z : Zone) (p : Position) :
    Natural (Game.onZones (Zones.move o z p)) := by
  refine natural_onZones fun {zs zs' failure} h => ?_
  unfold Zones.move at h
  split at h
  · cases h
    rfl
  · split at h
    · cases h
    · next hadd => split at h <;> cases h <;> exact (Zones.plain_add _ _ _ _).fault _ hadd

theorem natural_enterBattlefield (o : ObjectId) (controller : Seat) :
    Natural (Game.enterBattlefield o controller) := by
  have hset (g : Game) := (natural_setFacet o (.entered g.turn.number g.nextTimestamp)).bind
    fun _ => natural_setFacet o (.controller controller)
  exact {
    onCore := fun b g => (hset g).onCore b { g with nextTimestamp := g.nextTimestamp + 1 }
    plain := fun {g _ _} h => (hset g).plain h }

theorem natural_move (o : ObjectId) (target : Zone) (p : Position) (controller : Option Seat) :
    Natural (Game.move o target p controller) := by
  unfold Game.move
  refine natural_get_bind (fun b g => rfl) fun g => ?_
  cases g.zone? o with
  | none => exact natural_throw rfl
  | some origin =>
    refine (natural_moveZones _ _ _).bind fun _ => ?_
    split
    · split
      · exact (natural_modify fun b g => Game.leaveBattlefield_core o).bind fun _ => natural_pure _
      · exact natural_pure _
    · split
      · exact (natural_enterBattlefield _ _).bind fun _ => natural_pure _
      · exact natural_pure _

theorem natural_spawn (card : Card) (owner : Seat) (kind : ZoneKind) (token : Bool) :
    Natural (Game.spawn card owner kind token) := by
  have hentering (o : ObjectId) : Natural (if kind = .battlefield then
      (Game.enterBattlefield o owner >>= fun _ => pure o) else pure o) := by
    split
    · exact (natural_enterBattlefield _ _).bind fun _ => natural_pure _
    · exact natural_pure _
  constructor
  · intro b g
    simp only [Game.spawn_eq, Game.zones_core, Game.nextObject_core]
    cases g.zones.add ⟨g.nextObject⟩ ⟨owner, kind⟩ .top with
    | error failure => rfl
    | ok zones => exact (hentering _).onCore b (g.arrival card owner token zones)
  · intro g g' failure h
    rw [Game.spawn_eq] at h
    split at h
    · next hadd =>
      cases h
      exact (Zones.plain_add _ _ _ _).fault _ hadd
    · exact (hentering _).plain h

end Edit

end CardGame
