import CardGame.Play
import CardGame.Proofs.Decision
import CardGame.Proofs.Effect.Chance

/-!
What resolutions are made of. Every effect, and all work suspended by one, is put together from a
few actions (`Resolve.Act`) by doing one thing after another, by reading the game and by failing
(`Resolve.Woven`). Nothing is said here about what an action does: what holds of every action and
is handed on by these three ways of putting them together holds of every resolution. Both are told
apart by whether chance may play a part, since only some effects shuffle or pick at random, and by
who may be given control of permanents.
-/

namespace CardGame

/-- Whether an event only announces what is done, and reports no change of its own. -/
def Event.isNotice : Event → Bool
  | .cardDrawn _ _ | .cardDiscarded _ _ | .libraryShuffled _ | .libraryReordered _
  | .cardsRevealed _ _ | .destroyed _ | .sacrificed _ _ | .regenerated _ | .damageDealt _ _ _
  | .colorChosen _ _ | .modesChosen _ _ | .optionChosen _ _ => true
  | _ => false

/-- Whether a change gives control only to those who may have it. -/
def Modification.GrantsTo (holder : Seat → Prop) : Modification → Prop
  | .changeController s => holder s
  | _ => True

/-- Whether suspended work gives control only to those who may have it: the effects left to resolve
do what they do for the player of their context, and what is searched for enters the battlefield
under the searching player's control. -/
def Suspension.GrantsTo (holder : Seat → Prop) : Suspension → Prop
  | .effects _ ctx | .may _ ctx | .modal _ ctx | .payOrSuffer _ _ _ ctx | .chooseTargets _ ctx =>
    holder ctx.controller
  | .search player _ _ => holder player
  | _ => True

theorem Suspension.grantsTo_anybody (work : Suspension) : work.GrantsTo fun _ => True := by
  cases work <;> trivial

namespace Resolve

/-- The actions that resolutions are made of, given whether chance may play a part and who may be
given control of permanents. -/
inductive Act (chance : Prop) (holder : Seat → Prop) : {α : Type} → Resolve α → Prop
  | announce {e : Event} (h : e.isNotice = true) : Act chance holder (emit e)
  | moveTo (o : ObjectId) (target : Zone) (p : Position) (controller : Option Seat)
      (h : ∀ s, controller = some s → holder s) :
      Act chance holder (moveTo o target p controller)
  | tap (o : ObjectId) : Act chance holder (tap o)
  | untap (o : ObjectId) : Act chance holder (untap o)
  | shuffleLibrary (h : chance) (s : Seat) : Act chance holder (shuffleLibrary s)
  | reorder (player : Seat) (order : List ObjectId) :
      Act chance holder (LibraryEffect.finishReorder player order)
  | random (h : chance) (random : Random) : Act chance holder (update fun g => { g with random })
  | regenerate (o : ObjectId) : Act chance holder (regenerate o)
  | addCounters (o : ObjectId) (kind : CounterKind) (n : Nat) :
      Act chance holder (addCounters o kind n)
  | removeCounters (o : ObjectId) (kind : CounterKind) (n : Nat) :
      Act chance holder (removeCounters o kind n)
  | mark (o : ObjectId) (n : Int) : Act chance holder (edit (Game.setFacet o (.damage n)))
  | changeLife (s : Seat) (delta : Int) : Act chance holder (changeLife s delta)
  | addFloating (change : Modification) (affected : SortedSet ObjectId) (duration : Duration)
      (ctx : Context) (h : change.GrantsTo holder) :
      Act chance holder (addFloating change affected duration ctx)
  | createToken (t : TokenTemplate) (s : Seat) : Act chance holder (createToken t s)
  | pause (player : Seat) (prompt : String) (question : Question) (source : Option ObjectId)
      (work : Suspension) (h : work.GrantsTo holder) :
      Act chance holder (pause player prompt question source work)
  | restack (f : Game → List Frame)
      (h : ∀ g, ∀ frame ∈ f g, frame ∈ g.stack ∨ frame.work.GrantsTo holder) :
      Act chance holder (update fun g => { g with stack := f g })

/-- A part of a resolution that is put together from actions, and that finds no fault with an
answer of its own accord. -/
inductive Woven (chance : Prop) (holder : Seat → Prop) : {α : Type} → Resolve α → Prop
  | act {α : Type} {r : Resolve α} (h : Act chance holder r) : Woven chance holder r
  | protected game : Woven chance holder game
  | protected pure {α : Type} (a : α) : Woven chance holder (pure a)
  | protected throw {α : Type} {failure : Failure} (h : failure.isAnswerFault = false) :
      Woven chance holder (throw failure : Resolve α)
  | protected bind {α β : Type} {m : Resolve β} {k : β → Resolve α}
      (hm : Woven chance holder m) (hk : ∀ b, Woven chance holder (k b)) :
      Woven chance holder (m >>= k)

variable {α β : Type} {chance : Prop} {holder : Seat → Prop}

namespace Woven

theorem ite {c : Prop} [Decidable c] {r r' : Resolve α} (hyes : Woven chance holder r)
    (hno : Woven chance holder r') : Woven chance holder (if c then r else r') := by
  split
  · exact hyes
  · exact hno

/-- A part that is turned down if a condition holds. -/
theorem guard {c : Prop} [Decidable c] {failure : Failure} {r : Resolve α}
    (h : failure.isAnswerFault = false) (hr : Woven chance holder r) :
    Woven chance holder (if c then (throw failure : Resolve PUnit) >>= fun _ => r else r) :=
  .ite (.bind (.throw h) fun _ => hr) hr

theorem forM_of_mem {xs : List β} {body : β → Resolve PUnit}
    (hbody : ∀ x ∈ xs, Woven chance holder (body x)) : Woven chance holder (xs.forM body) := by
  induction xs with
  | nil => exact .pure _
  | cons x rest ih =>
    change Woven chance holder (body x >>= fun _ => rest.forM body)
    exact .bind (hbody x List.mem_cons_self) fun _ =>
      ih fun y hy => hbody y (List.mem_cons_of_mem _ hy)

protected theorem forM {xs : List β} {body : β → Resolve PUnit}
    (hbody : ∀ x, Woven chance holder (body x)) : Woven chance holder (xs.forM body) :=
  .forM_of_mem fun x _ => hbody x

protected theorem view (rules : Rules) : Woven chance holder (view rules) :=
  .bind .game fun _ => .pure _

end Woven

theorem woven_object (ctx : Context) (r : Reference) : Woven chance holder (object ctx r) := by
  unfold object
  split
  · exact .pure _
  · exact .throw rfl

theorem woven_require (o : ObjectId) : Woven chance holder (require o) :=
  .bind .game fun _ => .ite (.pure _) (.throw rfl)

theorem woven_requireIn (o : ObjectId) (kind : ZoneKind) :
    Woven chance holder (requireIn o kind) := by
  refine .bind (woven_require o) fun _ => ?_
  exact .bind .game fun _ => .ite (.pure _) (.throw rfl)

theorem woven_owner (o : ObjectId) : Woven chance holder (owner o) := by
  refine .bind .game fun g => ?_
  split
  · exact .pure _
  · exact .throw rfl

theorem woven_characteristics (v : View) (o : ObjectId) :
    Woven chance holder (characteristics v o) := by
  unfold characteristics
  split
  · exact .pure _
  · exact .throw rfl

theorem woven_permanent (rules : Rules) (ctx : Context) (r : Reference) :
    Woven chance holder (permanent rules ctx r) := by
  refine .bind (woven_object ctx r) fun o => ?_
  refine .bind (woven_requireIn o _) fun _ => ?_
  refine .bind (.view rules) fun v => ?_
  exact .bind (woven_characteristics v o) fun _ => .pure _

theorem woven_amount (rules : Rules) (ctx : Context) (a : Amount) :
    Woven chance holder (amount rules ctx a) := .bind (.view rules) fun _ => .pure _

theorem woven_count (rules : Rules) (ctx : Context) (a : Amount) :
    Woven chance holder (count rules ctx a) := .bind (.view rules) fun _ => .pure _

theorem woven_players (rules : Rules) (ctx : Context) (s : Selector) :
    Woven chance holder (players rules ctx s) := .bind (.view rules) fun _ => .pure _

theorem woven_pause (player : Seat) (prompt : String) (question : Question)
    (source : Option ObjectId) (work : Suspension) (h : work.GrantsTo holder) :
    Woven chance holder (pause player prompt question source work) := .act (.pause _ _ _ _ _ h)

/-- What moves without being given to anybody. -/
theorem woven_moveTo (o : ObjectId) (target : Zone) (p : Position) :
    Woven chance holder (moveTo o target p none) := .act (.moveTo o target p none nofun)

/-- Work that gives control only to those who may have it may be put beneath other work. -/
theorem woven_insertFrame (depth : Nat) (f : Frame) (h : f.work.GrantsTo holder) :
    Woven chance holder (update (·.insertFrame depth f)) := by
  refine .act (.restack (fun g => (g.insertFrame depth f).stack) fun g frame hframe => ?_)
  rcases List.mem_append.mp hframe with habove | hbelow
  · exact Or.inl (List.mem_of_mem_take habove)
  · rcases List.mem_cons.mp hbelow with rfl | hbelow
    · exact Or.inr h
    · exact Or.inl (List.mem_of_mem_drop hbelow)

theorem woven_moveToOwners (o : ObjectId) (kind : ZoneKind) :
    Woven chance holder (moveToOwners o kind) :=
  .bind (woven_owner o) fun s => woven_moveTo o ⟨s, kind⟩ .top

theorem woven_putOntoBattlefield (o : ObjectId) {controller : Option Seat} (tapped : Bool)
    (h : ∀ s, controller = some s → holder s) :
    Woven chance holder (putOntoBattlefield o controller tapped) := by
  refine .bind (woven_owner o) fun s => ?_
  refine .bind (.act (.moveTo o (.battlefield s) .top controller h)) fun _ => ?_
  exact .ite (.act (.tap o)) (.pure _)

theorem woven_draw (s : Seat) (count : Nat) : Woven chance holder (draw s count) := by
  refine .bind .game fun g => ?_
  refine .bind (.forM fun o => ?_) fun _ => .pure _
  exact .bind (woven_moveTo o (.hand s) .top) fun _ => .act (.announce rfl)

theorem woven_discard (s : Seat) (cards : List ObjectId) :
    Woven chance holder (discard s cards) := by
  refine .forM fun o => ?_
  refine .bind .game fun g => .guard rfl ?_
  exact .bind (woven_moveToOwners o _) fun _ => .act (.announce rfl)

theorem woven_mill (s : Seat) (count : Nat) : Woven chance holder (mill s count) := by
  refine .bind .game fun g => ?_
  refine .bind (.forM fun o => ?_) fun _ => .pure _
  exact .bind (woven_moveToOwners o _) fun _ => .pure _

theorem woven_die (o : ObjectId) (c : Characteristics) : Woven chance holder (die o c) :=
  .bind (woven_moveToOwners o _) fun _ => .pure _

theorem woven_destroy (o : ObjectId) (c : Characteristics) : Woven chance holder (destroy o c) := by
  refine .bind (woven_requireIn o _) fun _ => ?_
  refine .ite (.pure _) (.ite ?_ ?_)
  · exact .bind (.act (.regenerate o)) fun _ => .pure _
  · refine .bind (.act (.announce rfl)) fun _ => ?_
    exact .bind (woven_die o c) fun _ => .pure _

theorem woven_sacrifice (s : Seat) (o : ObjectId) (c : Characteristics) :
    Woven chance holder (sacrifice s o c) := by
  refine .bind (woven_requireIn o _) fun _ => .guard rfl ?_
  exact .bind (.act (.announce rfl)) fun _ => woven_die o c

theorem woven_dealDamage (source : Option ObjectId) (target : ObjectId) (n : Int)
    (c : Option Characteristics) : Woven chance holder (dealDamage source target n c) := by
  refine .ite (.bind .game fun g => ?_) (.pure _)
  split
  · exact .bind (.act (.announce rfl)) fun _ => .act (.changeLife _ _)
  · refine .bind (woven_requireIn target _) fun _ => ?_
    split
    · exact .throw rfl
    · next c =>
      have hloyalty : Woven chance holder (do
          if c.hasType .planeswalker then
            let _ ← removeCounters target .loyalty n.toNat) :=
        .ite (.bind (.act (.removeCounters target _ _)) fun _ => .pure _) (.pure _)
      refine .guard rfl (.bind (.act (.announce rfl)) fun _ => .ite ?_ hloyalty)
      exact .bind .game fun g => .bind (.act (.mark target _)) fun _ => hloyalty

end Resolve

open Resolve

namespace ContinuousEffect

theorem woven_onPermanent (rules : Rules) (ctx : Context) (target : Reference)
    {changes : List Modification} (duration : Duration)
    (h : ∀ change ∈ changes, change.GrantsTo holder) :
    Woven chance holder (onPermanent rules ctx target changes duration) := by
  refine .bind (woven_permanent rules ctx target) fun found => ?_
  refine .bind (.forM_of_mem fun change hchange => ?_) fun _ => .pure _
  exact .act (.addFloating change _ duration ctx (h change hchange))

theorem woven_onGroup (rules : Rules) (ctx : Context) (f : ObjectFilter)
    {change : Modification} (duration : Duration) (h : change.GrantsTo holder) :
    Woven chance holder (onGroup rules ctx f change duration) := by
  refine .bind (.view rules) fun v => .ite ?_ (.pure _)
  exact .bind (.act (.addFloating change _ duration ctx h)) fun _ => .pure _

theorem grantsTo_animation (power toughness : Int) (subtypes : SortedSet CardSubtype) :
    ∀ change ∈ animation power toughness subtypes, change.GrantsTo holder := by
  intro change hchange
  unfold animation at hchange
  split at hchange <;>
    simp only [List.append_nil, List.cons_append, List.nil_append, List.mem_cons,
      List.not_mem_nil, or_false] at hchange
  · rcases hchange with rfl | rfl <;> trivial
  · rcases hchange with rfl | rfl | rfl <;> trivial

/-- Only for the player of the context does an effect gain control. -/
theorem woven_resolve (rules : Rules) (ctx : Context) (hctx : holder ctx.controller)
    (e : ContinuousEffect) : Woven chance holder (e.resolve rules ctx) := by
  have hone (target : Reference) (duration : Duration) {change : Modification}
      (h : change.GrantsTo holder) :
      Woven chance holder (onPermanent rules ctx target [change] duration) :=
    woven_onPermanent rules ctx target duration (List.forall_mem_singleton.mpr h)
  cases e with
  | modifyStats target power toughness duration =>
    refine .bind (woven_amount rules ctx power) fun p => ?_
    refine .bind (woven_amount rules ctx toughness) fun t => ?_
    exact hone target duration trivial
  | animate target power toughness subtypes duration =>
    exact woven_onPermanent rules ctx target duration (grantsTo_animation _ _ _)
  | modifyGroup f power toughness duration =>
    refine .bind (woven_amount rules ctx power) fun p => ?_
    refine .bind (woven_amount rules ctx toughness) fun t => ?_
    exact woven_onGroup rules ctx f duration trivial
  | grantKeywordToGroup f keyword duration => exact woven_onGroup rules ctx f duration trivial
  | gainControl target duration => exact hone target duration hctx
  | protectFromColor target duration =>
    refine .bind (woven_permanent rules ctx target) fun found => ?_
    exact woven_pause _ _ _ _ _ trivial
  | _ => exact hone _ _ trivial

theorem woven_protect (player : Seat) (target : ObjectId) (duration : Duration)
    (ctx : Context) (color : Color) :
    Woven chance holder (protect player target duration ctx color) := by
  refine .bind (.act (.announce rfl)) fun _ => ?_
  refine .bind .game fun g => .ite ?_ (.pure _)
  exact .bind (.act (.addFloating _ _ duration ctx trivial)) fun _ => .pure _

end ContinuousEffect

namespace PermanentEffect

theorem woven_placeShares (kind : CounterKind) (shares : SortedMap ObjectId Nat) :
    Woven chance holder (placeShares kind shares) :=
  .forM fun p => .act (.addCounters p.1 kind p.2)

theorem woven_distribute (ctx : Context) (kind : CounterKind) (total : Nat) :
    Woven chance holder (distribute ctx kind total) := by
  refine .bind (.forM fun o => woven_requireIn o _) fun _ => ?_
  split
  · exact .pure _
  · exact .bind (.act (.addCounters _ kind total)) fun _ => .pure _
  · have hpause : Woven chance holder _ := woven_pause ctx.controller
      s!"Distribute {total} counters" (.distribution total ctx.targets 1) ctx.source
      (.distributeCounters kind ctx) trivial
    exact .ite (.bind (.throw rfl) fun _ => hpause) hpause

theorem woven_resolve (rules : Rules) (ctx : Context) (e : PermanentEffect) :
    Woven chance holder (e.resolve rules ctx) := by
  cases e with
  | tap target =>
    refine .bind (woven_permanent rules ctx target) fun found => ?_
    exact .bind (.act (.tap found.1)) fun _ => .pure _
  | untap target =>
    refine .bind (woven_permanent rules ctx target) fun found => ?_
    exact .bind (.act (.untap found.1)) fun _ => .pure _
  | addCounters target kind amount =>
    refine .bind (woven_count rules ctx amount) fun n => ?_
    refine .bind (woven_object ctx target) fun o => ?_
    exact .bind (.act (.addCounters o kind n)) fun _ => .pure _
  | removeCounters target kind amount =>
    refine .bind (woven_count rules ctx amount) fun n => ?_
    refine .bind (woven_object ctx target) fun o => ?_
    exact .bind (.act (.removeCounters o kind n)) fun _ => .pure _
  | distributeCounters kind amount =>
    exact .bind (woven_count rules ctx amount) fun n => woven_distribute ctx kind n

end PermanentEffect

namespace PlayerChoice

theorem woven_sacrificeAll (v : View) (s : Seat) (objects : List ObjectId) :
    Woven chance holder (sacrificeAll v s objects) := by
  refine .forM fun o => ?_
  exact .bind (woven_characteristics v o) fun c => woven_sacrifice s o c

theorem woven_carryOut (rules : Rules) (picks : List (Seat × Pick)) (choice : PlayerChoice) :
    Woven chance holder (choice.carryOut rules picks) := by
  cases choice with
  | discard count =>
    refine .forM fun p => ?_
    unfold discardPick
    split
    · exact woven_discard _ _
    · exact .pure _
  | sacrifice f count =>
    refine .bind (.view rules) fun v => .forM fun p => ?_
    unfold sacrificePick
    split
    · exact woven_sacrificeAll v _ _
    · exact .pure _
  | creatureType =>
    have hannounce (s : Seat) (pick : Pick) : Woven chance holder (announcePick s pick) := by
      unfold announcePick
      split
      · exact .act (.announce rfl)
      · exact .pure _
    refine .bind (.forM fun p => hannounce p.1 p.2) fun _ => ?_
    refine .bind .game fun g => .forM fun o => ?_
    exact woven_putOntoBattlefield o false nofun

theorem woven_goOn (rules : Rules) (ctx : Context) (choice : PlayerChoice)
    (players : List Seat) (picks : List (Seat × Pick)) :
    Woven chance holder (choice.goOn rules ctx players picks) := by
  refine .bind (.view rules) fun v => ?_
  split
  · exact .bind (woven_carryOut rules _ choice) fun _ => .pure _
  · exact woven_pause _ _ _ _ _ trivial

theorem woven_start (rules : Rules) (ctx : Context) (choice : PlayerChoice)
    (players : List Seat) : Woven chance holder (choice.start rules ctx players) :=
  .bind .game fun _ => woven_goOn rules ctx choice _ _

end PlayerChoice

namespace RemovalEffect

theorem woven_requireCard (o : ObjectId) : Woven chance holder (requireCard o) := by
  refine .bind (woven_require o) fun _ => ?_
  exact .bind .game fun g => .ite (.throw rfl) (.pure _)

theorem woven_destroyMatching (rules : Rules) (ctx : Context) (f : ObjectFilter) :
    Woven chance holder (destroyMatching rules ctx f) := by
  refine .bind (.view rules) fun v => .forM fun o => ?_
  refine .bind (woven_characteristics v o) fun c => ?_
  exact .bind (woven_destroy o c) fun _ => .pure _

theorem woven_resolve (rules : Rules) (ctx : Context) (e : RemovalEffect) :
    Woven chance holder (e.resolve rules ctx) := by
  cases e with
  | destroy target =>
    refine .bind (woven_permanent rules ctx target) fun found => ?_
    exact .bind (woven_destroy found.1 found.2) fun _ => .pure _
  | destroyAll f => exact .bind (woven_destroyMatching rules ctx f) fun _ => .pure _
  | exile target =>
    refine .bind (woven_object ctx target) fun o => ?_
    refine .bind (woven_requireCard o) fun _ => ?_
    exact .bind (woven_moveToOwners o _) fun _ => .pure _
  | returnToHand target =>
    refine .bind (woven_object ctx target) fun o => ?_
    refine .bind (woven_requireCard o) fun _ => ?_
    have hmove : Woven chance holder
        (Resolve.moveToOwners o .hand >>= fun _ => pure Outcome.done) :=
      .bind (woven_moveToOwners o _) fun _ => .pure _
    exact .bind .game fun g => .ite (.bind (.throw rfl) fun _ => hmove) hmove
  | sacrifice players f count =>
    refine .bind (woven_count rules ctx count) fun n => ?_
    refine .bind (woven_players rules ctx players) fun seats => ?_
    exact PlayerChoice.woven_start rules ctx _ seats

end RemovalEffect

namespace DamageEffect

theorem woven_dealShares (rules : Rules) (source : Option ObjectId)
    (shares : SortedMap ObjectId Int) : Woven chance holder (dealShares rules source shares) :=
  .bind (.view rules) fun _ => .forM fun _ => woven_dealDamage _ _ _ _

theorem woven_checkDivision {division : SortedMap ObjectId Int} {targets : List ObjectId}
    {total : Int} {f : Failure} (h : checkDivision division targets total = .error f) :
    f.isAnswerFault = false := by
  have hshares {os : List ObjectId} (h : checkShares division os = .error f) :
      f.isAnswerFault = false := by
    induction os with
    | nil => cases h
    | cons o rest ih =>
      unfold checkShares at h
      split at h
      · cases h
        rfl
      · split at h
        · exact ih h
        · cases h
          rfl
  unfold checkDivision at h
  cases hstray : division.keys.find? (!targets.contains ·) with
  | some stray =>
    rw [hstray] at h
    cases h
    rfl
  | none =>
    simp only [hstray] at h
    cases hcheck : checkShares division targets with
    | error failure =>
      rw [hcheck] at h
      cases h
      exact hshares hcheck
    | ok u =>
      rw [hcheck] at h
      cases hsum : sumShares division.values 0 with
      | none =>
        rw [hsum] at h
        cases h
        rfl
      | some sum =>
        rw [hsum] at h
        change (if sum ≠ total then _ else _) = _ at h
        split at h <;> cases h
        rfl

theorem woven_divideAmong (rules : Rules) (ctx : Context) (total : Int) :
    Woven chance holder (divideAmong rules ctx total) := by
  apply Woven.ite
  · split
    · next hcheck => exact .throw (woven_checkDivision hcheck)
    · exact .bind (woven_dealShares rules _ _) fun _ => .pure _
  · split
    · exact .pure _
    · exact .bind (woven_dealShares rules _ _) fun _ => .pure _
    · have hpause : Woven chance holder _ := woven_pause ctx.controller
        s!"Divide {total.toNat} damage" (.distribution total.toNat ctx.targets 1) ctx.source
        (.divideDamage ctx) trivial
      exact .ite (.bind (.throw rfl) fun _ => hpause) hpause

theorem woven_resolve (rules : Rules) (ctx : Context) (e : DamageEffect) :
    Woven chance holder (e.resolve rules ctx) := by
  cases e with
  | deal target amount =>
    refine .bind (woven_amount rules ctx amount) fun n => ?_
    refine .bind (woven_object ctx target) fun o => ?_
    exact .bind (woven_dealShares rules _ _) fun _ => .pure _
  | divide amount =>
    exact .bind (woven_amount rules ctx amount) fun n => woven_divideAmong rules ctx _
  | gainLife players amount =>
    refine .bind (woven_amount rules ctx amount) fun n => ?_
    refine .bind (woven_players rules ctx players) fun seats => ?_
    exact .bind (.forM fun s => .act (.changeLife s _)) fun _ => .pure _
  | loseLife players amount =>
    refine .bind (woven_amount rules ctx amount) fun n => ?_
    refine .bind (woven_players rules ctx players) fun seats => ?_
    exact .bind (.forM fun s => .act (.changeLife s _)) fun _ => .pure _

end DamageEffect

namespace LibraryEffect

theorem woven_discardRandom (h : chance) (s : Seat) (count : Nat) :
    Woven chance holder (discardRandom s count) := by
  refine .bind .game fun g => ?_
  exact .bind (.act (.random h _)) fun _ => woven_discard s _

theorem woven_askScry (ctx : Context) (count : Nat) : Woven chance holder (askScry ctx count) := by
  refine .bind .game fun g => ?_
  split
  · exact .pure _
  · exact woven_pause _ _ _ _ _ trivial

theorem woven_askReorder (ctx : Context) (count : Nat) :
    Woven chance holder (askReorder ctx count) :=
  .bind .game fun _ => .ite (.pure _) (woven_pause _ _ _ _ _ trivial)

theorem woven_askSearch (h : chance) {ctx : Context} (hctx : holder ctx.controller)
    (f : ObjectFilter) (count : Nat) (destination : ZoneKind) (tapped : Bool) :
    Woven chance holder (askSearch ctx f count destination tapped) := by
  refine .bind .game fun g => .ite ?_ (woven_pause _ _ _ _ _ hctx)
  exact .bind (.act (.shuffleLibrary h _)) fun _ => .pure _

theorem woven_askSeparation (rules : Rules) (ctx : Context) (count : Nat)
    (separator : Selector) : Woven chance holder (askSeparation rules ctx count separator) := by
  refine .bind .game fun g => ?_
  split
  · exact .pure _
  · refine .bind (woven_players rules ctx separator) fun players => ?_
    split
    · exact .throw rfl
    · exact .bind (.act (.announce rfl)) fun _ => woven_pause _ _ _ _ _ trivial

theorem woven_resolve (rules : Rules) (ctx : Context) (hctx : holder ctx.controller)
    (e : LibraryEffect) (h : (Effect.library e).kind.isRandom = true → chance) :
    Woven chance holder (e.resolve rules ctx) := by
  have hcounted {players : Selector} {amount : Amount} {k : Nat → List Seat → Resolve Outcome}
      (hk : ∀ n seats, Woven chance holder (k n seats)) : Woven chance holder (do
        let n ← Resolve.count rules ctx amount
        k n (← Resolve.players rules ctx players)) := by
    refine .bind (woven_count rules ctx amount) fun n => ?_
    exact .bind (woven_players rules ctx players) fun seats => hk n seats
  cases e with
  | draw players count =>
    refine hcounted fun n seats => .bind (.forM fun s => ?_) fun _ => .pure _
    exact .bind (woven_draw s n) fun _ => .pure _
  | discard players count =>
    exact hcounted fun n seats => PlayerChoice.woven_start rules ctx _ seats
  | discardAtRandom players count =>
    refine hcounted fun n seats => .bind (.forM fun s => ?_) fun _ => .pure _
    exact woven_discardRandom (h rfl) s n
  | mill players count =>
    refine hcounted fun n seats => .bind (.forM fun s => ?_) fun _ => .pure _
    exact .bind (woven_mill s n) fun _ => .pure _
  | shuffle players =>
    refine .bind (woven_players rules ctx players) fun seats => ?_
    exact .bind (.forM fun s => .act (.shuffleLibrary (h rfl) s)) fun _ => .pure _
  | scry count => exact .bind (woven_count rules ctx count) fun n => woven_askScry ctx n
  | reorderTop count =>
    exact .bind (woven_count rules ctx count) fun n => woven_askReorder ctx n
  | search f count destination tapped =>
    exact woven_askSearch (h rfl) hctx f count destination tapped
  | separate count separator =>
    exact .bind (woven_count rules ctx count) fun n =>
      woven_askSeparation rules ctx n separator
  | createToken token count controllers =>
    refine hcounted fun n seats => .bind (.forM fun s => .forM fun _ => ?_) fun _ => .pure _
    exact .bind (.act (.createToken token s)) fun _ => .pure _

theorem woven_finishSearch (h : chance) {player : Seat} (hplayer : holder player)
    (destination : ZoneKind) (tapped : Bool) (chosen : List ObjectId) :
    Woven chance holder (finishSearch player destination tapped chosen) := by
  refine .bind (.forM fun o => .ite ?_ ?_) fun _ => ?_
  · exact woven_putOntoBattlefield o tapped fun s hs => Option.some.inj hs ▸ hplayer
  · exact .bind (woven_moveToOwners o destination) fun _ => .pure _
  · exact .bind (.act (.shuffleLibrary h player)) fun _ => .pure _

theorem woven_announceOption (player : Seat) (question : Question) (index : Nat) :
    Woven chance holder (announceOption player question index) := by
  unfold announceOption
  split
  · split
    · exact .act (.announce rfl)
    · exact .pure _
  · exact .pure _

/-- Taking one of two piles. -/
theorem woven_takePile (player : Seat) (first second : List ObjectId) (question : Question)
    {index : Nat} (hindex : index < 2) :
    Woven chance holder (takePile player first second question index) := by
  have hmove (o : ObjectId) (kind : ZoneKind) :
      Woven chance holder (do let _ ← Resolve.moveToOwners o kind) :=
    .bind (woven_moveToOwners o kind) fun _ => .pure _
  have htake (piles : List ObjectId × List ObjectId) : Woven chance holder (do
        announceOption player question index
        piles.1.forM fun o => do let _ ← Resolve.moveToOwners o .hand
        piles.2.forM fun o => do let _ ← Resolve.moveToOwners o .graveyard
        return Outcome.done) := by
    refine .bind (woven_announceOption player question index) fun _ => ?_
    refine .bind (.forM fun o => hmove o .hand) fun _ => ?_
    exact .bind (.forM fun o => hmove o .graveyard) fun _ => .pure _
  match index, hindex with
  | 0, _ => exact .bind (.pure _) htake
  | 1, _ => exact .bind (.pure _) htake

end LibraryEffect

namespace Cost

theorem woven_payWith (rules : Rules) (payer : Seat) (chosen : List ObjectId) (cost : Cost) :
    Woven chance holder (cost.payWith rules payer chosen) := by
  cases cost with
  | life n => exact .act (.changeLife payer (-n))
  | discard n => exact woven_discard payer chosen
  | sacrifice f n =>
    exact .bind (.view rules) fun v => PlayerChoice.woven_sacrificeAll v payer chosen

theorem woven_payFrom (rules : Rules) (ctx : Context) (payer : Seat)
    (options : List ObjectId) (count : Nat) (cost : Cost) :
    Woven chance holder (payFrom rules ctx payer options count cost) := by
  refine .ite ?_ (woven_pause _ _ _ _ _ trivial)
  exact .bind (woven_payWith rules payer options cost) fun _ => .pure _

theorem woven_pay (rules : Rules) (ctx : Context) (payer : Seat) (cost : Cost) :
    Woven chance holder (cost.pay rules ctx payer) := by
  cases cost with
  | life n => exact .bind (.act (.changeLife payer (-n))) fun _ => .pure _
  | discard n => exact .bind .game fun g => woven_payFrom rules ctx payer _ n _
  | sacrifice f n =>
    exact .bind (.view rules) fun v => woven_payFrom rules ctx payer _ n _

end Cost

namespace Effect

variable {rules : Rules}

theorem woven_askModes {ctx : Context} (hctx : holder ctx.controller) (modes : List Mode)
    (fewest most : Nat) : Woven chance holder (askModes ctx modes fewest most) :=
  .ite (.pure _) (woven_pause _ _ _ _ _ hctx)

mutual

/-- Whatever an effect gives control of or puts off, it does for the player of its context. -/
theorem woven_resolve (e : Effect) (ctx : Context) (hctx : holder ctx.controller)
    (h : e.isRandom = true → chance) : Woven chance holder (resolve rules e ctx) := by
  cases e with
  | continuous e => exact e.woven_resolve rules ctx hctx
  | permanent e => exact e.woven_resolve rules ctx
  | removal e => exact e.woven_resolve rules ctx
  | damage e => exact e.woven_resolve rules ctx
  | library e => exact e.woven_resolve rules ctx hctx h
  | composite es => exact woven_resolveAll es ctx hctx h
  | conditional c yes no =>
    refine .bind (.view rules) fun v => ?_
    simp only [isRandom, Bool.or_eq_true, or_imp] at h
    exact .ite (woven_resolve yes ctx hctx h.1) (woven_resolveOption no ctx hctx h.2)
  | may prompt e => exact woven_pause _ _ _ _ _ hctx
  | modal modes fewest most => exact woven_askModes hctx modes fewest most
  | payOrSuffer selector cost suffer =>
    refine .bind (.view rules) fun v => ?_
    split
    · exact .pure _
    · exact .ite (woven_pause _ _ _ _ _ hctx) (woven_resolve suffer ctx hctx h)
  | chooseTargets spec e =>
    refine .bind (.view rules) fun v => ?_
    split
    · exact .pure _
    · exact woven_resolve e _ hctx h
    · exact woven_pause _ _ _ _ _ hctx
  | eachPlayerChooses selector choice =>
    refine .bind (woven_players rules ctx selector) fun players => ?_
    exact choice.woven_start rules ctx players

theorem woven_resolveOption (e : Option Effect) (ctx : Context) (hctx : holder ctx.controller)
    (h : isRandomOption e = true → chance) : Woven chance holder (resolveOption rules e ctx) := by
  cases e with
  | none => exact .pure _
  | some e => exact woven_resolve e ctx hctx h

theorem woven_resolveAll (es : List Effect) (ctx : Context) (hctx : holder ctx.controller)
    (h : isRandomAmong es = true → chance) : Woven chance holder (resolveAll rules es ctx) := by
  cases es with
  | nil => exact .pure _
  | cons e rest =>
    refine .bind .game fun g => ?_
    simp only [isRandomAmong, Bool.or_eq_true, or_imp] at h
    refine .bind (woven_resolve e ctx hctx h.1) fun outcome => ?_
    split
    · exact woven_resolveAll rest ctx hctx h.2
    · exact .ite (.bind (woven_insertFrame _ _ hctx) fun _ => .pure _) (.pure _)

end

end Effect

/-- Going on with what is left on the stack, if anybody may be given control. -/
theorem Rules.woven_chain (rules : Rules) (h : chance) (steps : Nat) (outcome : Outcome) :
    Woven chance (fun _ => True) (rules.chain steps outcome) := by
  induction steps generalizing outcome with
  | zero =>
    cases outcome with
    | paused decision =>
      unfold chain
      exact .pure _
    | done =>
      unfold chain
      refine .bind .game fun g => ?_
      split
      · exact .pure _
      · exact .throw rfl
      · exact .throw rfl
  | succ steps ih =>
    cases outcome with
    | paused decision =>
      unfold chain
      exact .pure _
    | done =>
      unfold chain
      refine .bind .game fun g => ?_
      split
      · exact .pure _
      · exact .throw rfl
      · next rest _ =>
        dsimp only
        split
        · refine .bind (.act (.restack (fun _ => rest) ?_)) fun _ => ?_
          · exact fun _ frame _ => Or.inr frame.work.grantsTo_anybody
          · exact .bind (Effect.woven_resolveAll _ _ trivial fun _ => h) ih
        · exact .throw rfl

end CardGame
