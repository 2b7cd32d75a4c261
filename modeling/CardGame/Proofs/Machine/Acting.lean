import CardGame.Proofs.Machine.Action

/-!
Every action on a machine mirrors the action, whatever is true of the game: no amount leaves its
range, no place is missing, and only a counter that runs out stops it. Reading also answers what can
be held, in sound games.
-/

namespace CardGame

namespace Machine

open Checked

section Reading

variable {P : Game → Prop} {ctx : Context} {rules : Rules}

theorem reads_object (ctx : Context) (r : Reference) :
    Reads P (lift (Resolve.object ctx r)) (Resolve.object ctx r) fun _ => True := by
  apply Reads.lift
  intro p q o _ _ hr
  unfold Resolve.object at hr
  cases hfound : View.object? ctx r with
  | none =>
    rw [hfound] at hr
    cases hr
  | some o' =>
    rw [hfound] at hr
    cases hr
    exact ⟨rfl, trivial⟩

theorem reads_require (o : ObjectId) :
    Reads P (lift (Resolve.require o)) (Resolve.require o) fun _ => True := by
  apply Reads.lift
  intro p q u _ _ hr
  unfold Resolve.require at hr
  rw [Resolve.game_bind] at hr
  split at hr <;> cases hr
  exact ⟨rfl, trivial⟩

theorem reads_requireIn (o : ObjectId) (kind : ZoneKind) :
    Reads P (lift (Resolve.requireIn o kind)) (Resolve.requireIn o kind) fun _ => True := by
  unfold Resolve.requireIn
  rw [lift_bind]
  refine .bind (reads_require o) fun _ _ => ?_
  apply Reads.lift
  intro p q u _ _ hr
  rw [Resolve.game_bind] at hr
  split at hr <;> cases hr
  exact ⟨rfl, trivial⟩

theorem reads_owner (o : ObjectId) :
    Reads P (lift (Resolve.owner o)) (Resolve.owner o) Seat.Typed := by
  apply Reads.lift
  intro p q s htyped _ hr
  unfold Resolve.owner at hr
  rw [Resolve.game_bind] at hr
  cases howner : p.game.owner? o with
  | none =>
    rw [howner] at hr
    cases hr
  | some s' =>
    rw [howner] at hr
    cases hr
    exact ⟨rfl, htyped.owner? howner⟩

theorem reads_characteristics (v : View) (o : ObjectId) :
    Reads P (lift (Resolve.characteristics v o)) (Resolve.characteristics v o) fun _ => True := by
  apply Reads.lift
  intro p q c _ _ hr
  unfold Resolve.characteristics at hr
  cases hfound : v.projection.bind (·.find? o) with
  | none =>
    rw [hfound] at hr
    cases hr
  | some c' =>
    rw [hfound] at hr
    cases hr
    exact ⟨rfl, trivial⟩

theorem reads_permanent (rules : Rules) (ctx : Context) (r : Reference) :
    Reads Game.Sound (permanent rules ctx r) (Resolve.permanent rules ctx r) fun _ => True := by
  refine .bind (reads_object ctx r) fun o _ => ?_
  refine .bind (reads_requireIn o _) fun _ _ => ?_
  refine .bind (.view rules) fun v _ => ?_
  refine .bind (reads_characteristics v o) fun c _ => ?_
  exact .pure trivial

theorem reads_amount (rules : Rules) (hctx : ctx.Typed) {a : Amount} (ha : a.Typed) :
    Reads Game.Sound (amount rules ctx a) (Resolve.amount rules ctx a) IsAmount := by
  refine .bind (.view rules) fun v hv => ?_
  rw [v.checked_evaluate hv hctx, check_ok]
  exact .pure (v.isAmount_evaluate hv hctx ha)

/-- A number of things is an amount that is not negative, and so fits a word. -/
theorem reads_count (rules : Rules) (hctx : ctx.Typed) {a : Amount} (ha : a.Typed) :
    Reads Game.Sound (count rules ctx a) (Resolve.count rules ctx a)
      fun n => (n : Int) ≤ maxAmount := by
  have hamount : Resolve.count rules ctx a = do
      let n ← Resolve.amount rules ctx a
      return (max n 0).toNat := by
    funext p
    change Except.ok (_, p) = Except.ok (_, p)
    rw [View.evaluateCount]
    congr 2
    omega
  rw [hamount]
  refine .bind (reads_amount rules hctx ha) fun n hn => ?_
  obtain ⟨-, hmax⟩ := hn
  have hword : maxAmount ≤ maxWord := by decide
  have hzero : 0 ≤ maxAmount := by decide
  rw [fit_eq (by omega), check_ok]
  exact .pure (by omega)

theorem reads_players (rules : Rules) (hctx : ctx.Typed) (sel : Selector) :
    Reads Game.Sound (players rules ctx sel) (Resolve.players rules ctx sel)
      fun ss => ∀ s ∈ ss, s.Typed := by
  refine .bind (.view rules) fun v hv => ?_
  rw [v.checked_players hv hctx, check_ok]
  exact .pure fun s hs => v.typed_players hv hctx hs

end Reading

section Acting

variable {α : Type} {o : ObjectId} {s : Seat}

theorem copies_update {f : Game → Game} (h : ∀ {g : Game}, g.Typed → Game.Holds g (f g)) :
    Copies (update f) (Resolve.update f) := by
  apply Mirrors.update
  intro g htyped _
  have hholds := h htyped
  exact ⟨hholds.typed, hholds.weight_le, trivial⟩

theorem copies_edit {e : Edit Game α}
    (h : ∀ {g g' : Game} {a : α}, g.Typed → e g = .ok a g' → Game.Holds g g') :
    Copies (edit e) (Resolve.edit e) := by
  apply Mirrors.lift
  intro p q a htyped _ hr
  unfold Resolve.edit at hr
  cases hrun : e p.game with
  | error failure g =>
    rw [hrun] at hr
    cases hr
  | ok a' g =>
    rw [hrun] at hr
    cases hr
    have hholds := h htyped hrun
    exact ⟨hholds.typed, hholds.weight_le, trivial⟩

theorem mirrors_change {w : Nat} {P : Game → Prop} {c : Game → Checked Game} {f : Game → Game}
    {Q : Unit → Game → Prop} (heq : ∀ g, c g = .ok (f g))
    (h : ∀ {g : Game}, g.Typed → P g → (f g).Typed ∧ (f g).weight ≤ g.weight + w ∧ Q () (f g)) :
    Mirrors w P (change c) (Resolve.update f) Q where
  runs p htyped hp := by
    refine Or.inr ⟨?_, ?_⟩
    · change ((check (c p.game) >>= fun g => update fun _ => g) p).run = _
      rw [heq, check_ok, pure_bind]
      rfl
    · rintro _ _ ⟨⟩
      exact h htyped hp

theorem copies_change {c : Game → Checked Game} {f : Game → Game}
    (heq : ∀ g, c g = .ok (f g)) (h : ∀ {g : Game}, g.Typed → Game.Holds g (f g)) :
    Copies (change c) (Resolve.update f) := by
  apply mirrors_change heq
  intro g htyped _
  have hholds := h htyped
  exact ⟨hholds.typed, hholds.weight_le, trivial⟩

theorem copies_emit (e : Event) : Copies (emit e) (Resolve.emit e) := .emit e

theorem copies_setFacet (o : ObjectId) {f : Facet} (hf : f.Typed) :
    Copies (edit (Game.setFacet o f)) (Resolve.edit (Game.setFacet o f)) :=
  copies_edit fun htyped hset => htyped.setFacet hf hset

theorem copies_onZones (e : Edit Zones α) :
    Copies (edit (Game.onZones e)) (Resolve.edit (Game.onZones e)) :=
  copies_edit fun htyped hrun => htyped.onZones hrun

/-- A change that goes on after another. -/
theorem edit_bind {β : Type} (e : Edit Game α) (k : α → Edit Game β) :
    Resolve.edit (e >>= k) = Resolve.edit e >>= fun a => Resolve.edit (k a) := by
  funext p
  change Resolve.edit (EStateM.bind e k) p = _
  rw [Resolve.bind_apply]
  unfold Resolve.edit EStateM.bind
  cases e p.game <;> rfl

/-- Entering the battlefield step by step: the timestamp, then the two facets. -/
theorem edit_enterBattlefield (o : ObjectId) (s : Seat) :
    Resolve.edit (Game.enterBattlefield o s) = (do
      let g ← Resolve.game
      Resolve.update fun _ => g.takeTimestamp.2
      Resolve.edit (Game.setFacet o (.entered g.takeTimestamp.2.turn.number g.nextTimestamp))
      Resolve.edit (Game.setFacet o (.controller s))) := by
  unfold Game.enterBattlefield
  simp only [edit_bind]
  rfl

theorem copies_enterBattlefield (o : ObjectId) (hs : s.Typed) :
    Copies (enterBattlefield o s) (Resolve.edit (Game.enterBattlefield o s)) := by
  rw [edit_enterBattlefield]
  refine .look fun g htyped _ => ?_
  rcases takeTimestamp_cases g with ⟨hle, hstamp⟩ | hout
  · simp only [hstamp, check_ok, pure_bind]
    refine .bind (.updateAt { htyped with nextTimestamp := hle } (Nat.le_refl _)) fun _ => ?_
    refine .andThen (copies_setFacet o trivial) fun _ => ?_
    exact copies_setFacet o hs
  · simp only [hout]
    exact .exhausted

/-- Moving an object step by step: the change of zone, then what comes with it. -/
theorem edit_move (o : ObjectId) (target : Zone) (p : Position) (controller : Option Seat) :
    Resolve.edit (Game.move o target p controller) = (do
      match (← Resolve.game).zone? o with
      | none => throw (.objectNotFound o)
      | some origin =>
        let _ ← Resolve.edit (Game.onZones (Zones.move o target p))
        if origin.kind = .battlefield then
          if target.kind ≠ .battlefield then Resolve.update (·.leaveBattlefield o)
        else if target.kind = .battlefield then
          Resolve.edit (Game.enterBattlefield o (controller.getD target.owner))
        return origin) := by
  unfold Game.move
  rw [edit_bind]
  refine congrArg (Resolve.game >>= ·) (funext fun g => ?_)
  cases g.zone? o with
  | none => rfl
  | some origin =>
    simp only [edit_bind]
    refine congrArg (_ >>= ·) (funext fun _ => ?_)
    split
    · split <;> rfl
    · split
      · exact edit_bind _ _
      · rfl

theorem copies_move (o : ObjectId) {target : Zone} (p : Position) {controller : Option Seat}
    (htarget : target.owner.Typed) (hcontroller : ∀ s ∈ controller, s.Typed) :
    Copies (move o target p controller) (Resolve.edit (Game.move o target p controller)) := by
  have hseat : (controller.getD target.owner).Typed := by
    cases controller with
    | none => exact htarget
    | some s => exact hcontroller s rfl
  rw [edit_move]
  refine .look_anyhow fun g htyped => ?_
  cases g.zone? o with
  | none => exact .throw _
  | some origin =>
    refine .bind (copies_onZones _) fun _ => ?_
    apply Mirrors.ite
    · intro hleft
      apply Mirrors.ite
      · intro helsewhere
        refine .bind (copies_update fun htyped => htyped.leaveBattlefield o) fun _ => ?_
        exact .pure _ id
      · intro hstays
        exact .pure _ id
    · intro hother
      apply Mirrors.ite
      · intro harrives
        refine .bind (copies_enterBattlefield o hseat) fun _ => ?_
        exact .pure _ id
      · intro helsewhere
        exact .pure _ id

/-- A new object is owned by a player with a number of one byte. -/
theorem typed_arrival {g : Game} (htyped : g.Typed) {card : Card} (hcard : card.toFace.Typed)
    (hs : s.Typed) (token : Bool) (hnext : g.nextObject + 1 ≤ maxWord) :
    (g.arrival card s token g.zones).Typed := by
  refine { htyped with facets := fun o => ?_, nextObject := hnext }
  have hfacets := (Facets.typed_empty.insert (f := .card card) hcard).insert (f := .owner s) hs
  rw [Game.facets_arrival]
  split
  · unfold Game.newFacets
    split
    · exact hfacets.insert trivial
    · exact hfacets
  · exact htyped.facets o

/-- Spawning an object step by step: the object, its place, and its entering. -/
theorem edit_spawn (card : Card) (s : Seat) (kind : ZoneKind) (token : Bool) :
    Resolve.edit (Game.spawn card s kind token) = (do
      let g ← Resolve.game
      Resolve.update fun _ => g.arrival card s token g.zones
      match g.zones.add ⟨g.nextObject⟩ ⟨s, kind⟩ .top with
      | .error failure => throw failure
      | .ok zones =>
        Resolve.update ({ · with zones })
        if kind = .battlefield then Resolve.edit (Game.enterBattlefield ⟨g.nextObject⟩ s)
        return ⟨g.nextObject⟩) := by
  unfold Game.spawn
  rw [edit_bind]
  refine congrArg (Resolve.game >>= ·) (funext fun g => ?_)
  rw [edit_bind]
  refine congrArg (_ >>= ·) (funext fun _ => ?_)
  cases g.zones.add ⟨g.nextObject⟩ ⟨s, kind⟩ .top with
  | error failure => rfl
  | ok zones =>
    simp only [edit_bind]
    refine congrArg (_ >>= ·) (funext fun _ => ?_)
    split
    · exact edit_bind _ _
    · rfl

theorem copies_spawn {card : Card} (hcard : card.toFace.Typed) (hs : s.Typed) (kind : ZoneKind)
    (token : Bool) :
    Copies (spawn card s kind token) (Resolve.edit (Game.spawn card s kind token)) := by
  rw [edit_spawn]
  refine .look fun g htyped _ => ?_
  rcases tick_cases maxWord g.nextObject with ⟨hle, hnext⟩ | hout
  · simp only [hnext, check_ok, pure_bind]
    have harrives := typed_arrival htyped hcard hs token hle
    refine .bind (.updateAt harrives (Nat.le_refl _)) fun _ => ?_
    cases g.zones.add ⟨g.nextObject⟩ ⟨s, kind⟩ .top with
    | error failure => exact .throw _
    | ok zones =>
      have hzones : Copies (update ({ · with zones })) (Resolve.update ({ · with zones })) :=
        copies_update fun {g} htyped => htyped.rezone zones g.random
      refine .andThen hzones fun _ => ?_
      apply Mirrors.ite
      · intro henters
        refine .bind (copies_enterBattlefield _ hs) fun _ => ?_
        exact .pure _ id
      · intro helsewhere
        exact .pure _ id
  · simp only [hout]
    exact .exhausted

theorem copies_moveTo (o : ObjectId) {target : Zone} (p : Position) {controller : Option Seat}
    (htarget : target.owner.Typed) (hcontroller : ∀ s ∈ controller, s.Typed) :
    Copies (moveTo o target p controller) (Resolve.moveTo o target p controller) := by
  refine .bind (copies_move o p htarget hcontroller) fun origin => ?_
  refine .bind (copies_emit _) fun _ => ?_
  refine .look_anyhow fun g _ => ?_
  apply Mirrors.ite
  · intro hceased
    refine .bind (copies_emit _) fun _ => ?_
    exact .pure _ id
  · intro hexists
    exact .pure _ id

theorem copies_moveToOwners (o : ObjectId) (kind : ZoneKind) :
    Copies (moveToOwners o kind) (Resolve.moveToOwners o kind) := by
  refine .read (reads_owner o) fun s hs => ?_
  exact copies_moveTo o .top hs (by rintro t ⟨⟩)

theorem copies_tap (o : ObjectId) : Copies (lift (Resolve.tap o)) (Resolve.tap o) := by
  unfold Resolve.tap
  rw [lift_bind]
  refine .read (reads_requireIn o _) fun _ _ => ?_
  rw [lift_bind]
  refine .look_anyhow fun g _ => ?_
  split
  · exact .liftBind (copies_setFacet o trivial) fun _ => copies_emit _
  · exact .pure _ id

theorem copies_untap (o : ObjectId) : Copies (lift (Resolve.untap o)) (Resolve.untap o) := by
  unfold Resolve.untap
  rw [lift_bind]
  refine .read (reads_requireIn o _) fun _ _ => ?_
  rw [lift_bind]
  refine .look_anyhow fun g _ => ?_
  refine .liftBind (copies_update fun htyped => htyped.eraseFacet o _) fun _ => ?_
  split
  · exact copies_emit _
  · exact .pure _ id

theorem copies_putOntoBattlefield (o : ObjectId) {controller : Option Seat}
    (hcontroller : ∀ s ∈ controller, s.Typed) (tapped : Bool) :
    Copies (putOntoBattlefield o controller tapped)
      (Resolve.putOntoBattlefield o controller tapped) := by
  refine .read (reads_owner o) fun s hs => ?_
  refine .bind (copies_moveTo o .top hs hcontroller) fun _ => ?_
  apply Mirrors.ite
  · intro htapped
    exact copies_tap o
  · intro huntapped
    exact .pure _ id

theorem copies_draw (hs : s.Typed) (count : Nat) :
    Copies (draw s count) (Resolve.draw s count) := by
  refine .look_anyhow fun g _ => ?_
  have hdraw (o : ObjectId) : Copies
      (do
        let _ ← moveTo o (.hand s) .top none
        emit (.cardDrawn s o))
      (do
        let _ ← Resolve.moveTo o (.hand s) .top none
        Resolve.emit (.cardDrawn s o)) := by
    refine .bind (copies_moveTo o .top hs (by rintro t ⟨⟩)) fun _ => ?_
    exact copies_emit _
  refine .bind (.forM fun o _ => hdraw o) fun _ => ?_
  exact .pure _ id

theorem copies_discard (s : Seat) (cards : List ObjectId) :
    Copies (discard s cards) (Resolve.discard s cards) := by
  refine .forM fun o _ => ?_
  refine .look_anyhow fun g _ => ?_
  apply Mirrors.guard
  refine .bind (copies_moveToOwners o _) fun _ => ?_
  exact copies_emit _

theorem copies_mill (s : Seat) (count : Nat) : Copies (mill s count) (Resolve.mill s count) := by
  refine .look_anyhow fun g _ => ?_
  have hmill (o : ObjectId) : Copies
      (do let _ ← moveToOwners o .graveyard)
      (do let _ ← Resolve.moveToOwners o .graveyard) := by
    refine .bind (copies_moveToOwners o _) fun _ => ?_
    exact .pure _ id
  refine .bind (.forM fun o _ => hmill o) fun _ => ?_
  exact .pure _ id

theorem copies_shuffleLibrary (s : Seat) :
    Copies (lift (Resolve.shuffleLibrary s)) (Resolve.shuffleLibrary s) :=
  .liftBind (copies_update fun htyped => htyped.rezone _ _) fun _ => copies_emit _

theorem copies_die (o : ObjectId) (c : Characteristics) : Copies (die o c) (Resolve.die o c) := by
  refine .bind (copies_moveToOwners o _) fun _ => ?_
  exact .pure _ id

theorem copies_regenerate (o : ObjectId) : Copies (regenerate o) (Resolve.regenerate o) := by
  have hcalm : Copies
      (do
        lift (Resolve.tap o)
        update (·.eraseFacets o [.damage, .attacking, .blocking, .blocked])
        emit (.regenerated o))
      (do
        Resolve.tap o
        Resolve.update (·.eraseFacets o [.damage, .attacking, .blocking, .blocked])
        Resolve.emit (.regenerated o)) := by
    refine .bind (copies_tap o) fun _ => ?_
    refine .bind (copies_update fun htyped => htyped.eraseFacets o _) fun _ => ?_
    exact copies_emit _
  refine .look_anyhow fun g _ => ?_
  cases Resolve.shield? g o with
  | none => exact hcalm
  | some e =>
    have hend : Copies (change (removeFloating · e.id))
        (Resolve.update (·.removeFloating e.id)) := by
      apply copies_change fun g => removeFloating_eq g e.id
      intro g htyped
      apply htyped.withFloating
      intro e' he'
      exact htyped.floating e' (List.mem_of_mem_eraseP he')
    refine .bind hend fun _ => ?_
    refine .bind (copies_emit _) fun _ => ?_
    exact hcalm

theorem copies_destroy (o : ObjectId) (c : Characteristics) :
    Copies (destroy o c) (Resolve.destroy o c) := by
  refine .read (reads_requireIn o _) fun _ _ => ?_
  apply Mirrors.ite
  · intro hindestructible
    exact .pure _ id
  · intro hdestructible
    apply Mirrors.ite
    · intro hshielded
      refine .bind (copies_regenerate o) fun _ => ?_
      exact .pure _ id
    · intro hbare
      refine .bind (copies_emit _) fun _ => ?_
      refine .bind (copies_die o c) fun _ => ?_
      exact .pure _ id

theorem copies_sacrifice (s : Seat) (o : ObjectId) (c : Characteristics) :
    Copies (sacrifice s o c) (Resolve.sacrifice s o c) := by
  refine .read (reads_requireIn o _) fun _ _ => ?_
  apply Mirrors.guard
  refine .bind (copies_emit _) fun _ => ?_
  exact copies_die o c

theorem copies_addCounters (o : ObjectId) (kind : CounterKind) (n : Nat) :
    Copies (addCounters o kind n) (Resolve.addCounters o kind n) := by
  refine .read (reads_requireIn o _) fun _ _ => ?_
  apply Mirrors.ite
  · intro hsome
    refine .look_anyhow fun g _ => ?_
    rcases moreCounters_cases ((g.facets o).counters?.getD {}) kind n with hmore | hout
    · simp only [hmore, check_ok, pure_bind]
      refine .bind (copies_setFacet o trivial) fun _ => ?_
      exact copies_emit _
    · simp only [hout]
      exact .exhausted
  · intro hnone
    exact .pure _ id

theorem copies_removeCounters (o : ObjectId) (kind : CounterKind) (n : Nat) :
    Copies (removeCounters o kind n) (Resolve.removeCounters o kind n) := by
  refine .read (reads_requireIn o _) fun _ _ => ?_
  refine .look_anyhow fun g _ => ?_
  cases (g.facets o).counters? with
  | none => exact .pure _ id
  | some counters =>
    have htell (taken : Nat) : Copies
        (do
          if 0 < taken then emit (.countersRemoved o kind taken)
          return taken)
        (do
          if 0 < taken then Resolve.emit (.countersRemoved o kind taken)
          return taken) := by
      apply Mirrors.ite
      · intro hsome
        refine .bind (copies_emit _) fun _ => ?_
        exact .pure _ id
      · intro hnone
        exact .pure _ id
    simp only [fewerCounters_eq, check_ok, pure_bind]
    apply Mirrors.ite
    · intro hempty
      refine .bind (copies_update fun htyped => htyped.eraseFacet o _) fun _ => ?_
      exact htell _
    · intro hleft
      refine .bind (copies_setFacet o trivial) fun _ => ?_
      exact htell _

theorem copies_changeLife (s : Seat) (delta : Int) :
    Copies (lift (Resolve.changeLife s delta)) (Resolve.changeLife s delta) := by
  unfold Resolve.changeLife
  split
  · rw [lift_bind]
    refine .look_anyhow fun g _ => ?_
    refine .liftBind (copies_edit fun htyped hset => htyped.setLife hset) fun _ => ?_
    exact copies_emit _
  · exact .pure _ id

/-- Damage is positive, and so has a negative and is a number. -/
theorem copies_dealDamage (source : Option ObjectId) (target : ObjectId) {n : Int}
    (hn : n ≤ maxAmount) (c : Option Characteristics) :
    Copies (dealDamage source target n c) (Resolve.dealDamage source target n c) := by
  apply Mirrors.ite
  · intro hsome
    refine .look_anyhow fun g _ => ?_
    cases g.seat? target with
    | some s =>
      have hmin : minAmount < n := Int.lt_trans (by decide) hsome
      refine .bind (copies_emit _) fun _ => ?_
      rw [neg_eq hmin hn, check_ok, pure_bind]
      exact copies_changeLife s (-n)
    | none =>
      refine .read (reads_requireIn target _) fun _ _ => ?_
      cases c with
      | none => exact .throw _
      | some c =>
        have hword : n.toNat ≤ maxWord := by
          have hmax : maxAmount ≤ maxWord := by decide
          omega
        have hloyalty : Copies
            (do
              if c.hasType .planeswalker then
                let _ ← removeCounters target .loyalty (← check (fit maxWord n.toNat)))
            (do
              if c.hasType .planeswalker then
                let _ ← Resolve.removeCounters target .loyalty n.toNat) := by
          apply Mirrors.ite
          · intro hplaneswalker
            rw [fit_eq hword, check_ok, pure_bind]
            refine .bind (copies_removeCounters target _ _) fun _ => ?_
            exact .pure _ id
          · intro hother
            exact .pure _ id
        apply Mirrors.guard
        refine .bind (copies_emit _) fun _ => ?_
        apply Mirrors.ite
        · intro hcreature
          refine .look_anyhow fun g _ => ?_
          refine .bind (copies_setFacet target trivial) fun _ => ?_
          exact hloyalty
        · intro hother
          exact hloyalty
  · intro hnone
    exact .pure _ id

theorem copies_addFloating {change : Modification} (hchange : change.Typed)
    (affected : SortedSet ObjectId) (duration : Duration) (ctx : Context) :
    Copies (addFloating change affected duration ctx)
      (Resolve.addFloating change affected duration ctx) := by
  refine .look fun g htyped _ => ?_
  rcases addFloating_cases g change.placed affected duration ctx.source ctx.controller with
    ⟨hle, hle', hadd⟩ | hout
  · simp only [hadd, check_ok, pure_bind]
    have hadded :
        (g.addFloating change.placed affected duration ctx.source ctx.controller).2.Typed := by
      refine { htyped with floating := ?_, nextFloating := hle, nextTimestamp := hle' }
      intro e he
      rcases List.mem_append.mp he with he | he
      · exact htyped.floating e he
      · rw [List.mem_singleton.mp he]
        exact hchange
    refine .bind (.updateAt hadded (Nat.le_refl _)) fun _ => ?_
    exact (copies_emit _).anyhow
  · simp only [hout]
    exact .exhausted

theorem copies_createToken {t : TokenTemplate} (ht : t.Typed) (hs : s.Typed) :
    Copies (createToken t s) (Resolve.createToken t s) := by
  refine .bind (copies_spawn ht.toCard hs _ _) fun o => ?_
  refine .bind (copies_setFacet o hs) fun _ => ?_
  refine .bind (copies_emit _) fun _ => ?_
  exact .pure _ id

/-- A question that can be held may be put, and suspends the work that waits for its answer. -/
theorem mirrors_pause {P : Game → Prop} {player : Seat} {prompt : String} {question : Question}
    {source : Option ObjectId} {work : Suspension} {w : Nat} (hquestion : question.Typed)
    (hwork : work.Typed) (hsize : work.size ≤ w) :
    Mirrors w P (pause player prompt question source work)
      (Resolve.pause player prompt question source work) fun _ _ => True := by
  refine .look fun g htyped _ => ?_
  rcases takeDecisionId_cases g with ⟨hle, hid⟩ | hout
  · simp only [hid, check_ok, pure_bind]
    let decision : Decision := { id := g.takeDecisionId.1, player, prompt, source, question }
    let asked : Game :=
      { g.takeDecisionId.2.pushFrame ⟨some decision.id, work⟩ with pending := some decision }
    have hasked : asked.Typed := by
      refine { htyped with work := ?_, question := ?_, nextDecision := hle }
      · intro f hf
        rcases List.mem_cons.mp hf with rfl | hf
        · exact hwork
        · exact htyped.work f hf
      · rintro d ⟨⟩
        exact hquestion
    have hweight : asked.weight ≤ g.weight + w := by
      change (List.map _ (_ :: g.stack)).sum ≤ _
      rw [List.map_cons, List.sum_cons, Nat.add_comm]
      exact Nat.add_le_add_left hsize _
    refine .bindStill (.updateAt hasked hweight) fun _ => ?_
    refine .andThen (copies_emit _) fun _ => ?_
    exact .pure _ id
  · simp only [hout]
    exact .exhausted

end Acting

end Machine

end CardGame
