import CardGame.Proofs.Resolve.Direct

/-!
The questions that resolving asks of a game and the actions that effects are made of ask nobody.
Each theorem says so for one of them, with what the question establishes and what the action needs.
-/

namespace CardGame

namespace Resolve

variable {lasting : Duration → Prop} {P : Game → Prop}

theorem Same.zones {g h : Game} (hsame : Same g h) : h.zones = g.zones := by
  have hzones : (h.core true).zones = (g.core true).zones := congrArg Game.zones hsame
  exact hzones

theorem Same.zone? {g h : Game} (hsame : Same g h) (o : ObjectId) : h.zone? o = g.zone? o := by
  rw [Game.zone?, hsame.zones, Game.zone?]

theorem Same.owner? {g h : Game} (hsame : Same g h) (o : ObjectId) :
    h.owner? o = g.owner? o := by
  have howner : (h.core true).owner? o = (g.core true).owner? o :=
    congrArg (fun g => Game.owner? g o) hsame
  exact howner

theorem Same.facets {g h : Game} (hsame : Same g h) (o : ObjectId) : h.facets o = g.facets o := by
  have hfacets : (h.core true).facets o = (g.core true).facets o :=
    congrArg (fun g => Game.facets g o) hsame
  exact hfacets

theorem Same.onBattlefield {g h : Game} (hsame : Same g h) (o : ObjectId) :
    h.onBattlefield o = g.onBattlefield o := by
  rw [Game.onBattlefield, hsame.zones, Game.onBattlefield]

theorem directly_object (ctx : Context) (r : Reference) :
    Directly lasting P (object ctx r) fun _ => P := by
  unfold object
  split
  · exact .pure _ id
  · exact .throw rfl

theorem directly_require (o : ObjectId) : Directly lasting P (require o) fun _ => P := by
  refine .look_anyhow (fun _ _ => rfl) fun g => ?_
  apply Directly.ite
  · intro hexists
    exact .pure _ id
  · intro hmissing
    exact .throw rfl

/-- Past the requirement the object is in a zone of the kind. -/
theorem directly_requireIn (o : ObjectId) (kind : ZoneKind) :
    Directly lasting P (requireIn o kind) fun _ g => P g ∧ g.zones.isIn o kind = true := by
  refine .bind (directly_require o) fun _ => ?_
  refine .look (fun _ _ => rfl) fun g _ _ => ?_
  apply Directly.ite
  · intro hin
    refine .pure _ ?_
    rintro h ⟨hp, hsame⟩
    have hzones : h.zones = g.zones := hsame.zones
    exact ⟨hp, hzones ▸ hin⟩
  · intro hout
    exact .throw rfl

theorem directly_owner (o : ObjectId) :
    Directly lasting P (owner o) fun s g => P g ∧ g.owner? o = some s := by
  refine .look (fun _ _ => rfl) fun g _ _ => ?_
  cases howner : g.owner? o with
  | none => exact .throw rfl
  | some s =>
    refine .pure _ ?_
    rintro h ⟨hp, hsame⟩
    exact ⟨hp, (hsame.owner? o).trans howner⟩

theorem directly_characteristics (v : View) (o : ObjectId) :
    Directly lasting P (characteristics v o) fun _ => P := by
  unfold characteristics
  split
  · exact .pure _ id
  · exact .throw rfl

theorem directly_permanent (rules : Rules) (ctx : Context) (r : Reference) :
    Directly lasting P (permanent rules ctx r) fun found g =>
      P g ∧ g.onBattlefield found.1 = true := by
  refine .bind (directly_object ctx r) fun o => ?_
  refine .bind (directly_requireIn o _) fun _ => ?_
  refine .view (fun _ _ => rfl) fun v => ?_
  refine .bind (directly_characteristics v o) fun _ => ?_
  exact .pure _ id

theorem directly_amount (rules : Rules) (ctx : Context) (a : Amount) :
    Directly lasting P (amount rules ctx a) fun _ => P := by
  refine .view ?_ fun v => .pure _ id
  intro b v
  rw [View.evaluate_core]

theorem directly_count (rules : Rules) (ctx : Context) (a : Amount) :
    Directly lasting P (count rules ctx a) fun _ => P := by
  refine .view ?_ fun v => .pure _ id
  intro b v
  rw [View.evaluateCount_core]

theorem directly_players (rules : Rules) (ctx : Context) (s : Selector) :
    Directly lasting P (players rules ctx s) fun _ => P := by
  refine .view ?_ fun v => .pure _ id
  intro b v
  rw [View.players_core]

end Resolve

/-- Wherever an object is, it is in one of a player's zones. -/
def Game.Owns (g : Game) (s : Seat) (o : ObjectId) : Prop := ∀ z, g.zone? o = some z → z.owner = s

namespace Resolve

variable {lasting : Duration → Prop} {P : Game → Prop}

/-- An object may be moved to a zone of the player who owns it, and then its player still owns what
they owned. -/
theorem directly_moveTo {o : ObjectId} (os : List ObjectId) (target : Zone) (p : Position)
    (controller : Option Seat) (hmem : o ∈ os) :
    Directly lasting (fun g => ∀ o' ∈ os, g.Owns target.owner o') (moveTo o target p controller)
      fun _ g => ∀ o' ∈ os, g.Owns target.owner o' := by
  have hmove : Directly lasting (fun g => ∀ o' ∈ os, g.Owns target.owner o')
      (edit (Game.move o target p controller)) fun _ g => ∀ o' ∈ os, g.Owns target.owner o' := by
    refine .edit (Edit.natural_move o target p controller) ?_
    intro g g' origin hsound howns hmoved
    obtain ⟨zones, hzones, -⟩ := Game.move_eq_ok hmoved
    have howner : origin.owner = target.owner :=
      howns o hmem origin (Zones.zone?_of_move hzones)
    refine ⟨.move howner hmoved, ?_⟩
    intro o' ho' z hzone
    rcases Game.zone?_move_cases hmoved hzone with ⟨-, rfl⟩ | hold
    · rfl
    · exact howns o' ho' z hold
  refine .bind hmove fun origin => ?_
  refine .bind (.emit rfl) fun _ => ?_
  refine .look_anyhow (fun _ _ => rfl) fun g => ?_
  apply Directly.ite
  · intro hceased
    refine .bind (.emit rfl) fun _ => ?_
    exact .pure _ id
  · intro hexists
    exact .pure _ id

private theorem owns_of_owner {o : ObjectId} (s : Seat) {g : Game} (hsound : g.Sound)
    (howner : True ∧ g.owner? o = some s) : ∀ o' ∈ [o], g.Owns s o' := by
  intro o' ho' z hzone
  rw [List.mem_singleton.mp ho'] at hzone
  have howns : g.owner? o = some z.owner := hsound.housed.owner?_of_zone? hzone
  exact Option.some.inj (howns.symm.trans howner.2)

theorem direct_moveToOwners (o : ObjectId) (kind : ZoneKind) :
    Direct lasting (moveToOwners o kind) := by
  refine .bind (directly_owner o) fun s => ?_
  have hmem : o ∈ [o] := List.mem_singleton_self o
  exact (directly_moveTo [o] ⟨s, kind⟩ .top none hmem).mono (owns_of_owner s) fun _ _ => trivial

/-- A permanent may be marked with what its facets call for. -/
theorem directly_setFacet (o : ObjectId) (f : Facet) :
    Directly lasting (fun g => g.onBattlefield o = true ∧ Game.Records (g.facets o) f)
      (edit (Game.setFacet o f)) fun _ g => g.onBattlefield o = true := by
  refine .edit (Edit.natural_setFacet o f) ?_
  rintro g g' u - ⟨hthere, hrecords⟩ hset
  refine ⟨.mark hrecords hthere hset, ?_⟩
  rw [(Game.setFacet_eq_ok hset).2]
  exact hthere

theorem direct_eraseFacet (o : ObjectId) {kind : FacetKind} (hkind : kind ∈ Game.statusFacets) :
    Direct lasting (update (·.eraseFacet o kind)) := by
  refine direct_update ?_ fun b g => Game.eraseFacet_core o kind
  intro g
  exact .unmark g o [kind] (by simpa using hkind)

theorem direct_tap (o : ObjectId) : Direct lasting (tap o) := by
  refine .bind (directly_requireIn o .battlefield) fun _ => ?_
  refine .look_anyhow (fun _ _ => rfl) fun g => ?_
  apply Directly.ite
  · intro huntapped
    refine .bind ((directly_setFacet o .tapped).mono ?_ fun _ _ => trivial) fun _ => .emit rfl
    rintro g - ⟨-, hthere⟩
    exact ⟨hthere, .tapped⟩
  · intro htapped
    exact .pure _ fun _ => trivial

theorem direct_untap (o : ObjectId) : Direct lasting (untap o) := by
  refine .bind (directly_requireIn o _).anyhow fun _ => ?_
  refine .look_anyhow (fun _ _ => rfl) fun g => ?_
  have herase : Direct lasting (update (·.eraseFacet o .tapped)) :=
    direct_eraseFacet o (by simp [Game.statusFacets])
  refine .bind herase fun _ => ?_
  apply Directly.ite
  · intro htapped
    exact .emit rfl
  · intro huntapped
    exact .pure _ id

theorem direct_putOntoBattlefield (o : ObjectId) (controller : Option Seat) (tapped : Bool) :
    Direct lasting (putOntoBattlefield o controller tapped) := by
  refine .bind (directly_owner o) fun s => ?_
  have hmem : o ∈ [o] := List.mem_singleton_self o
  refine .bind ((directly_moveTo [o] (.battlefield s) .top controller hmem).of_pre
    (owns_of_owner s)) fun origin => ?_
  apply Directly.ite
  · intro htapped
    exact (direct_tap o).of_pre fun _ _ => trivial
  · intro huntapped
    exact .pure _ fun _ => trivial

/-- The cards drawn stay the player's on their way to the hand. -/
theorem direct_draw (s : Seat) (count : Nat) : Direct lasting (draw s count) := by
  refine .look (fun _ _ => rfl) fun g hsound _ => ?_
  let cards := g.topOfLibrary s count
  have hloop : Directly lasting (fun h => ∀ o ∈ cards, h.Owns s o)
      (cards.forM fun o => do
        let _ ← moveTo o (.hand s) .top none
        emit (.cardDrawn s o)) fun _ h => ∀ o ∈ cards, h.Owns s o := by
    refine .forM fun o ho => ?_
    refine .bind (directly_moveTo cards (.hand s) .top none ho) fun origin => ?_
    exact .emit rfl
  have howned : ∀ {h : Game}, h.Sound → True ∧ Same g h → ∀ o ∈ cards, h.Owns s o := by
    rintro h _ ⟨-, hsame⟩ o ho z hzone
    rw [hsame.zone?, hsound.housed.zone?_of_mem_top ho] at hzone
    cases hzone
    rfl
  refine .bind (hloop.of_pre howned) fun _ => ?_
  exact .pure _ fun _ => trivial

theorem direct_discard (s : Seat) (cards : List ObjectId) : Direct lasting (discard s cards) := by
  refine .forM fun o _ => ?_
  refine .look_anyhow (fun _ _ => rfl) fun g => ?_
  have hmove : Direct lasting (do
      let _ ← moveToOwners o .graveyard
      emit (.cardDiscarded s o)) := .bind (direct_moveToOwners o _) fun _ => .emit rfl
  exact .guard rfl hmove

theorem direct_mill (s : Seat) (count : Nat) : Direct lasting (mill s count) := by
  refine .look_anyhow (fun _ _ => rfl) fun g => ?_
  have hloop : Direct lasting ((g.topOfLibrary s count).forM fun o => do
      let _ ← moveToOwners o .graveyard) :=
    .forM fun o _ => .bind (direct_moveToOwners o _) fun _ => .pure _ id
  exact .bind hloop fun _ => .pure _ id

theorem direct_shuffleLibrary (s : Seat) : Direct lasting (shuffleLibrary s) := by
  have hshuffle : Direct lasting (update (·.shuffleLibrary s)) :=
    direct_update (fun g => .shuffle g s) fun _ _ => Game.shuffleLibrary_core s
  exact .bind hshuffle fun _ => .emit rfl

theorem direct_die (o : ObjectId) (c : Characteristics) : Direct lasting (die o c) :=
  .bind (direct_moveToOwners o _) fun _ => .pure _ id

/-- Shields are never spent, so that the core shows the same one. -/
theorem shield?_core (b : Bool) (g : Game) (o : ObjectId) : shield? (g.core b) o = shield? g o := by
  unfold shield?
  have hshields : (g.core b).floating.filter (fun e =>
      e.modification.change = .regenerationShield && e.affected.contains o) =
      g.floating.filter fun e =>
        e.modification.change = .regenerationShield && e.affected.contains o := by
    rw [Game.core, List.filter_filter]
    refine List.filter_congr fun e _ => ?_
    by_cases hshield : e.modification.change = .regenerationShield <;>
      simp [hshield, FloatingEffect.isSpent]
  rw [hshields]

theorem eraseP_eq_filter {fs : List FloatingEffect} (id : FloatingId)
    (hnumbered : fs.Pairwise fun e f => e.id.val < f.id.val) :
    fs.eraseP (·.id = id) = fs.filter (·.id ≠ id) := by
  induction fs with
  | nil => rfl
  | cons e rest ih =>
    obtain ⟨hfirst, hrest⟩ := List.pairwise_cons.mp hnumbered
    by_cases hid : e.id = id
    · have hothers : ∀ f ∈ rest, f.id ≠ id := by
        intro f hf heq
        have hlt := hfirst f hf
        rw [hid, heq] at hlt
        exact absurd hlt (Nat.lt_irrefl _)
      have hrest : rest.filter (·.id ≠ id) = rest :=
        List.filter_eq_self.mpr fun f hf => decide_eq_true (hothers f hf)
      rw [List.eraseP_cons, List.filter_cons, hrest]
      simp [hid]
    · simp [hid, ih hrest]

/-- Floating effects have different identities, so that ending one ends it in the core, too. -/
theorem core_removeFloating {g : Game} (hsound : g.Sound) (b : Bool) (id : FloatingId) :
    ((g.core b).removeFloating id).core b = (g.removeFloating id).core b := by
  have hnumbered := hsound.orderly.numbered
  have hcore : (g.core b).floating.Pairwise fun e f => e.id.val < f.id.val :=
    hnumbered.sublist List.filter_sublist
  unfold Game.removeFloating
  rw [eraseP_eq_filter id hnumbered, eraseP_eq_filter id hcore]
  simp [Game.core, List.filter_filter, Bool.and_comm, Bool.and_left_comm]

theorem direct_regenerate (o : ObjectId) : Direct lasting (regenerate o) := by
  have hheal : Direct lasting
      (update (·.eraseFacets o [.damage, .attacking, .blocking, .blocked])) := by
    refine direct_update ?_ fun b g => Game.eraseFacets_core o _
    intro g
    exact .unmark g o _ (by simp [Game.statusFacets])
  have hcalm : Direct lasting (do
      tap o
      update (·.eraseFacets o [.damage, .attacking, .blocking, .blocked])
      emit (.regenerated o)) := by
    refine .bind (direct_tap o) fun _ => ?_
    refine .bind hheal fun _ => ?_
    exact .emit rfl
  refine .look_anyhow ?_ fun g => ?_
  · intro b g
    rw [shield?_core]
  · cases shield? g o with
    | none => exact hcalm
    | some e =>
      have hend : Direct lasting (update (·.removeFloating e.id)) := by
        refine .update_core ?_ ?_
        · intro g _ _
          exact ⟨.unfloat g e.id, trivial⟩
        · intro b g hsound _
          exact core_removeFloating hsound b e.id
      refine .bind hend fun _ => ?_
      refine .bind (.emit rfl) fun _ => ?_
      exact hcalm

theorem direct_destroy (o : ObjectId) (c : Characteristics) : Direct lasting (destroy o c) := by
  refine .bind (directly_requireIn o _).anyhow fun _ => ?_
  apply Directly.ite
  · intro hindestructible
    exact .pure _ id
  · intro hdestructible
    apply Directly.ite
    · intro hshielded
      exact .bind (direct_regenerate o) fun _ => .pure _ id
    · intro hbare
      refine .bind (.emit rfl) fun _ => ?_
      exact .bind (direct_die o c) fun _ => .pure _ id

theorem direct_sacrifice (s : Seat) (o : ObjectId) (c : Characteristics) :
    Direct lasting (sacrifice s o c) := by
  refine .bind (directly_requireIn o _).anyhow fun _ => ?_
  have hgo : Direct lasting (do
      emit (.sacrificed s o)
      die o c) := .bind (.emit rfl) fun _ => direct_die o c
  exact .guard rfl hgo

theorem direct_addCounters (o : ObjectId) (kind : CounterKind) (n : Nat) :
    Direct lasting (addCounters o kind n) := by
  refine .bind (directly_requireIn o .battlefield) fun _ => ?_
  apply Directly.ite
  · intro hsome
    refine .look (fun _ _ => rfl) fun g _ _ => ?_
    refine .bind ((directly_setFacet o _).mono ?_ fun _ _ => trivial) fun _ => .emit rfl
    rintro h - ⟨⟨-, hthere⟩, hsame⟩
    rw [← hsame.facets o]
    exact ⟨hthere, .added kind hsome⟩
  · intro hnone
    exact .pure _ fun _ => trivial

theorem direct_removeCounters (o : ObjectId) (kind : CounterKind) (n : Nat) :
    Direct lasting (removeCounters o kind n) := by
  refine .bind (directly_requireIn o .battlefield) fun _ => ?_
  refine .look (fun _ _ => rfl) fun g _ _ => ?_
  cases hcounters : (g.facets o).counters? with
  | none => exact .pure _ fun _ => trivial
  | some counters =>
    have htell : Direct lasting (do
        if 0 < (counters.take kind n).1 then
          emit (.countersRemoved o kind (counters.take kind n).1)
        return (counters.take kind n).1) := by
      apply Directly.ite
      · intro hsome
        exact .bind (.emit rfl) fun _ => .pure _ id
      · intro hnone
        exact .pure _ id
    apply Directly.ite
    · intro hempty
      have herase : Direct lasting (update (·.eraseFacet o .counters)) :=
        direct_eraseFacet o (by simp [Game.statusFacets])
      refine .bind (herase.of_pre fun _ _ => trivial) fun _ => htell
    · intro hleft
      refine .bind ((directly_setFacet o _).mono ?_ fun _ _ => trivial) fun _ => htell
      rintro h - ⟨⟨-, hthere⟩, hsame⟩
      rw [← hsame.facets o] at hcounters
      exact ⟨hthere, .left kind n hcounters (Bool.eq_false_iff.mpr hleft)⟩

theorem direct_changeLife (s : Seat) (delta : Int) : Direct lasting (changeLife s delta) := by
  apply Directly.ite
  · intro hchanges
    refine .look_anyhow (fun _ _ => rfl) fun g => ?_
    have hset (life : Int) : Direct lasting (edit (Game.setLife s (saturate life))) := by
      apply direct_edit (Edit.natural_setLife s (saturate life))
      intro g g' u hset
      exact .life hset
    exact .bind (hset _) fun _ => .emit rfl
  · intro hsame
    exact .pure _ id

theorem direct_dealDamage (source : Option ObjectId) (target : ObjectId) (n : Int)
    (c : Option Characteristics) : Direct lasting (dealDamage source target n c) := by
  apply Directly.ite
  · intro hsome
    refine .look_anyhow (fun _ _ => rfl) fun g => ?_
    cases g.seat? target with
    | some s => exact .bind (.emit rfl) fun _ => direct_changeLife s (-n)
    | none =>
      refine .bind (directly_requireIn target .battlefield) fun _ => ?_
      cases c with
      | none => exact .throw rfl
      | some c =>
        have hloyalty : Direct lasting (do
            if c.hasType .planeswalker then
              let _ ← removeCounters target .loyalty n.toNat) := by
          apply Directly.ite
          · intro hplaneswalker
            exact .bind (direct_removeCounters target _ _) fun _ => .pure _ id
          · intro hother
            exact .pure _ id
        have hdeal : Directly lasting (fun g => True ∧ g.onBattlefield target = true) (do
            emit (.damageDealt source target n)
            if c.hasType .creature then
              let marked := ((← game).facets target).damage?.getD 0
              edit (Game.setFacet target (.damage (saturate (marked + n))))
            if c.hasType .planeswalker then
              let _ ← removeCounters target .loyalty n.toNat) fun _ _ => True := by
          refine .bind (.emit rfl) fun _ => ?_
          apply Directly.ite
          · intro hcreature
            refine .look (fun _ _ => rfl) fun g _ _ => ?_
            refine .bind ((directly_setFacet target _).mono ?_ fun _ _ => trivial)
              fun _ => hloyalty
            rintro h - ⟨⟨-, hthere⟩, hsame⟩
            rw [← hsame.facets target]
            exact ⟨hthere, .damaged hsome⟩
          · intro hother
            exact hloyalty.of_pre fun _ _ => trivial
        exact .guard rfl hdeal
  · intro hnone
    exact .pure _ id

/-- A floating effect may start on permanents, and they stay permanents. -/
theorem directly_addFloating {change : Modification} {affected : SortedSet ObjectId}
    {duration : Duration} (ctx : Context) (hlasting : lasting duration)
    (haffecting : affected.isEmpty = false)
    (hshield : change = .regenerationShield → duration = .endOfTurn)
    (hsingle : change = .regenerationShield → ∃ o, affected = .singleton o) :
    Directly lasting (fun g => ∀ o, affected.contains o = true → g.onBattlefield o = true)
      (addFloating change affected duration ctx)
      fun _ g => ∀ o, affected.contains o = true → g.onBattlefield o = true where
  runs {p q a} hsound hthere hr := by
    cases hr
    refine ⟨?_, hthere⟩
    exact (Relation.ReflTransGen.single (.alter (.float p.game ctx.source ctx.controller hlasting
      haffecting hthere hshield hsingle))).tail (.tell _ rfl)
  fails _ _ hr := by cases hr
  agrees {b told₁ told₂ p₁ p₂} _ _ _ _ hlike := by
    have hadded : (p₁.game.addFloating change.placed affected duration ctx.source
        ctx.controller).2.core b = (p₂.game.addFloating change.placed affected duration ctx.source
        ctx.controller).2.core b := by
      rw [← Game.core_addFloating, hlike.core, Game.core_addFloating]
    have hnext : p₂.game.nextFloating = p₁.game.nextFloating :=
      (congrArg Game.nextFloating hlike.core).symm
    have htold := (hlike.of_game hadded).tell
      (.floatingCreated ⟨p₁.game.nextFloating⟩ change affected.toList)
    change Agree b told₁ told₂ (.ok ((), _)) (.ok ((), _))
    refine .answered () ?_
    simpa only [Game.addFloating, hnext] using htold

theorem direct_createToken (t : TokenTemplate) (s : Seat) : Direct lasting (createToken t s) := by
  have hspawn : Directly lasting (fun _ => True) (edit (Game.spawn t.toCard s .battlefield true))
      fun o g => g.onBattlefield o = true := by
    refine .edit (Edit.natural_spawn t.toCard s .battlefield true) ?_
    intro g g' o _ _ hspawned
    exact ⟨.create hspawned, Game.onBattlefield_of_spawn hspawned⟩
  refine .bind hspawn fun o => ?_
  refine .bind ((directly_setFacet o (.controller s)).mono ?_ fun _ _ => trivial) fun _ => ?_
  · intro g _ hthere
    exact ⟨hthere, .controller s⟩
  · refine .bind (.emit rfl) fun _ => ?_
    exact .pure _ id

end Resolve

end CardGame
