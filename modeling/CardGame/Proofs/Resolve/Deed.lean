import CardGame.Proofs.Resolve.Direct
import CardGame.Proofs.Resolve.Pairing

/-!
What a resolution does and what it tells of it. A deed (`Game.Deed`) is one change of a game
together with the events that are told of it, and a course of deeds (`Game.Deeds`) is what executing
an effect or resuming with an answer comes to. So what the events say of a game can be judged deed
by deed.
-/

namespace CardGame

namespace Game

/-- One change of a game, with the events told of it. Some changes are told to nobody: cards on the
bottom of a library or shuffled, damage marked and healed, combat left, work put off. -/
inductive Deed : Game → List Event → Game → Prop
  | announce (g : Game) {e : Event} (h : e.isNotice = true) : Deed g [e] g
  | move {g g' : Game} {o : ObjectId} {target origin : Zone} {p : Position}
      {controller : Option Seat} (h : move o target p controller g = .ok origin g') :
      Deed g (.zoneChanged o origin target :: if g'.contains o then [] else [.tokenCeased o]) g'
  | sink {g : Game} {o : ObjectId} {s : Seat} {origin : Zone} {zones : Zones}
      (hzone : g.zone? o = some (.library s))
      (h : Zones.move o (.library s) .bottom g.zones = .ok origin zones) :
      Deed g [] { g with zones }
  | reorder {g : Game} {z : Zone} {order : List ObjectId} {zones : Zones}
      (h : g.zones.reorder z order = .ok zones) : Deed g [] { g with zones }
  | shuffle (g : Game) (s : Seat) : Deed g [] (g.shuffleLibrary s)
  | random (g : Game) (random : Random) : Deed g [] { g with random }
  | tap {g g' : Game} {o : ObjectId} {u : Unit} (huntapped : g.has o .tapped = false)
      (h : setFacet o .tapped g = .ok u g') : Deed g [.tapped o] g'
  | untap (g : Game) (o : ObjectId) :
      Deed g (if ((g.facets o).get? .tapped).isSome then [.untapped o] else [])
        (g.eraseFacet o .tapped)
  | heal (g : Game) (o : ObjectId) :
      Deed g [] (g.eraseFacets o [.damage, .attacking, .blocking, .blocked])
  | mark {g g' : Game} {o : ObjectId} {n : Int} {u : Unit}
      (h : setFacet o (.damage n) g = .ok u g') : Deed g [] g'
  | addCounters {g g' : Game} {o : ObjectId} {kind : CounterKind} {n : Nat} {u : Unit}
      (h : setFacet o (.counters (((g.facets o).counters?.getD {}).add kind n)) g = .ok u g') :
      Deed g [.countersAdded o kind n] g'
  | removeCounters {g g' : Game} {o : ObjectId} {c : Counters} {u : Unit} (kind : CounterKind)
      (n : Nat) (hbefore : (g.facets o).counters? = some c)
      (h : if (c.take kind n).2.isEmpty then g' = g.eraseFacet o .counters
        else setFacet o (.counters (c.take kind n).2) g = .ok u g') :
      Deed g (if 0 < (c.take kind n).1 then [.countersRemoved o kind (c.take kind n).1] else []) g'
  | life {g g' : Game} {s : Seat} {after : Int} {u : Unit} (h : setLife s after g = .ok u g') :
      Deed g [.lifeChanged s (g.life s) after] g'
  | float (g : Game) (change : Modification) (affected : SortedSet ObjectId) (duration : Duration)
      (source : Option ObjectId) (controller : Seat) :
      Deed g [.floatingCreated ⟨g.nextFloating⟩ change affected.toList]
        (g.addFloating change.placed affected duration source controller).2
  | unfloat {g : Game} {e : FloatingEffect} (h : e ∈ g.floating) :
      Deed g [.floatingExpired e.id] (g.removeFloating e.id)
  | expire (g : Game) (keep : FloatingEffect → Bool) : Deed g (g.expire keep).2 (g.expire keep).1
  | create {g g' g'' : Game} {card : Card} {s : Seat} {o : ObjectId} {u : Unit}
      (hspawn : spawn card s .battlefield true g = .ok o g')
      (h : setFacet o (.controller s) g' = .ok u g'') : Deed g [.tokenCreated o s] g''
  | ask (g : Game) {d : Decision} (work : Suspension) (hid : d.id = ⟨g.nextDecision⟩) :
      Deed g [.decisionRequested d.id d.player]
        { g with
          nextDecision := g.nextDecision + 1
          stack := ⟨some d.id, work⟩ :: g.stack
          pending := some d }
  | answer {g : Game} {d : Decision} (h : g.pending = some d) :
      Deed g [.decisionResolved d.id d.player] { g with pending := none, stack := g.stack.tail }
  | restack (g : Game) (stack : List Frame) : Deed g [] { g with stack }

/-- Deeds one after the other. -/
inductive Deeds : Game → List Event → Game → Prop
  | refl (g : Game) : Deeds g [] g
  | tail {g g' g'' : Game} {es es' : List Event} (h : Deeds g es g') (hlast : Deed g' es' g'') :
      Deeds g (es ++ es') g''

variable {g g' g'' : Game} {es es' : List Event}

theorem Deed.once (h : Deed g es g') : Deeds g es g' := (Deeds.refl g).tail h

theorem Deeds.trans (h : Deeds g es g') (h' : Deeds g' es' g'') : Deeds g (es ++ es') g'' := by
  induction h' with
  | refl => rwa [List.append_nil]
  | tail _ hlast ih =>
    rw [← List.append_assoc]
    exact ih.tail hlast

/-- What every deed keeps, a course of deeds keeps. -/
theorem Deeds.keeps {I : Game → Prop} (h : Deeds g es g')
    (hstep : ∀ {g g' : Game} {es : List Event}, Deed g es g' → I g → I g') (hI : I g) : I g' := by
  induction h with
  | refl => exact hI
  | tail _ hlast ih => exact hstep hlast ih

/-- Where the events told of every deed lead from what was known of the game to what is to be known
of it, so do the events told of a course of deeds. -/
theorem Deeds.replays {σ : Type} {after : σ → Event → Option σ} {known : Game → σ}
    {I : Game → Prop} (h : Deeds g es g')
    (hstep : ∀ {g g' : Game} {es : List Event}, Deed g es g' → I g →
      es.foldlM after (known g) = some (known g') ∧ I g')
    (hI : I g) : es.foldlM after (known g) = some (known g') := by
  induction h with
  | refl => rfl
  | tail hbefore hlast ih =>
    have hmiddle := hbefore.keeps (fun hdeed hI => (hstep hdeed hI).2) hI
    rw [List.foldlM_append, ih, Option.bind_eq_bind, Option.bind_some]
    exact (hstep hlast hmiddle).1

end Game

namespace Progress

/-- What was told between two points of a resolution is what was done between them. -/
def Told (p q : Progress) : Prop :=
  ∃ es, q.events = p.events ++ es ∧ Game.Deeds p.game es q.game

theorem Told.refl (p : Progress) : Told p p := ⟨[], (List.append_nil _).symm, .refl _⟩

theorem Told.trans {p q r : Progress} (h : Told p q) (h' : Told q r) : Told p r := by
  obtain ⟨es, hevents, hdeeds⟩ := h
  obtain ⟨es', hevents', hdeeds'⟩ := h'
  exact ⟨es ++ es', by rw [hevents', hevents, List.append_assoc], hdeeds.trans hdeeds'⟩

/-- A deed of which nothing is told. -/
theorem Told.silently {p : Progress} {g : Game} (h : Game.Deed p.game [] g) :
    Told p { p with game := g } :=
  ⟨[], (List.append_nil _).symm, h.once⟩

theorem Told.once {p : Progress} {g : Game} {es : List Event} (h : Game.Deed p.game es g) :
    Told p ⟨g, p.events ++ es⟩ :=
  ⟨es, rfl, h.once⟩

end Progress

namespace Resolve

variable {α β : Type}

/-- A part of a resolution of which everything is told as it should be, if `P` is true of the game
before. -/
structure Accounted (P : Game → Prop) (r : Resolve α) : Prop where
  accounts : ∀ {p q : Progress} {a : α}, P p.game → r p = .ok (a, q) → p.Told q

theorem edit_eq_ok {e : Edit Game α} {p q : Progress} {a : α} (h : edit e p = .ok (a, q)) :
    ∃ g, e p.game = .ok a g ∧ q = { p with game := g } := by
  unfold edit at h
  split at h
  · next a' g he =>
    cases h
    exact ⟨g, he, rfl⟩
  · cases h

namespace Accounted

variable {P : Game → Prop}

theorem of_pre {P' : Game → Prop} {r : Resolve α} (h : Accounted P r)
    (hP : ∀ {g : Game}, P' g → P g) : Accounted P' r :=
  ⟨fun hp hr => h.accounts (hP hp) hr⟩

protected theorem pure (a : α) : Accounted P (pure a) := by
  refine ⟨fun {p q b} _ hr => ?_⟩
  cases hr
  exact .refl p

protected theorem throw (failure : Failure) : Accounted P (throw failure : Resolve α) := by
  refine ⟨fun {p q b} _ hr => ?_⟩
  cases hr

protected theorem bind {m : Resolve β} {k : β → Resolve α} (hm : Accounted P m)
    (hk : ∀ b, Accounted (fun _ => True) (k b)) : Accounted P (m >>= k) := by
  refine ⟨fun {p q a} hp hr => ?_⟩
  obtain ⟨b, r, hfirst, hrest⟩ := bind_eq_ok hr
  exact (hm.accounts hp hfirst).trans ((hk b).accounts trivial hrest)

/-- A part that goes by what it reads of the game. -/
protected theorem look {k : Game → Resolve α} (hk : ∀ g, P g → Accounted (fun h => h = g) (k g)) :
    Accounted P (game >>= k) :=
  ⟨fun {p _ _} hp hr => (hk p.game hp).accounts rfl hr⟩

theorem ite {c : Prop} [Decidable c] {r r' : Resolve α} (hyes : c → Accounted P r)
    (hno : ¬c → Accounted P r') : Accounted P (if c then r else r') := by
  split
  · next h => exact hyes h
  · next h => exact hno h

/-- A change followed by the event that tells of it. -/
theorem edit_emit {e : Edit Game β} {event : Event}
    (h : ∀ {g g' : Game} {b : β}, P g → e g = .ok b g' → Game.Deed g [event] g') :
    Accounted P (edit e >>= fun _ => emit event) := by
  refine ⟨fun {p q a} hp hr => ?_⟩
  obtain ⟨b, r, hedit, hemit⟩ := bind_eq_ok hr
  obtain ⟨g, he, rfl⟩ := edit_eq_ok hedit
  cases hemit
  exact .once (h hp he)

/-- A change that cannot fail, followed by the event that tells of it. -/
theorem update_emit {f : Game → Game} {event : Event}
    (h : ∀ {g : Game}, P g → Game.Deed g [event] (f g)) :
    Accounted P (update f >>= fun _ => emit event) := by
  refine ⟨fun {p q a} hp hr => ?_⟩
  cases hr
  exact .once (h hp)

theorem update {f : Game → Game} (h : ∀ g, P g → Game.Deed g [] (f g)) :
    Accounted P (update f) := by
  refine ⟨fun {p q a} hp hr => ?_⟩
  cases hr
  exact .silently (h p.game hp)

theorem announce {e : Event} (h : e.isNotice = true) : Accounted P (emit e) := by
  refine ⟨fun {p q a} _ hr => ?_⟩
  cases hr
  exact .once (.announce p.game h)

end Accounted

theorem accounted_game : Accounted (fun _ => True) game := by
  refine ⟨fun {p q g} _ hr => ?_⟩
  cases hr
  exact .refl p

theorem accounted_moveTo (o : ObjectId) (target : Zone) (p : Position)
    (controller : Option Seat) : Accounted (fun _ => True) (moveTo o target p controller) := by
  refine ⟨fun {p q origin} _ hr => ?_⟩
  obtain ⟨origin', r, hedit, hr⟩ := bind_eq_ok hr
  obtain ⟨g, hmove, rfl⟩ := edit_eq_ok hedit
  have hdeed := Game.Deed.move hmove
  obtain ⟨u, r, hemit, hr⟩ := bind_eq_ok hr
  cases hemit
  obtain ⟨g', r, hgame, hr⟩ := bind_eq_ok hr
  cases hgame
  cases hcontains : g.contains o with
  | false =>
    simp only [hcontains, Bool.not_false, if_true] at hr
    rw [hcontains] at hdeed
    cases hr
    exact ⟨_, List.append_assoc _ _ _, hdeed.once⟩
  | true =>
    simp only [hcontains, Bool.not_true, Bool.false_eq_true, if_false] at hr
    rw [hcontains] at hdeed
    cases hr
    exact .once hdeed

theorem accounted_require (o : ObjectId) : Accounted (fun _ => True) (require o) := by
  refine .bind accounted_game fun g => ?_
  exact .ite (fun _ => .pure _) fun _ => .throw _

theorem accounted_requireIn (o : ObjectId) (kind : ZoneKind) :
    Accounted (fun _ => True) (requireIn o kind) := by
  refine .bind (accounted_require o) fun _ => ?_
  refine .bind accounted_game fun g => ?_
  exact .ite (fun _ => .pure _) fun _ => .throw _

theorem accounted_tap (o : ObjectId) : Accounted (fun _ => True) (tap o) := by
  refine .bind (accounted_requireIn o _) fun _ => .look fun g _ => .ite ?_ fun _ => .pure _
  intro huntapped
  refine .edit_emit ?_
  rintro _ g' u rfl hset
  exact .tap (by simpa using huntapped) hset

theorem accounted_untap (o : ObjectId) : Accounted (fun _ => True) (untap o) := by
  refine .bind (accounted_requireIn o _) fun _ => .look fun g _ => ?_
  refine ⟨fun {p q a} hp hr => ?_⟩
  subst hp
  have hdeed := Game.Deed.untap p.game o
  obtain ⟨u, r, herase, hr⟩ := bind_eq_ok hr
  cases herase
  split at hr
  · next htapped =>
    rw [if_pos htapped] at hdeed
    cases hr
    exact .once hdeed
  · next huntapped =>
    rw [if_neg huntapped] at hdeed
    cases hr
    exact .silently hdeed

theorem accounted_reorder (player : Seat) (order : List ObjectId) :
    Accounted (fun _ => True) (LibraryEffect.finishReorder player order) := by
  refine .look fun g _ => ?_
  dsimp only
  split
  · exact .throw _
  · next zones hreorder =>
    refine .bind (.update ?_) fun _ => .bind (.announce rfl) fun _ => .pure _
    rintro _ rfl
    exact .reorder hreorder

/-- Of two floating effects the older one is one of them. -/
theorem mem_foldl_older {e : FloatingEffect} {fs gs : List FloatingEffect} (he : e ∈ gs)
    (hfs : fs ⊆ gs) : fs.foldl older e ∈ gs := by
  induction fs generalizing e with
  | nil => exact he
  | cons f rest ih =>
    obtain ⟨hf, hrest⟩ := List.cons_subset.mp hfs
    refine ih ?_ hrest
    unfold older
    split
    · exact hf
    · exact he

/-- A shield is one of the shields of the permanent. -/
theorem mem_filter_of_shield? {g : Game} {o : ObjectId} {e : FloatingEffect}
    (h : shield? g o = some e) :
    e ∈ g.floating.filter fun e =>
      e.modification.change = .regenerationShield && e.affected.contains o := by
  unfold shield? at h
  split at h
  · cases h
  · next first rest hshields =>
    cases h
    rw [hshields]
    exact mem_foldl_older List.mem_cons_self (List.subset_cons_self _ _)

theorem mem_of_shield? {g : Game} {o : ObjectId} {e : FloatingEffect}
    (h : shield? g o = some e) : e ∈ g.floating :=
  List.mem_of_mem_filter (mem_filter_of_shield? h)

theorem accounted_regenerate (o : ObjectId) : Accounted (fun _ => True) (regenerate o) := by
  have hcalm : Accounted (fun _ => True) (do
      tap o
      update (·.eraseFacets o [.damage, .attacking, .blocking, .blocked])
      emit (.regenerated o)) := by
    refine .bind (accounted_tap o) fun _ => .bind (.update fun g _ => ?_) fun _ => ?_
    · exact .heal g o
    · exact .announce rfl
  refine .look fun g _ => ?_
  cases hshield : shield? g o with
  | none => exact hcalm.of_pre fun _ => trivial
  | some e =>
    have hspend : Accounted (fun h => h = g) (do
        update (·.removeFloating e.id)
        emit (.floatingExpired e.id)) := by
      refine .update_emit ?_
      rintro _ rfl
      exact .unfloat (mem_of_shield? hshield)
    refine ⟨fun {p q a} hp hr => ?_⟩
    obtain ⟨u, r, hremove, hr⟩ := bind_eq_ok hr
    obtain ⟨u, r', hemit, hr⟩ := bind_eq_ok hr
    have hspent : (do
        update (·.removeFloating e.id)
        emit (.floatingExpired e.id)) p = .ok (u, r') := (bind_of_ok hremove).trans hemit
    exact (hspend.accounts hp hspent).trans (hcalm.accounts trivial hr)

theorem accounted_addCounters (o : ObjectId) (kind : CounterKind) (n : Nat) :
    Accounted (fun _ => True) (addCounters o kind n) := by
  refine .bind (accounted_requireIn o _) fun _ => ?_
  refine .ite (fun _ => .look fun g _ => ?_) fun _ => .pure _
  refine .edit_emit ?_
  rintro _ g' u rfl hset
  exact .addCounters hset

theorem accounted_removeCounters (o : ObjectId) (kind : CounterKind) (n : Nat) :
    Accounted (fun _ => True) (removeCounters o kind n) := by
  refine .bind (accounted_requireIn o _) fun _ => .look fun g _ => ?_
  split
  · exact .pure _
  · next c hcounters =>
    refine ⟨fun {p q a} hp hr => ?_⟩
    subst hp
    have htell {g : Game}
        (hdeed : Game.Deed p.game (if 0 < (c.take kind n).1 then
          [.countersRemoved o kind (c.take kind n).1] else []) g)
        (hr : (do
          if 0 < (c.take kind n).1 then emit (.countersRemoved o kind (c.take kind n).1)
          return (c.take kind n).1 : Resolve Nat) { p with game := g } = .ok (a, q)) :
        p.Told q := by
      split at hr
      · next hsome =>
        rw [if_pos hsome] at hdeed
        cases hr
        exact .once hdeed
      · next hnone =>
        rw [if_neg hnone] at hdeed
        cases hr
        exact .silently hdeed
    cases hleft : (c.take kind n).2.isEmpty with
    | true =>
      simp only [hleft, if_true] at hr
      obtain ⟨u, r, herase, hr⟩ := bind_eq_ok hr
      cases herase
      refine htell (.removeCounters (u := ()) kind n hcounters ?_) hr
      rw [hleft, if_pos rfl]
    | false =>
      simp only [hleft, Bool.false_eq_true, if_false] at hr
      obtain ⟨u, r, hedit, hr⟩ := bind_eq_ok hr
      obtain ⟨g, hset, rfl⟩ := edit_eq_ok hedit
      refine htell (.removeCounters (u := u) kind n hcounters ?_) hr
      simpa only [hleft, Bool.false_eq_true, if_false] using hset

theorem accounted_changeLife (s : Seat) (delta : Int) :
    Accounted (fun _ => True) (changeLife s delta) := by
  refine .ite (fun _ => .look fun g _ => .edit_emit ?_) fun _ => .pure _
  rintro _ g' u rfl hset
  exact .life hset

theorem accounted_addFloating (change : Modification) (affected : SortedSet ObjectId)
    (duration : Duration) (ctx : Context) :
    Accounted (fun _ => True) (addFloating change affected duration ctx) := by
  refine .look fun _ _ => .update_emit ?_
  rintro g rfl
  exact .float g change affected duration ctx.source ctx.controller

theorem accounted_createToken (t : TokenTemplate) (s : Seat) :
    Accounted (fun _ => True) (createToken t s) := by
  refine ⟨fun {p q a} _ hr => ?_⟩
  obtain ⟨o, r, hspawn, hr⟩ := bind_eq_ok hr
  obtain ⟨g, hspawned, rfl⟩ := edit_eq_ok hspawn
  obtain ⟨u, r, hedit, hr⟩ := bind_eq_ok hr
  obtain ⟨g', hset, rfl⟩ := edit_eq_ok hedit
  cases hr
  exact .once (.create hspawned hset)

theorem accounted_pause (player : Seat) (prompt : String) (question : Question)
    (source : Option ObjectId) (work : Suspension) :
    Accounted (fun _ => True) (pause player prompt question source work) := by
  refine ⟨fun {p q a} _ hr => ?_⟩
  cases hr
  exact .once
    (.ask (d := ⟨⟨p.game.nextDecision⟩, player, prompt, source, question⟩) p.game work rfl)

/-- What every action does it tells as it should. -/
theorem Act.accounted {chance : Prop} {holder : Seat → Prop} {r : Resolve α}
    (h : Act chance holder r) :
    Accounted (fun _ => True) r := by
  cases h with
  | announce h => exact .announce h
  | moveTo o target p controller => exact accounted_moveTo o target p controller
  | tap o => exact accounted_tap o
  | untap o => exact accounted_untap o
  | shuffleLibrary _ s =>
    exact .bind (.update fun g _ => .shuffle g s) fun _ => .announce rfl
  | reorder player order => exact accounted_reorder player order
  | random _ random => exact .update fun g _ => .random g random
  | regenerate o => exact accounted_regenerate o
  | addCounters o kind n => exact accounted_addCounters o kind n
  | removeCounters o kind n => exact accounted_removeCounters o kind n
  | mark o n =>
    refine ⟨fun {p q a} _ hr => ?_⟩
    obtain ⟨g, hset, rfl⟩ := edit_eq_ok hr
    exact .silently (.mark hset)
  | changeLife s delta => exact accounted_changeLife s delta
  | addFloating change affected duration ctx =>
    exact accounted_addFloating change affected duration ctx
  | createToken t s => exact accounted_createToken t s
  | pause player prompt question source work => exact accounted_pause _ _ _ _ _
  | restack f => exact .update fun g _ => .restack g (f g)

theorem Woven.accounted {chance : Prop} {r : Resolve α} (h : Woven chance (fun _ => True) r) :
    Accounted (fun _ => True) r := by
  induction h with
  | act h => exact h.accounted
  | game => exact accounted_game
  | pure a => exact .pure a
  | throw => exact .throw _
  | bind hm hk ihm ihk => exact .bind ihm ihk

/-- Cards of a library go to its bottom one by one. -/
theorem accounted_finishScry (player : Seat) (chosen : List ObjectId) :
    Accounted (fun g => ∀ o ∈ chosen, g.zone? o = some (.library player))
      (LibraryEffect.finishScry player chosen) := by
  refine .bind ⟨fun {p q a} hthere hr => ?_⟩ fun _ => .bind (.announce rfl) fun _ => .pure _
  induction chosen generalizing p with
  | nil =>
    cases hr
    exact .refl _
  | cons o rest ih =>
    obtain ⟨u, r, hfirst, hr⟩ := bind_eq_ok hr
    obtain ⟨origin, r', hmove, hfirst⟩ := bind_eq_ok hfirst
    cases hfirst
    obtain ⟨g, hmoved, rfl⟩ := edit_eq_ok hmove
    unfold Game.onZones at hmoved
    split at hmoved
    · next origin' zones hzones =>
      cases hmoved
      have ho := hthere o List.mem_cons_self
      have hsame := Game.sameStanding_sink ho hzones
      have hrest : ∀ o' ∈ rest, Game.zone? { p.game with zones } o' = some (.library player) :=
        fun o' ho' => (hsame.zone? o').trans (hthere o' (List.mem_cons_of_mem _ ho'))
      exact (Progress.Told.silently (.sink ho hzones)).trans (ih hrest hr)
    · cases hmoved

end Resolve

end CardGame
