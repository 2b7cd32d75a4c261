import CardGame.Proofs.Play.Remains
import CardGame.Proofs.Play.Timestamps

/-!
Effects that last while their source is on the battlefield. Before a resolution ends nothing makes a
floating effect expire but a shield that is spent (`Resolve.Sparing`), and in the end those expire
that do not work any more. So what becomes of a floating effect is known from the objects that have
left the battlefield and from the game at the end. Whether its source has been away in between makes
no difference.
-/

namespace CardGame

open Resolve

namespace Resolve

variable {α β : Type} {P : Game → Prop}

/-- A part of a resolution that tells of no floating effect that it has expired. -/
structure EndsNone (r : Resolve α) : Prop where
  expired : ∀ {p q : Progress} {a : α}, r p = .ok (a, q) →
    q.events.filterMap Event.expired? = p.events.filterMap Event.expired?

namespace EndsNone

protected theorem pure (a : α) : EndsNone (pure a) := by
  refine ⟨fun {p q b} hr => ?_⟩
  cases hr
  rfl

protected theorem throw (failure : Failure) : EndsNone (throw failure : Resolve α) := by
  refine ⟨fun {p q b} hr => ?_⟩
  cases hr

protected theorem bind {m : Resolve β} {k : β → Resolve α} (hm : EndsNone m)
    (hk : ∀ b, EndsNone (k b)) : EndsNone (m >>= k) := by
  refine ⟨fun {p q a} hr => ?_⟩
  obtain ⟨b, r, hfirst, hrest⟩ := bind_eq_ok hr
  exact ((hk b).expired hrest).trans (hm.expired hfirst)

protected theorem game : EndsNone game := by
  refine ⟨fun {p q g} hr => ?_⟩
  cases hr
  rfl

theorem ite {c : Prop} [Decidable c] {r r' : Resolve α} (hyes : EndsNone r) (hno : EndsNone r') :
    EndsNone (if c then r else r') := by
  split
  · exact hyes
  · exact hno

theorem update (f : Game → Game) : EndsNone (update f) := by
  refine ⟨fun {p q a} hr => ?_⟩
  cases hr
  rfl

theorem edit (e : Edit Game α) : EndsNone (edit e) := by
  refine ⟨fun {p q a} hr => ?_⟩
  obtain ⟨g, -, rfl⟩ := edit_eq_ok hr
  rfl

theorem emit {e : Event} (h : e.expired? = none) : EndsNone (emit e) := by
  refine ⟨fun {p q a} hr => ?_⟩
  cases hr
  change (p.events ++ [e]).filterMap Event.expired? = _
  rw [List.filterMap_append, List.filterMap_cons_none h]
  exact List.append_nil _

protected theorem forM {xs : List β} {body : β → Resolve PUnit} (hbody : ∀ x, EndsNone (body x)) :
    EndsNone (xs.forM body) := by
  induction xs with
  | nil => exact .pure _
  | cons x rest ih =>
    change EndsNone (body x >>= fun _ => rest.forM body)
    exact .bind (hbody x) fun _ => ih

end EndsNone

theorem endsNone_requireIn (o : ObjectId) (kind : ZoneKind) : EndsNone (requireIn o kind) := by
  have hrequire : EndsNone (require o) := .bind .game fun g => .ite (.pure _) (.throw _)
  exact .bind hrequire fun _ => .bind .game fun g => .ite (.pure _) (.throw _)

theorem endsNone_tap (o : ObjectId) : EndsNone (tap o) :=
  .bind (endsNone_requireIn o _) fun _ => .bind .game fun _ =>
    .ite (.bind (.edit _) fun _ => .emit rfl) (.pure _)

theorem endsNone_untap (o : ObjectId) : EndsNone (untap o) :=
  .bind (endsNone_requireIn o _) fun _ => .bind .game fun _ => .bind (.update _) fun _ =>
    .ite (.emit rfl) (.pure _)

theorem endsNone_moveTo (o : ObjectId) (target : Zone) (p : Position) (controller : Option Seat) :
    EndsNone (moveTo o target p controller) :=
  .bind (.edit _) fun _ => .bind (.emit rfl) fun _ => .bind .game fun _ =>
    .ite (.bind (.emit rfl) fun _ => .pure _) (.pure _)

theorem endsNone_finishReorder (player : Seat) (order : List ObjectId) :
    EndsNone (LibraryEffect.finishReorder player order) := by
  refine .bind .game fun g => ?_
  dsimp only
  split
  · exact .throw _
  · exact .bind (.update _) fun _ => .bind (.emit rfl) fun _ => .pure _

theorem endsNone_addCounters (o : ObjectId) (kind : CounterKind) (n : Nat) :
    EndsNone (addCounters o kind n) :=
  .bind (endsNone_requireIn o _) fun _ =>
    .ite (.bind .game fun _ => .bind (.edit _) fun _ => .emit rfl) (.pure _)

theorem endsNone_removeCounters (o : ObjectId) (kind : CounterKind) (n : Nat) :
    EndsNone (removeCounters o kind n) := by
  refine .bind (endsNone_requireIn o _) fun _ => .bind .game fun g => ?_
  split
  · exact .pure _
  · next c hcounters =>
    have htell : EndsNone (do
        if 0 < (c.take kind n).1 then emit (.countersRemoved o kind (c.take kind n).1)
        return (c.take kind n).1 : Resolve Nat) :=
      .ite (.bind (.emit rfl) fun _ => .pure _) (.pure _)
    exact .ite (.bind (.update _) fun _ => htell) (.bind (.edit _) fun _ => htell)

theorem endsNone_changeLife (s : Seat) (delta : Int) : EndsNone (changeLife s delta) :=
  .ite (.bind .game fun _ => .bind (.edit _) fun _ => .emit rfl) (.pure _)

theorem endsNone_addFloating (change : Modification) (affected : SortedSet ObjectId)
    (duration : Duration) (ctx : Context) : EndsNone (addFloating change affected duration ctx) :=
  .bind .game fun _ => .bind (.update _) fun _ => .emit rfl

theorem endsNone_createToken (t : TokenTemplate) (s : Seat) : EndsNone (createToken t s) :=
  .bind (.edit _) fun _ => .bind (.edit _) fun _ => .bind (.emit rfl) fun _ => .pure _

theorem endsNone_pause (player : Seat) (prompt : String) (question : Question)
    (source : Option ObjectId) (work : Suspension) :
    EndsNone (pause player prompt question source work) :=
  .bind .game fun _ => .bind (.update _) fun _ => .bind (.emit rfl) fun _ => .pure _

theorem endsNone_finishScry (player : Seat) (chosen : List ObjectId) :
    EndsNone (LibraryEffect.finishScry player chosen) :=
  .bind (.forM fun _ => .bind (.edit _) fun _ => .pure _) fun _ =>
    .bind (.emit rfl) fun _ => .pure _

/-- Regenerating tells of the shield that is spent. -/
theorem expired_regenerate {o : ObjectId} {p q : Progress} {u : Unit}
    (h : regenerate o p = .ok (u, q)) :
    q.events.filterMap Event.expired? =
      p.events.filterMap Event.expired? ++ ((shield? p.game o).map (·.id)).toList := by
  have hcalm : EndsNone (do
      tap o
      Resolve.update (·.eraseFacets o [.damage, .attacking, .blocking, .blocked])
      Resolve.emit (.regenerated o)) :=
    .bind (endsNone_tap o) fun _ => .bind (.update _) fun _ => .emit rfl
  obtain ⟨g, r, hgame, hr⟩ := bind_eq_ok h
  cases hgame
  cases hshield : shield? p.game o with
  | none =>
    rw [hshield] at hr
    rw [hcalm.expired hr]
    exact (List.append_nil _).symm
  | some e =>
    rw [hshield] at hr
    obtain ⟨u, r, hremove, hr⟩ := bind_eq_ok hr
    cases hremove
    obtain ⟨u, r', hemit, hr⟩ := bind_eq_ok hr
    cases hemit
    rw [hcalm.expired hr]
    exact List.filterMap_append

end Resolve

namespace Game

variable {g g' : Game} {es : List Event} {id : FloatingId}

/-- The floating effects are numbered in order, and the one with this identity is no shield, if it
is still there. -/
structure Unshielding (g : Game) (id : FloatingId) : Prop where
  ordered : g.ledger.Ordered
  issued : id.val < g.nextFloating
  unshielding : ∀ f ∈ g.floating, f.id = id → f.modification.change ≠ .regenerationShield

/-- Deeds that spare an effect make no shield of it. -/
theorem Unshielding.deeds (h : g.Unshielding id) (hdeeds : Deeds g es g')
    (hspared : id ∉ es.filterMap Event.expired?) : g'.Unshielding id where
  ordered := h.ordered.replay (hdeeds.replay_ledger h.ordered)
  issued := Nat.lt_of_lt_of_le h.issued (hdeeds.nextFloating_le h.ordered)
  unshielding f' hf' hid := by
    have hordered' := h.ordered.replay (hdeeds.replay_ledger h.ordered)
    have hfound := (floatingEffect?_eq_some_iff hordered').mpr ⟨hf', hid⟩
    rw [hdeeds.floatingEffect?_eq h.ordered h.issued hspared] at hfound
    obtain ⟨f, hf, hleft⟩ := Option.bind_eq_some_iff.mp hfound
    obtain ⟨hf, hid⟩ := (floatingEffect?_eq_some_iff h.ordered).mp hf
    rw [(FloatingEffect.id_modification_of_without hleft).2]
    exact h.unshielding f hf hid

end Game

namespace Progress

/-- Between two points of a resolution deeds were done and told of, and one effect has not
expired. -/
def Spares (id : FloatingId) (p q : Progress) : Prop :=
  ∃ es, q.events = p.events ++ es ∧ p.game.Deeds es q.game ∧ id ∉ es.filterMap Event.expired?

theorem Spares.trans {id : FloatingId} {p q r : Progress} (h : Spares id p q)
    (h' : Spares id q r) : Spares id p r := by
  obtain ⟨es, hevents, hdeeds, hspared⟩ := h
  obtain ⟨es', hevents', hdeeds', hspared'⟩ := h'
  refine ⟨es ++ es', by rw [hevents', hevents, List.append_assoc], hdeeds.trans hdeeds', ?_⟩
  rw [List.filterMap_append, List.mem_append, not_or]
  exact ⟨hspared, hspared'⟩

/-- What was told tells which effects have been spared. -/
theorem Told.spares {id : FloatingId} {p q : Progress} {gone : List FloatingId} (h : Told p q)
    (hgone : q.events.filterMap Event.expired? = p.events.filterMap Event.expired? ++ gone)
    (hid : id ∉ gone) : Spares id p q := by
  obtain ⟨es, hevents, hdeeds⟩ := h
  refine ⟨es, hevents, hdeeds, ?_⟩
  rw [hevents, List.filterMap_append] at hgone
  rwa [List.append_cancel_left hgone]

end Progress

namespace Resolve

variable {α β : Type} {P : Game → Prop} {r : Resolve α}

/-- A part of a resolution in which no floating effect expires but shields, if `P` is true of the
game before. -/
structure Sparing (P : Game → Prop) (r : Resolve α) : Prop where
  spares : ∀ {id : FloatingId} {p q : Progress} {a : α}, P p.game → p.game.Unshielding id →
    r p = .ok (a, q) → p.Spares id q

theorem EndsNone.sparing (h : EndsNone r) (haccounted : Accounted P r) : Sparing P r := by
  refine ⟨fun {id p q a} hp _ hr => ?_⟩
  have hsame := (h.expired hr).trans (List.append_nil _).symm
  exact (haccounted.accounts hp hr).spares hsame List.not_mem_nil

protected theorem Sparing.bind {m : Resolve β} {k : β → Resolve α} (hm : Sparing P m)
    (hk : ∀ b, Sparing (fun _ => True) (k b)) : Sparing P (m >>= k) := by
  refine ⟨fun {id p q a} hp hid hr => ?_⟩
  obtain ⟨b, r, hfirst, hrest⟩ := bind_eq_ok hr
  obtain ⟨es, hevents, hdeeds, hstays⟩ := hm.spares hp hid hfirst
  have hlater := (hk b).spares trivial (hid.deeds hdeeds hstays) hrest
  exact Progress.Spares.trans ⟨es, hevents, hdeeds, hstays⟩ hlater

theorem sparing_regenerate (o : ObjectId) : Sparing (fun _ => True) (regenerate o) := by
  refine ⟨fun {id p q a} hp hid hr => ?_⟩
  refine ((accounted_regenerate o).accounts hp hr).spares (expired_regenerate hr) ?_
  intro hspent
  rw [Option.mem_toList, Option.map_eq_some_iff] at hspent
  obtain ⟨e, he, rfl⟩ := hspent
  obtain ⟨hthere, hshield⟩ := List.mem_filter.mp (mem_filter_of_shield? he)
  rw [Bool.and_eq_true, decide_eq_true_iff] at hshield
  exact hid.unshielding e hthere rfl hshield.1

/-- No action makes an effect expire but a shield. -/
theorem Act.sparing {chance : Prop} {holder : Seat → Prop} (h : Act chance holder r) :
    Sparing (fun _ => True) r := by
  have haccounted := h.accounted
  cases h with
  | regenerate o => exact sparing_regenerate o
  | @announce e h =>
    refine EndsNone.sparing (.emit ?_) haccounted
    cases e <;> first | rfl | cases h
  | moveTo o target p controller => exact (endsNone_moveTo o target p controller).sparing haccounted
  | tap o => exact (endsNone_tap o).sparing haccounted
  | untap o => exact (endsNone_untap o).sparing haccounted
  | shuffleLibrary _ s => exact EndsNone.sparing (.bind (.update _) fun _ => .emit rfl) haccounted
  | reorder player order => exact (endsNone_finishReorder player order).sparing haccounted
  | random _ random => exact EndsNone.sparing (.update _) haccounted
  | addCounters o kind n => exact (endsNone_addCounters o kind n).sparing haccounted
  | removeCounters o kind n => exact (endsNone_removeCounters o kind n).sparing haccounted
  | mark o n => exact EndsNone.sparing (.edit _) haccounted
  | changeLife s delta => exact (endsNone_changeLife s delta).sparing haccounted
  | addFloating change affected duration ctx =>
    exact (endsNone_addFloating change affected duration ctx).sparing haccounted
  | createToken t s => exact (endsNone_createToken t s).sparing haccounted
  | pause player prompt question source work =>
    exact (endsNone_pause player prompt question source work).sparing haccounted
  | restack f => exact EndsNone.sparing (.update _) haccounted

/-- What is woven of actions makes no effect expire but shields. -/
theorem Woven.sparing {chance : Prop} (h : Woven chance (fun _ => True) r) :
    Sparing (fun _ => True) r := by
  induction h with
  | act h => exact h.sparing
  | game => exact EndsNone.game.sparing accounted_game
  | pure a => exact EndsNone.sparing (.pure a) (.pure a)
  | throw => exact EndsNone.sparing (.throw _) (.throw _)
  | bind hm hk ihm ihk => exact .bind ihm ihk

end Resolve

namespace Rules

variable {rules : Rules}

/-- Going on with an answer makes no effect expire but shields. -/
theorem sparing_proceed {d : Decision} {work : Suspension} {q : Question} {answer : Answer}
    (hquestion : d.question = q) (hreceives : work.Receives q answer) :
    Sparing (fun g => g.pending = some d ∧ work.Ready answer g)
      (rules.proceed d work answer) := by
  have hresume : Sparing (work.Ready answer) (work.resume rules d answer) := by
    by_cases hscry : ∃ player, work = .scry player
    · obtain ⟨player, rfl⟩ := hscry
      cases hreceives with
      | scry => exact (endsNone_finishScry player _).sparing (accounted_finishScry player _)
    · have hwoven := work.woven_resume rules hquestion hreceives
        (fun player hplayer => hscry ⟨player, hplayer⟩) work.grantsTo_anybody fun _ => trivial
      exact ⟨fun _ hid hr => hwoven.sparing.spares trivial hid hr⟩
  refine ⟨fun {id p q a} hp hid hr => ?_⟩
  obtain ⟨hpending, hready⟩ := hp
  have hgoOn : Sparing (work.Ready answer) (do
      rules.chain rules.chainLimit (← work.resume rules d answer)) :=
    .bind hresume fun outcome => (rules.woven_chain trivial _ outcome).sparing
  have hanswered := (Game.Deed.answer hpending).once
  have hspared : id ∉ [Event.decisionResolved d.id d.player].filterMap Event.expired? :=
    List.not_mem_nil
  have hfirst : p.Spares id ⟨{ p.game with pending := none, stack := p.game.stack.tail },
      p.events ++ [.decisionResolved d.id d.player]⟩ := ⟨_, rfl, hanswered, hspared⟩
  exact hfirst.trans
    (hgoOn.spares (hready.congr fun _ _ => fun h => h) (hid.deeds hanswered hspared) hr)

end Rules

namespace Game

variable {g : Game} {f : FloatingEffect}

theorem floatingEffect?_expire (h : g.ledger.Ordered) (keep : FloatingEffect → Bool)
    (id : FloatingId) :
    (g.expire keep).1.floatingEffect? id = (g.floatingEffect? id).filter keep := by
  have hordered := h.replay (replay_expire h keep)
  ext f
  rw [floatingEffect?_eq_some_iff hordered, Option.filter_eq_some_iff,
    floatingEffect?_eq_some_iff h]
  change f ∈ g.floating.filter keep ∧ f.id = id ↔ _
  rw [List.mem_filter]
  tauto

/-- What a result has made of a floating effect: what its events leave of it, if that works. -/
def Leaves (f : FloatingEffect) (r : Result) : Prop :=
  r.game.floatingEffect? f.id = (f.without r.events).filter r.game.isActive

theorem leaves_failed (hordered : g.ledger.Ordered) (hf : f ∈ g.floating)
    (hactive : g.isActive f = true) (failure : Failure) : Leaves f (.failed g failure) := by
  have hfound := (floatingEffect?_eq_some_iff hordered).mpr ⟨hf, rfl⟩
  change g.floatingEffect? f.id = (some f).filter g.isActive
  rw [hfound, Option.filter_some, if_pos hactive]

/-- A resolution in which no effect expires but shields leaves of any other effect what the events
leave of it, if that works. -/
theorem leaves_settled {P : Game → Prop} {r : Resolve Outcome} (hsparing : Sparing P r) (hp : P g)
    (hid : g.Unshielding f.id) (hf : f ∈ g.floating) (hactive : g.isActive f = true) :
    Leaves f ((settled r).resultIn g) := by
  have hfound := (floatingEffect?_eq_some_iff hid.ordered).mpr ⟨hf, rfl⟩
  have hresult : (settled r).resultIn g = .ofRun g (settled r { game := g }) := rfl
  rw [hresult, settled_apply]
  cases hrun : r { game := g } with
  | error failure =>
    exact leaves_failed hid.ordered hf hactive failure
  | ok result =>
    obtain ⟨outcome, q⟩ := result
    obtain ⟨es, hevents, hdeeds, hspared⟩ := hsparing.spares hp hid hrun
    have hleft := hdeeds.floatingEffect?_eq hid.ordered hid.issued hspared
    rw [hfound, Option.bind_some] at hleft
    have hquiet : (q.game.sweep.2).filterMap Event.departed? = [] := by
      refine List.filterMap_eq_nil_iff.mpr fun e he => ?_
      obtain ⟨f, -, rfl⟩ := List.mem_map.mp he
      rfl
    have hevents' : f.without (q.events ++ q.game.sweep.2) = f.without es := by
      rw [hevents, List.nil_append, FloatingEffect.without_append,
        Option.bind_congr fun f _ => f.without_of_staying hquiet, Option.bind_fun_some]
    have hswept : q.game.sweep.1.floatingEffect? f.id =
        (f.without (q.events ++ q.game.sweep.2)).filter q.game.isActive := by
      have hordered := hid.ordered.replay (hdeeds.replay_ledger hid.ordered)
      rw [hevents', sweep, floatingEffect?_expire hordered, hleft]
    cases outcome with
    | done => exact hswept
    | paused decision => exact hswept

theorem Reachable.unshielding (h : g.Reachable) (hf : f ∈ g.floating)
    (hshield : f.modification.change ≠ .regenerationShield) : g.Unshielding f.id where
  ordered := ordered_ledger h.sound.orderly
  issued := h.sound.orderly.issued f hf
  unshielding f' hf' hid := by
    have hordered := ordered_ledger h.sound.orderly
    have hsame := ((floatingEffect?_eq_some_iff hordered).mpr ⟨hf', hid⟩).symm.trans
      ((floatingEffect?_eq_some_iff hordered).mpr ⟨hf, rfl⟩)
    rw [Option.some.inj hsame]
    exact hshield

/-- Whatever is executed and whatever is answered, it leaves of every floating effect but shields
what the events leave of it, if that works. -/
theorem Reachable.leaves (h : g.Reachable) (hf : f ∈ g.floating)
    (hshield : f.modification.change ≠ .regenerationShield) (rules : Rules) :
    (∀ e ctx, Leaves f (rules.execute g e ctx)) ∧ ∀ r, Leaves f (rules.resume g r) := by
  have hid := h.unshielding hf hshield
  have hactive := h.swept f hf
  have hfailed := leaves_failed hid.ordered hf hactive
  constructor
  · intro e ctx
    unfold Rules.execute
    split
    · exact hfailed _
    · have hwoven : Woven True (fun _ => True) (e.resolve rules ctx) :=
        e.woven_resolve ctx trivial fun _ => trivial
      exact leaves_settled hwoven.sparing trivial hid hf hactive
  · intro r
    obtain ⟨failure, hturnedDown⟩ | ⟨d, work, -, hpending, -, hreceives, hready, hresumed⟩ :=
      rules.resume_eq_settled h r
    · rw [hturnedDown]
      exact hfailed failure
    · rw [hresumed]
      exact leaves_settled (rules.sparing_proceed rfl hreceives) ⟨hpending, hready⟩ hid hf hactive

/-- What becomes of a floating effect that lasts while its source is on the battlefield: it is there
if the source is there at the end and an object that it affects has never left, and it affects those
that have never left. -/
structure Binds (f : FloatingEffect) (src : ObjectId) (r : Result) : Prop where
  remains_iff : (∃ f' ∈ r.game.floating, f'.id = f.id) ↔
    r.game.onBattlefield src = true ∧
      ∃ o, f.affected.contains o = true ∧ ∀ e ∈ r.events, e.departed? ≠ some o
  same : ∀ f' ∈ r.game.floating, f'.id = f.id → f' = { f with affected := f'.affected } ∧
    ∀ o, f'.affected.contains o = true ↔
      f.affected.contains o = true ∧ ∀ e ∈ r.events, e.departed? ≠ some o

variable {src : ObjectId}

/-- An effect with a source works if the source is on the battlefield and something that it affects
is. -/
theorem isActive_of_source (hduration : f.duration = .whileSourceOnBattlefield)
    (hsource : f.source = some src) {o : ObjectId} (ho : f.affected.contains o = true)
    (hthere : g.onBattlefield o = true) : g.isActive f = g.onBattlefield src := by
  have hany : f.affected.toList.any g.onBattlefield = true :=
    List.any_eq_true.mpr ⟨o, SortedSet.mem_toList_iff.mpr ho, hthere⟩
  unfold isActive
  rw [hany, hduration, hsource]
  exact Bool.true_and _

theorem Leaves.binds {r : Result} (hleaves : Leaves f r) (hreachable : g.Reachable)
    (hdeeds : g.Deeds r.events r.game) (hf : f ∈ g.floating)
    (hduration : f.duration = .whileSourceOnBattlefield) (hsource : f.source = some src) :
    Binds f src r := by
  have horderly := hreachable.sound.orderly
  have hordered := (ordered_ledger horderly).replay (hdeeds.replay_ledger (ordered_ledger horderly))
  have hfound {f' : FloatingEffect} : r.game.floatingEffect? f.id = some f' ↔
      f' ∈ r.game.floating ∧ f'.id = f.id := floatingEffect?_eq_some_iff hordered
  unfold Leaves at hleaves
  obtain ⟨hnone, hgone⟩ | ⟨left, hleft, hsome, hstayed⟩ :=
    f.without_cases (horderly.affecting f hf) r.events
  · rw [hnone, Option.filter_none] at hleaves
    constructor
    · constructor
      · rintro ⟨f', hf'⟩
        rw [hleaves] at hfound
        cases hfound.mpr hf'
      · rintro ⟨-, o, ho, hstays⟩
        obtain ⟨e, he, hleaves⟩ := hgone o ho
        exact absurd hleaves (hstays e he)
    · intro f' hf' hid
      rw [hleaves] at hfound
      cases hfound.mpr ⟨hf', hid⟩
  · obtain ⟨o, ho⟩ := SortedSet.exists_contains hsome
    obtain ⟨haffected, hstays⟩ := (hstayed o).mp ho
    have hthere := hdeeds.stays (horderly.present f hf o haffected) hstays
    have hactive : r.game.isActive { f with affected := left } = r.game.onBattlefield src :=
      isActive_of_source hduration hsource ho hthere
    rw [hleft, Option.filter_some, hactive] at hleaves
    constructor
    · constructor
      · rintro ⟨f', hf'⟩
        rw [← hfound, hleaves] at hf'
        split at hf'
        · next hsource => exact ⟨hsource, o, haffected, hstays⟩
        · cases hf'
      · rintro ⟨hsource, -⟩
        rw [if_pos hsource] at hleaves
        exact ⟨_, hfound.mp hleaves⟩
    · intro f' hf' hid
      have hf' := hfound.mpr ⟨hf', hid⟩
      rw [hleaves] at hf'
      split at hf'
      · cases hf'
        exact ⟨rfl, hstayed⟩
      · cases hf'

/-- Whatever is executed and whatever is answered, an effect that lasts while its source is on the
battlefield goes by where the source is in the end: it stays with a source that has left and has
returned. -/
theorem Reachable.sourceBound (h : g.Reachable) (hf : f ∈ g.floating)
    (hduration : f.duration = .whileSourceOnBattlefield) (hsource : f.source = some src)
    (rules : Rules) :
    (∀ e ctx, Binds f src (rules.execute g e ctx)) ∧ ∀ r, Binds f src (rules.resume g r) := by
  have hshield : f.modification.change ≠ .regenerationShield := by
    intro hshield
    have hends := h.sound.orderly.shielding f hf hshield
    rw [hduration] at hends
    cases hends
  obtain ⟨hexecute, hresume⟩ := h.leaves hf hshield rules
  exact ⟨fun e ctx => (hexecute e ctx).binds h (rules.deeds_execute g e ctx) hf hduration hsource,
    fun r => (hresume r).binds h (rules.deeds_resume h r) hf hduration hsource⟩

/-- A bear with a bonus for as long as a goblin is on the battlefield. -/
def boundToGoblin (g₀ : Game) : Game :=
  let goblin := (CardDefinition.creature ⟨7⟩ "Goblin" 1 1).withSubtype ⟨"Goblin"⟩
  let bear := CardDefinition.creature ⟨8⟩ "Bear" 2 2
  let bonus := ContinuousEffect.modifyStats (.target 0) (.fixed 1) (.fixed 1)
    .whileSourceOnBattlefield
  (Move.execute {} (.continuous bonus) { source := some ⟨2⟩, targets := [⟨3⟩] }).apply
    ((Move.spawn bear ⟨0⟩ .battlefield).apply ((Move.spawn goblin ⟨0⟩ .battlefield).apply g₀))

theorem reachable_boundToGoblin {g₀ : Game} (h : start {} = .ok g₀) :
    (boundToGoblin g₀).Reachable := by
  have hspawned {g : Game} (card : CardDefinition) (hs : 0 < g.seats) (h : g.Reachable) :
      ((Move.spawn card ⟨0⟩ .battlefield).apply g).Reachable := .move _ h hs
  have hstarted : g₀.Reachable := .start h
  cases h
  unfold boundToGoblin
  refine .move _ ?_ trivial
  exact hspawned _ Nat.zero_lt_two (hspawned _ Nat.zero_lt_two hstarted)

/-- The bonus stays when the goblin is destroyed and returned at once. -/
theorem sourceBound_of_returned : ∃ g₀ g r f, start {} = .ok g₀ ∧ g = boundToGoblin g₀ ∧
    r = Rules.execute {} g (.composite [.destroyTarget, .eachPlayerChooses .you .creatureType])
      { targets := [⟨2⟩] } ∧
    f ∈ g.floating ∧ f.duration = .whileSourceOnBattlefield ∧ f.source = some ⟨2⟩ ∧
    r.events.filterMap Event.departed? = [⟨2⟩] ∧ ∃ f' ∈ r.game.floating, f'.id = f.id := by
  have hthere {g : Game} {f : FloatingEffect} (hlast : g.floating.getLast? = some f) :
      f ∈ g.floating := List.mem_of_getLast? hlast
  refine ⟨_, _, _, _, rfl, rfl, rfl, hthere rfl, rfl, rfl, by decide +kernel, ?_⟩
  have hbinds := (Reachable.sourceBound (reachable_boundToGoblin rfl) (hthere rfl) rfl rfl {}).1
  exact (hbinds _ _).remains_iff.mpr
    ⟨by decide +kernel, ⟨3⟩, by decide +kernel, by decide +kernel⟩

/-- An effect does not end whenever its source leaves. -/
theorem not_sourceBound_of_departed : ¬ ∀ (g : Game) (rules : Rules) (e : Effect) (ctx : Context),
    g.Reachable → ∀ src ∈ (rules.execute g e ctx).events.filterMap Event.departed?,
      ∀ f ∈ g.floating, f.duration = .whileSourceOnBattlefield → f.source = some src →
        ∀ f' ∈ (rules.execute g e ctx).game.floating, f'.id ≠ f.id := by
  intro h
  have hreturned := h _ {} (.composite [.destroyTarget, .eachPlayerChooses .you .creatureType])
    { targets := [⟨2⟩] } (reachable_boundToGoblin rfl) ⟨2⟩
  revert hreturned
  decide +kernel

end Game

end CardGame
