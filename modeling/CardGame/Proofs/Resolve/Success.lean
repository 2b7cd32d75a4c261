import CardGame.Proofs.Game.Furnished
import CardGame.Proofs.Resolve.Direct
import CardGame.Proofs.Resolve.Stakes

/-!
Parts of a resolution that cannot fail, and parts that have to. `Resolve.Succeeds` says of a part
that at a furnished table of which one thing is true it comes to an end, and that another is true
then; `Resolve.Fails` says that it fails there. What an action needs is that its object is in a
zone, so an action leaves true what does not depend on where its object is (`Resolve.Steady`), and a
loop over different objects never gets in its own way.
-/

namespace CardGame

namespace Resolve

variable {α β : Type} {P P' : Game → Prop} {Q Q' : α → Game → Prop}

/-- A part that cannot fail where `P` is true, after which `Q` is true. -/
structure Succeeds (P : Game → Prop) (r : Resolve α) (Q : α → Game → Prop) : Prop where
  runs : ∀ {p : Progress}, p.game.Furnished → P p.game →
    ∃ a q, r p = .ok (a, q) ∧ q.game.Furnished ∧ Q a q.game

namespace Succeeds

theorem mono {r : Resolve α} (h : Succeeds P r Q) (hP : ∀ {g : Game}, g.Furnished → P' g → P g)
    (hQ : ∀ {a : α} {g : Game}, Q a g → Q' a g) : Succeeds P' r Q' := by
  refine ⟨fun {p} hfurnished hp => ?_⟩
  obtain ⟨a, q, hrun, hq, hQa⟩ := h.runs hfurnished (hP hfurnished hp)
  exact ⟨a, q, hrun, hq, hQ hQa⟩

theorem of_pre {r : Resolve α} (h : Succeeds P r Q)
    (hP : ∀ {g : Game}, g.Furnished → P' g → P g) : Succeeds P' r Q := h.mono hP id

/-- What two looks at the same part say is true together. -/
theorem and {r : Resolve α} (h : Succeeds P r Q) (h' : Succeeds P r Q') :
    Succeeds P r fun a g => Q a g ∧ Q' a g := by
  refine ⟨fun {p} hfurnished hp => ?_⟩
  obtain ⟨a, q, hrun, hq, hQ⟩ := h.runs hfurnished hp
  obtain ⟨a', q', hrun', -, hQ'⟩ := h'.runs hfurnished hp
  cases hrun.symm.trans hrun'
  exact ⟨a, q, hrun, hq, hQ, hQ'⟩

protected theorem pure (a : α) (hQ : ∀ {g : Game}, P g → Q a g) : Succeeds P (pure a) Q :=
  ⟨fun {p} hfurnished hp => ⟨a, p, rfl, hfurnished, hQ hp⟩⟩

protected theorem bind {R : β → Game → Prop} {m : Resolve β} {k : β → Resolve α}
    (hm : Succeeds P m R) (hk : ∀ b, Succeeds (R b) (k b) Q) : Succeeds P (m >>= k) Q := by
  refine ⟨fun {p} hfurnished hp => ?_⟩
  obtain ⟨b, s, hfirst, hs, hR⟩ := hm.runs hfurnished hp
  obtain ⟨a, q, hrest, hq, hQ⟩ := (hk b).runs hs hR
  exact ⟨a, q, (bind_of_ok hfirst).trans hrest, hq, hQ⟩

/-- What is true of the game may be taken for granted. -/
theorem assuming {r : Resolve α}
    (h : ∀ g, g.Furnished → P g → Succeeds (fun h => h = g) r Q) : Succeeds P r Q :=
  ⟨fun {p} hfurnished hp => (h p.game hfurnished hp).runs hfurnished rfl⟩

/-- A part that goes by what it reads of the game. -/
theorem look {k : Game → Resolve α}
    (hk : ∀ g, g.Furnished → P g → Succeeds (fun h => h = g) (k g) Q) :
    Succeeds P (game >>= k) Q :=
  ⟨fun {p} hfurnished hp => (hk p.game hfurnished hp).runs hfurnished rfl⟩

/-- A part that goes by what it sees of the game after continuous effects. -/
theorem view {rules : Rules} {k : View → Resolve α}
    (hk : ∀ g, g.Furnished → P g → Succeeds (fun h => h = g) (k (rules.view g)) Q) :
    Succeeds P (Resolve.view rules >>= k) Q :=
  ⟨fun {p} hfurnished hp => (hk p.game hfurnished hp).runs hfurnished rfl⟩

theorem ite {c : Prop} [Decidable c] {r r' : Resolve α} (hyes : c → Succeeds P r Q)
    (hno : ¬c → Succeeds P r' Q) : Succeeds P (if c then r else r') Q := by
  split
  · next h => exact hyes h
  · next h => exact hno h

/-- A part that would be turned down if a condition held. -/
theorem guard {c : Prop} [Decidable c] {failure : Failure} {r : Resolve α} (hfine : ¬c)
    (hr : Succeeds P r Q) :
    Succeeds P (if c then (throw failure : Resolve PUnit) >>= fun _ => r else r) Q := by
  rw [if_neg hfine]
  exact hr

protected theorem edit {e : Edit Game α}
    (he : ∀ g, g.Furnished → P g →
      ∃ a g', e g = .ok a g' ∧ Game.Alter (fun _ => True) g g' ∧ Q a g') :
    Succeeds P (edit e) Q := by
  refine ⟨fun {p} hfurnished hp => ?_⟩
  obtain ⟨a, g', hedit, halter, hQ⟩ := he p.game hfurnished hp
  refine ⟨a, { p with game := g' }, ?_, hfurnished.alter halter, hQ⟩
  rw [edit, hedit]

protected theorem update {f : Game → Game} {Q : Unit → Game → Prop}
    (hf : ∀ g, g.Furnished → P g → Game.Alter (fun _ => True) g (f g) ∧ Q () (f g)) :
    Succeeds P (update f) Q := by
  refine ⟨fun {p} hfurnished hp => ?_⟩
  obtain ⟨halter, hQ⟩ := hf p.game hfurnished hp
  exact ⟨(), { p with game := f p.game }, rfl, hfurnished.alter halter, hQ⟩

protected theorem emit (e : Event) : Succeeds P (emit e) fun _ => P :=
  ⟨fun {p} hfurnished hp => ⟨(), { p with events := p.events ++ [e] }, rfl, hfurnished, hp⟩⟩

protected theorem pause (player : Seat) (prompt : String) (question : Question)
    (source : Option ObjectId) (work : Suspension) :
    Succeeds P (pause player prompt question source work) fun _ _ => True :=
  ⟨fun hfurnished _ => ⟨_, _, rfl, hfurnished.suspend _ _ _, trivial⟩⟩

protected theorem insertFrame (depth : Nat) (f : Frame) :
    Succeeds P (update (·.insertFrame depth f)) fun _ _ => True :=
  ⟨fun {p} hfurnished _ => ⟨(), { p with game := p.game.insertFrame depth f }, rfl,
    hfurnished.suspend _ p.game.pending p.game.nextDecision, trivial⟩⟩

/-- What is true whenever a part has come to an end may be relied on after it. -/
theorem of_run {r : Resolve α} (h : Succeeds P r Q)
    (hrun : ∀ {p q : Progress} {a : α}, p.game.Furnished → P p.game → r p = .ok (a, q) →
      Q' a q.game) : Succeeds P r Q' := by
  refine ⟨fun hfurnished hp => ?_⟩
  obtain ⟨a, q, hr, hq, -⟩ := h.runs hfurnished hp
  exact ⟨a, q, hr, hq, hrun hfurnished hp hr⟩

end Succeeds

/-- What every round of a loop keeps true, the loop keeps true. -/
theorem Succeeds.forM {xs : List β} {body : β → Resolve PUnit}
    (hbody : ∀ x ∈ xs, Succeeds P (body x) fun _ => P) :
    Succeeds P (xs.forM body) fun _ => P := by
  induction xs with
  | nil => exact .pure _ id
  | cons x rest ih =>
    change Succeeds P (body x >>= fun _ => rest.forM body) _
    exact .bind (hbody x List.mem_cons_self) fun _ =>
      ih fun y hy => hbody y (List.mem_cons_of_mem _ hy)

/-- A part that fails at every furnished table where `P` is true. -/
structure Fails (P : Game → Prop) (r : Resolve α) : Prop where
  fails : ∀ {p : Progress}, p.game.Furnished → P p.game → ∃ failure, r p = .error failure

namespace Fails

theorem of_pre {r : Resolve α} (h : Fails P r) (hP : ∀ {g : Game}, g.Furnished → P' g → P g) :
    Fails P' r :=
  ⟨fun hfurnished hp => h.fails hfurnished (hP hfurnished hp)⟩

protected theorem throw (failure : Failure) : Fails P (throw failure : Resolve α) :=
  ⟨fun _ _ => ⟨failure, rfl⟩⟩

theorem first {m : Resolve β} (h : Fails P m) (k : β → Resolve α) : Fails P (m >>= k) := by
  refine ⟨fun {p} hfurnished hp => ?_⟩
  obtain ⟨failure, hrun⟩ := h.fails hfurnished hp
  exact ⟨failure, bind_of_error hrun⟩

/-- What succeeds leads on to the part that fails. -/
theorem after {R : β → Game → Prop} {m : Resolve β} {k : β → Resolve α} (hm : Succeeds P m R)
    (hk : ∀ b, Fails (R b) (k b)) : Fails P (m >>= k) := by
  refine ⟨fun {p} hfurnished hp => ?_⟩
  obtain ⟨b, q, hrun, hq, hR⟩ := hm.runs hfurnished hp
  obtain ⟨failure, hrest⟩ := (hk b).fails hq hR
  exact ⟨failure, (bind_of_ok hrun).trans hrest⟩

theorem look {k : Game → Resolve α}
    (hk : ∀ g, g.Furnished → P g → Fails (fun h => h = g) (k g)) : Fails P (game >>= k) :=
  ⟨fun {p} hfurnished hp => (hk p.game hfurnished hp).fails hfurnished rfl⟩

theorem view {rules : Rules} {k : View → Resolve α}
    (hk : ∀ g, g.Furnished → P g → Fails (fun h => h = g) (k (rules.view g))) :
    Fails P (Resolve.view rules >>= k) :=
  ⟨fun {p} hfurnished hp => (hk p.game hfurnished hp).fails hfurnished rfl⟩

/-- A loop in which some round fails and the others do not get in its way fails. -/
theorem forM {xs : List β} {body : β → Resolve PUnit}
    (hbody : ∀ x ∈ xs, Succeeds P (body x) (fun _ => P) ∨ Fails P (body x))
    (hfails : ∃ x ∈ xs, Fails P (body x)) : Fails P (xs.forM body) := by
  induction xs with
  | nil =>
    obtain ⟨x, hx, -⟩ := hfails
    cases hx
  | cons x rest ih =>
    change Fails P (body x >>= fun _ => rest.forM body)
    rcases hbody x List.mem_cons_self with hround | hround
    · obtain ⟨y, hy, hfails⟩ := hfails
      rcases List.mem_cons.mp hy with rfl | hlater
      · exact hfails.first _
      · refine .after hround fun _ => ih (fun z hz => ?_) ⟨y, hlater, hfails⟩
        exact hbody z (List.mem_cons_of_mem _ hz)
    · exact hround.first _

end Fails

/-- Whether something depends on no more than who plays and where objects are, and not on where
some objects are. -/
def Steady (os : List ObjectId) (P : Game → Prop) : Prop :=
  ∀ g g' : Game, g'.seats = g.seats → (∀ o, o ∉ os → g'.zone? o = g.zone? o) → P g → P g'

theorem Steady.subset {os os' : List ObjectId} (h : Steady os P) (hsub : os' ⊆ os) :
    Steady os' P :=
  fun g g' hseats hzone hp => h g g' hseats (fun o ho => hzone o fun ho' => ho (hsub ho')) hp

theorem steady_true (os : List ObjectId) : Steady os fun _ => True :=
  fun _ _ _ _ _ => trivial

theorem steady_liesAt {os : List ObjectId} {o : ObjectId} (place : Place) (ho : o ∉ os) :
    Steady os fun g => g.LiesAt o place := by
  intro g g' _ hzone
  rintro ⟨z, hz, hplace⟩
  exact ⟨z, (hzone o ho).trans hz, hplace⟩

theorem steady_all {os : List ObjectId} {xs : List β} {S : β → Game → Prop}
    (h : ∀ x ∈ xs, Steady os (S x)) : Steady os fun g => ∀ x ∈ xs, S x g :=
  fun g g' hseats hzone hall x hx => h x hx g g' hseats hzone (hall x hx)

theorem Steady.and {os : List ObjectId} (h : Steady os P) (h' : Steady os P') :
    Steady os fun g => P g ∧ P' g :=
  fun g g' hseats hzone hp => ⟨h g g' hseats hzone hp.1, h' g g' hseats hzone hp.2⟩

/-- A loop succeeds if every round needs something only of where its own objects are, and no two
rounds share an object. -/
theorem Succeeds.forM_apart {xs : List β} {body : β → Resolve PUnit} {objects : β → List ObjectId}
    {S : β → Game → Prop} (hapart : xs.Pairwise fun x y => ∀ o ∈ objects y, o ∉ objects x)
    (hS : ∀ os, ∀ y ∈ xs, (∀ o ∈ objects y, o ∉ os) → Steady os (S y))
    (hbody : ∀ x ∈ xs, ∀ P : Game → Prop, Steady (objects x) P →
      Succeeds (fun g => S x g ∧ P g) (body x) fun _ => P)
    (hP : ∀ x ∈ xs, Steady (objects x) P) :
    Succeeds (fun g => (∀ x ∈ xs, S x g) ∧ P g) (xs.forM body) fun _ => P := by
  induction xs with
  | nil => exact .pure _ And.right
  | cons x rest ih =>
    obtain ⟨hfirst, hrest⟩ := List.pairwise_cons.mp hapart
    have hlater : Steady (objects x) fun g => ∀ y ∈ rest, S y g :=
      steady_all fun y hy => hS _ y (List.mem_cons_of_mem _ hy) (hfirst y hy)
    have hround := hbody x List.mem_cons_self _ (hlater.and (hP x List.mem_cons_self))
    change Succeeds _ (body x >>= fun _ => rest.forM body) _
    refine .bind (hround.of_pre ?_) fun _ => ?_
    · rintro g - ⟨hall, hp⟩
      exact ⟨hall x List.mem_cons_self, fun y hy => hall y (List.mem_cons_of_mem _ hy), hp⟩
    · exact ih hrest (fun os y hy => hS os y (List.mem_cons_of_mem _ hy))
        (fun y hy => hbody y (List.mem_cons_of_mem _ hy))
        (fun y hy => hP y (List.mem_cons_of_mem _ hy))

/-- A loop over different objects at a place succeeds if each can be dealt with at the place. -/
theorem Succeeds.forM_once {os : List ObjectId} {body : ObjectId → Resolve PUnit} (place : Place)
    (honce : os.Nodup)
    (hbody : ∀ o ∈ os, ∀ P : Game → Prop, Steady [o] P →
      Succeeds (fun g => g.LiesAt o place ∧ P g) (body o) fun _ => P)
    (hP : Steady os P) :
    Succeeds (fun g => (∀ o ∈ os, g.LiesAt o place) ∧ P g) (os.forM body) fun _ => P := by
  have hapart : os.Pairwise fun o o' => ∀ o'' ∈ [o'], o'' ∉ [o] := by
    refine honce.imp fun {o o'} hne o'' ho'' => ?_
    rw [List.mem_singleton.mp ho'', List.mem_singleton]
    exact Ne.symm hne
  refine .forM_apart hapart ?_ hbody fun o ho => hP.subset ?_
  · intro os' o _ hout
    exact steady_liesAt place (hout o (List.mem_singleton_self o))
  · exact List.cons_subset.mpr ⟨ho, List.nil_subset _⟩

variable {o : ObjectId}

/-- The owner of an object is the player in whose zone it is. -/
theorem succeeds_owner :
    Succeeds (fun g => (∃ z, g.zone? o = some z) ∧ P g) (owner o)
      fun s g => (∃ kind, g.zone? o = some ⟨s, kind⟩) ∧ P g := by
  refine .look ?_
  rintro g hfurnished ⟨⟨⟨s, kind⟩, hzone⟩, hp⟩
  rw [hfurnished.sound.housed.owner?_of_zone? hzone]
  refine .pure _ ?_
  rintro h rfl
  exact ⟨⟨kind, hzone⟩, hp⟩

theorem succeeds_requireIn (kind : ZoneKind) :
    Succeeds (fun g => g.LiesAt o (.anyOf kind) ∧ P g) (requireIn o kind) fun _ => P := by
  have hrequire : Succeeds (fun g => g.LiesAt o (.anyOf kind) ∧ P g) (require o)
      fun _ g => g.LiesAt o (.anyOf kind) ∧ P g := by
    refine .look fun g hfurnished hp => ?_
    obtain ⟨z, hzone, -⟩ := hp.1
    rw [if_pos (hfurnished.sound.housed.contains_of_zone? hzone)]
    refine .pure _ ?_
    rintro h rfl
    exact hp
  refine .bind hrequire fun _ => .look fun g _ hp => ?_
  obtain ⟨⟨s, kind'⟩, hzone, rfl⟩ := hp.1
  rw [if_pos (Zones.isIn_iff.mpr ⟨s, hzone⟩)]
  refine .pure _ ?_
  rintro h rfl
  exact hp.2

theorem succeeds_moveTo (s : Seat) (kind : ZoneKind) (p : Position) (controller : Option Seat)
    (hsteady : Steady [o] P) :
    Succeeds (fun g => (∃ kind', g.zone? o = some ⟨s, kind'⟩) ∧ P g)
      (moveTo o ⟨s, kind⟩ p controller)
      fun _ g => (kind = .battlefield → g.LiesAt o (.anyOf .battlefield)) ∧ P g := by
  have hmove : Succeeds (fun g => (∃ kind', g.zone? o = some ⟨s, kind'⟩) ∧ P g)
      (edit (Game.move o ⟨s, kind⟩ p controller))
      fun _ g => (kind = .battlefield → g.LiesAt o (.anyOf .battlefield)) ∧ P g := by
    refine .edit ?_
    rintro g hfurnished ⟨⟨kind', hzone⟩, hp⟩
    obtain ⟨g', hmoved⟩ := hfurnished.exists_move hzone kind p controller
    change Game.move o ⟨s, kind⟩ p controller g = .ok ⟨s, kind'⟩ g' at hmoved
    have hseats := (hfurnished.sound.housed.sameTable_move hmoved).seats
    have howner : (⟨s, kind'⟩ : Zone).owner = (⟨s, kind⟩ : Zone).owner := rfl
    refine ⟨_, g', hmoved, .move howner hmoved, fun hkind => ?_, ?_⟩
    · exact ⟨_, Game.zone?_move_self hmoved hkind, hkind⟩
    · refine hsteady g g' hseats (fun o' ho' => ?_) hp
      exact Game.zone?_move_of_ne hmoved fun heq => ho' (List.mem_singleton.mpr heq.symm)
  refine .bind hmove fun origin => .bind (.emit _) fun _ => .look fun g _ hp => ?_
  refine .ite ?_ ?_
  · intro hceased
    refine .bind (.emit _) fun _ => .pure _ ?_
    rintro h rfl
    exact hp
  · intro hexists
    refine .pure _ ?_
    rintro h rfl
    exact hp

theorem succeeds_moveToOwners (kind : ZoneKind) (hsteady : Steady [o] P) :
    Succeeds (fun g => (∃ z, g.zone? o = some z) ∧ P g) (moveToOwners o kind) fun _ => P :=
  .bind succeeds_owner fun s =>
    (succeeds_moveTo s kind .top none hsteady).mono (fun _ => id) And.right

/-- Whether something does not depend on what is recorded of objects. -/
def Unmarked (P : Game → Prop) : Prop := ∀ g objects, P g → P { g with objects }

theorem Steady.unmarked (h : Steady [] P) : Unmarked P :=
  fun g _ hp => h g _ rfl (fun _ _ => rfl) hp

/-- A permanent can be marked with what its facets call for. -/
theorem succeeds_setFacet {f : Facet} (hunmarked : Unmarked P) :
    Succeeds (fun g => g.LiesAt o (.anyOf .battlefield) ∧ Game.Records (g.facets o) f ∧ P g)
      (edit (Game.setFacet o f)) fun _ => P := by
  refine .edit ?_
  rintro g hfurnished ⟨hlies, hrecords, hp⟩
  obtain ⟨z, hzone, -⟩ := id hlies
  have hcontains : g.contains o = true := hfurnished.sound.housed.contains_of_zone? hzone
  have hthere : g.onBattlefield o = true := Game.liesAt_battlefield_iff.mp hlies
  have hset : Game.setFacet o f g =
      .ok () { g with objects := g.objects.modify o (·.insert f) } := if_pos hcontains
  exact ⟨(), _, hset, .mark hrecords hthere hset, hunmarked g _ hp⟩

/-- A permanent is still there past the requirement. -/
theorem succeeds_requirePermanent :
    Succeeds (fun g => g.LiesAt o (.anyOf .battlefield) ∧ P g) (requireIn o .battlefield)
      fun _ g => g.LiesAt o (.anyOf .battlefield) ∧ P g := by
  refine (succeeds_requireIn .battlefield).of_pre ?_
  rintro g - ⟨hlies, hp⟩
  exact ⟨hlies, hlies, hp⟩

theorem succeeds_tap (hunmarked : Unmarked P) :
    Succeeds (fun g => g.LiesAt o (.anyOf .battlefield) ∧ P g) (tap o) fun _ => P := by
  refine .bind succeeds_requirePermanent fun _ => .look fun g _ hp => .ite ?_ ?_
  · intro huntapped
    refine .bind ((succeeds_setFacet hunmarked).of_pre ?_) fun _ => .emit _
    rintro h - rfl
    exact ⟨hp.1, .tapped, hp.2⟩
  · intro htapped
    refine .pure _ ?_
    rintro h rfl
    exact hp.2

theorem succeeds_putOntoBattlefield (controller : Option Seat) (tapped : Bool)
    (hsteady : Steady [o] P) :
    Succeeds (fun g => (∃ z, g.zone? o = some z) ∧ P g) (putOntoBattlefield o controller tapped)
      fun _ => P := by
  refine .bind succeeds_owner fun s => ?_
  refine .bind (succeeds_moveTo s .battlefield .top controller hsteady) fun _ => .ite ?_ ?_
  · intro htapped
    refine (succeeds_tap (hsteady.subset (List.nil_subset _)).unmarked).of_pre ?_
    rintro h - ⟨hthere, hp⟩
    exact ⟨hthere rfl, hp⟩
  · intro huntapped
    exact .pure _ And.right

theorem succeeds_die (c : Characteristics) (hsteady : Steady [o] P) :
    Succeeds (fun g => (∃ z, g.zone? o = some z) ∧ P g) (die o c) fun _ => P :=
  .bind (succeeds_moveToOwners _ hsteady) fun _ => .pure _ id

theorem succeeds_discard (s : Seat) {cards : List ObjectId} (honce : cards.Nodup)
    (hsteady : Steady cards P) :
    Succeeds (fun g => (∀ o ∈ cards, g.LiesAt o (.within (.hand s))) ∧ P g) (discard s cards)
      fun _ => P := by
  refine .forM_once _ honce (fun o _ P hsteady => .look ?_) hsteady
  rintro g - ⟨hlies, hp⟩
  have hzone := Game.liesAt_within_iff.mp hlies
  refine .guard (fun hnot => hnot hzone) ?_
  refine .bind ((succeeds_moveToOwners _ hsteady).of_pre ?_) fun _ => .emit _
  rintro h - rfl
  exact ⟨⟨_, hzone⟩, hp⟩

/-- A permanent can be sacrificed by the player who controls it as it is judged. -/
theorem succeeds_sacrifice {s : Seat} {c : Characteristics} (hcontroller : c.controller = some s)
    (hsteady : Steady [o] P) :
    Succeeds (fun g => g.LiesAt o (.anyOf .battlefield) ∧ P g) (sacrifice s o c) fun _ => P := by
  have hrequire : Succeeds (fun g => g.LiesAt o (.anyOf .battlefield) ∧ P g)
      (requireIn o .battlefield) fun _ g => (∃ z, g.zone? o = some z) ∧ P g := by
    refine (succeeds_requireIn .battlefield).of_pre ?_
    rintro g - ⟨⟨z, hzone, hplace⟩, hp⟩
    exact ⟨⟨z, hzone, hplace⟩, ⟨z, hzone⟩, hp⟩
  refine .bind hrequire fun _ => .guard (fun hnot => hnot hcontroller) ?_
  exact .bind (.emit _) fun _ => succeeds_die c hsteady

theorem succeeds_addCounters (kind : CounterKind) (n : Nat) (hsteady : Steady [] P) :
    Succeeds (fun g => g.LiesAt o (.anyOf .battlefield) ∧ P g) (addCounters o kind n)
      fun _ => P := by
  refine .bind succeeds_requirePermanent fun _ => .ite ?_ ?_
  · intro hsome
    refine .look fun g _ hp => ?_
    refine .bind ((succeeds_setFacet hsteady.unmarked).of_pre ?_) fun _ => .emit _
    rintro h - rfl
    exact ⟨hp.1, .added kind hsome, hp.2⟩
  · intro hnone
    exact .pure _ And.right

theorem succeeds_removeCounters (kind : CounterKind) (n : Nat) (hsteady : Steady [] P) :
    Succeeds (fun g => g.LiesAt o (.anyOf .battlefield) ∧ P g) (removeCounters o kind n)
      fun _ => P := by
  refine .bind succeeds_requirePermanent fun _ => .look ?_
  rintro g - ⟨hlies, hp⟩
  cases hcounters : (g.facets o).counters? with
  | none =>
    refine .pure _ ?_
    rintro h rfl
    exact hp
  | some counters =>
    have htell : Succeeds P (do
        if 0 < (counters.take kind n).1 then
          emit (.countersRemoved o kind (counters.take kind n).1)
        return (counters.take kind n).1) fun _ => P := by
      apply Succeeds.ite
      · intro hsome
        exact .bind (.emit _) fun _ => .pure _ id
      · intro hnone
        exact .pure _ id
    apply Succeeds.ite
    · intro hempty
      refine .bind (.update ?_) fun _ => htell
      rintro h - rfl
      exact ⟨.unmark h o [.counters] (by decide), hsteady h _ rfl (fun _ _ => rfl) hp⟩
    · intro hleft
      refine .bind ((succeeds_setFacet hsteady.unmarked).of_pre ?_) fun _ => htell
      rintro h - rfl
      exact ⟨hlies, .left kind n hcounters (Bool.eq_false_iff.mpr hleft), hp⟩

/-- Everybody at the table has a life total to change. -/
theorem succeeds_changeLife {s : Seat} (delta : Int) (hsteady : Steady [] P) :
    Succeeds (fun g => s.index < g.seats ∧ P g) (changeLife s delta) fun _ => P := by
  apply Succeeds.ite
  · intro hchanges
    refine .look ?_
    rintro g hfurnished ⟨hseat, hp⟩
    refine .bind (.edit ?_) fun _ => .emit _
    rintro h - rfl
    have hcontains : h.contains (.ofSeat s) = true := hfurnished.sound.housed.players hseat
    obtain ⟨⟨life, poison⟩, hplayer⟩ := Option.isSome_iff_exists.mp (hfurnished.alive s hseat)
    have hset : Game.setLife s (saturate (h.life s + delta)) h = .ok () { h with
        objects := h.objects.modify (.ofSeat s)
          (·.insert (.player (saturate (h.life s + delta)) poison)) } := by
      unfold Game.setLife
      rw [hplayer]
      exact if_pos hcontains
    exact ⟨(), _, hset, .life hset, hsteady h _ rfl (fun _ _ => rfl) hp⟩
  · intro hsame
    exact .pure _ And.right

theorem succeeds_shuffleLibrary (s : Seat) :
    Succeeds P (shuffleLibrary s) fun _ _ => True := by
  have hshuffle : Succeeds P (update (·.shuffleLibrary s)) fun _ _ => True :=
    .update fun g _ _ => ⟨.shuffle g s, trivial⟩
  exact .bind hshuffle fun _ => .emit _

/-- A floating effect on permanents, that is not a shield, starts. -/
theorem succeeds_addFloating {change : Modification} {affected : SortedSet ObjectId}
    (duration : Duration) (ctx : Context) (haffecting : affected.isEmpty = false)
    (hshield : change ≠ .regenerationShield) :
    Succeeds (fun g => ∀ o, affected.contains o = true → g.onBattlefield o = true)
      (addFloating change affected duration ctx) fun _ _ => True := by
  refine .look fun g _ hthere => ?_
  have hfloat : Succeeds (fun h => h = g)
      (update fun _ => (g.addFloating change.placed affected duration ctx.source
        ctx.controller).2) fun _ _ => True := by
    refine .update ?_
    rintro h - rfl
    exact ⟨.float h ctx.source ctx.controller trivial haffecting hthere
      (fun heq => absurd heq hshield) fun heq => absurd heq hshield, trivial⟩
  exact .bind hfloat fun _ => .emit _

end Resolve

end CardGame
