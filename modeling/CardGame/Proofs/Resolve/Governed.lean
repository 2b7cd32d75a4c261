import CardGame.Proofs.Game.Furnished
import CardGame.Proofs.Projection.Control
import CardGame.Proofs.Resolve.Certain

/-!
Who may come to control permanents. Control is given by effects that gain it for the player of their
context, by searches that put cards onto the battlefield for whoever searches, and by the zone or
the player that an object enters the battlefield for. If everybody to whom it may yet be given sits
at the table, so does everybody who has it (`Game.Governed`), and resolving leaves it so.
-/

namespace CardGame

namespace Game

theorem controller?_newFacets (card : Card) (owner : Seat) (token : Bool) :
    (newFacets card owner token).controller? = none := by
  cases token <;> rfl

variable {n : Nat} {g g' : Game} {o : ObjectId}

/-- Zones belong to one of so many players only, and so does whoever controls an object apart from
continuous effects, or is given control by a floating effect or by suspended work. -/
structure Governed (n : Nat) (g : Game) : Prop where
  zoned : ∀ z, g.zones.knows z = true → z.owner.index < n
  held : ∀ o s, (g.facets o).controller? = some s → s.index < n
  granted : ∀ e ∈ g.floating, e.modification.change.GrantsTo (·.index < n)
  suspended : ∀ frame ∈ g.stack, frame.work.GrantsTo (·.index < n)

namespace Governed

/-- Changes that give no control to anybody. -/
theorem congr (h : g.Governed n) (hknows : ∀ z, g'.zones.knows z = g.zones.knows z)
    (hheld : ∀ o s, (g'.facets o).controller? = some s → (g.facets o).controller? = some s)
    (hgranted : ∀ e ∈ g'.floating, ∃ e' ∈ g.floating, e.modification = e'.modification)
    (hsuspended : ∀ frame ∈ g'.stack, frame ∈ g.stack) : g'.Governed n where
  zoned z hz := h.zoned z (hknows z ▸ hz)
  held o s hs := h.held o s (hheld o s hs)
  granted e he := by
    obtain ⟨e', he', hsame⟩ := hgranted e he
    exact hsame ▸ h.granted e' he'
  suspended frame hframe := h.suspended frame (hsuspended frame hframe)

/-- Changes to nothing but the zones, which stay those of the same players. -/
theorem rezone (h : g.Governed n) {zones : Zones}
    (hknows : ∀ z, zones.knows z = g.zones.knows z) : Governed n { g with zones } :=
  h.congr hknows (fun _ _ => id) (fun e he => ⟨e, he, rfl⟩) fun _ => id

/-- Some floating effects end, or go on for a while with fewer objects. -/
theorem thin (h : g.Governed n) {fs : List FloatingEffect}
    (hfs : ∀ e ∈ fs, ∃ e' ∈ g.floating, e.modification = e'.modification) :
    Governed n { g with floating := fs } :=
  h.congr (fun _ => rfl) (fun _ _ => id) hfs fun _ => id

theorem sublist (h : g.Governed n) {fs : List FloatingEffect} (hsub : fs.Sublist g.floating) :
    Governed n { g with floating := fs } :=
  h.thin fun e he => ⟨e, hsub.subset he, rfl⟩

/-- What is recorded of an object changes, but gives control only to one of the players. -/
theorem modify (h : g.Governed n) {F : Facets → Facets}
    (hF : ∀ fs s, (F fs).controller? = some s → fs.controller? = some s ∨ s.index < n)
    (o : ObjectId) : Governed n { g with objects := g.objects.modify o F } where
  zoned := h.zoned
  granted := h.granted
  suspended := h.suspended
  held o' s hs := by
    rcases facets_modify_cases (g := g) F o o' with hsame | hchanged
    · exact h.held o' s (hsame ▸ hs)
    · exact (hF _ s (hchanged ▸ hs)).elim (h.held o' s) id

theorem insert (h : g.Governed n) {f : Facet} (hkind : f.kind ≠ .controller) (o : ObjectId) :
    Governed n { g with objects := g.objects.modify o (·.insert f) } :=
  h.modify (fun _ _ hs => Or.inl (Facets.controller?_insert hkind ▸ hs)) o

/-- An object is given to one of the players. -/
theorem give {s : Seat} (h : g.Governed n) (hs : s.index < n) (o : ObjectId) :
    Governed n { g with objects := g.objects.modify o (·.insert (.controller s)) } := by
  refine h.modify (fun fs s' hs' => ?_) o
  have hsame : (fs.insert (.controller s)).controller? = some s := by
    simp [Facets.controller?, Facets.insert, Facet.kind]
  rw [hsame] at hs'
  exact Or.inr (Option.some.inj hs' ▸ hs)

theorem eraseFacets (h : g.Governed n) (o : ObjectId) (kinds : List FacetKind) :
    (g.eraseFacets o kinds).Governed n := by
  induction kinds generalizing g with
  | nil => exact h
  | cons kind rest ih =>
    exact ih (h.modify (fun _ _ hs => Or.inl (Facets.controller?_of_erase hs)) o)

theorem leaveBattlefield (h : g.Governed n) (o : ObjectId) : (g.leaveBattlefield o).Governed n := by
  have herased := h.eraseFacets o permanentFacets
  refine herased.congr (fun z => ?_) (fun o' s hs => ?_) (fun e he => ?_) fun frame hframe => ?_
  · rw [eraseFacets_frame]
    rcases zones_leaveBattlefield (g := g) (o := o) with hkept | hremoved
    · rw [hkept]
    · rw [hremoved, Zones.knows_remove_eq]
  · by_cases ho : o = o'
    · subst ho
      rw [facets_leaveBattlefield_self] at hs
      split at hs
      · cases hs
      · exact hs
    · rw [facets_leaveBattlefield_of_ne ho] at hs
      rw [facets_eraseFacets_of_ne _ ho]
      exact hs
  · rw [leaveBattlefield_frame] at he
    obtain ⟨e', he', hrelease⟩ := List.mem_filterMap.mp he
    rw [eraseFacets_frame]
    exact ⟨e', he', (of_releaseFrom hrelease).2.1⟩
  · rw [leaveBattlefield_frame] at hframe
    rw [eraseFacets_frame]
    exact hframe

theorem enterBattlefield {controller : Seat} {u : Unit} (h : g.Governed n)
    (hcontroller : controller.index < n)
    (henter : Game.enterBattlefield o controller g = .ok u g') : g'.Governed n := by
  rw [enterBattlefield_eq_ok henter]
  have hentered := h.insert (f := .entered g.turn.number g.nextTimestamp) (by simp [Facet.kind]) o
  have hgiven := hentered.give hcontroller o
  exact hgiven.congr (fun _ => rfl) (fun _ _ => id) (fun e he => ⟨e, he, rfl⟩) fun _ => id

/-- An object that moves is given to nobody but the given player or the owner of the zone. -/
theorem move {target origin : Zone} {p : Position} {controller : Option Seat} (h : g.Governed n)
    (hcontroller : ∀ s, controller = some s → s.index < n)
    (hmove : Game.move o target p controller g = .ok origin g') : g'.Governed n := by
  obtain ⟨zones, hzones, hcases⟩ := move_eq_ok hmove
  have hmoved : Governed n { g with zones } := h.rezone (Zones.knows_move hzones)
  rcases hcases with ⟨-, -, rfl⟩ | ⟨-, rfl⟩ | ⟨-, -, henter⟩
  · exact hmoved.leaveBattlefield o
  · exact hmoved
  · refine hmoved.enterBattlefield ?_ henter
    cases controller with
    | none => exact h.zoned target (Zones.knows_of_move hzones)
    | some s => exact hcontroller s rfl

theorem spawn {card : Card} {owner : Seat} {kind : ZoneKind} {token : Bool} (h : g.Governed n)
    (hspawn : Game.spawn card owner kind token g = .ok o g') :
    owner.index < n ∧ g'.Governed n := by
  obtain ⟨-, zones, hadd, hcases⟩ := spawn_eq_ok hspawn
  have howner : owner.index < n := h.zoned ⟨owner, kind⟩ (Zones.knows_of_add hadd)
  have harrived : (g.arrival card owner token zones).Governed n := by
    refine h.congr (Zones.knows_add hadd) (fun o' s hs => ?_) (fun e he => ⟨e, he, rfl⟩) fun _ => id
    rw [facets_arrival] at hs
    split at hs
    · rw [controller?_newFacets] at hs
      cases hs
    · exact hs
  rcases hcases with ⟨-, rfl⟩ | ⟨-, henter⟩
  · exact ⟨howner, harrived⟩
  · exact ⟨howner, harrived.enterBattlefield howner henter⟩

/-- At the end of a turn floating effects count down and end, and damage wears off. -/
theorem endOfTurn (h : g.Governed n) : g.endOfTurn.1.Governed n := by
  have hsame (e : FloatingEffect) : (countDown e).modification = e.modification := by
    unfold countDown
    split <;> rfl
  have hcounted : Governed n { g with floating := g.floating.map countDown } := by
    refine h.thin fun e he => ?_
    obtain ⟨e', he', rfl⟩ := List.mem_map.mp he
    exact ⟨e', he', hsame e'⟩
  have hwearOff (os : List ObjectId) (g : Game) (h : g.Governed n) :
      (os.foldl (fun g o => g.eraseFacet o .damage) g).Governed n := by
    induction os generalizing g with
    | nil => exact h
    | cons o rest ih => exact ih _ (h.eraseFacets o [.damage])
  have hexpired := hcounted.sublist (List.filter_sublist (p := outlastsTurn))
  exact (hwearOff _ _ hexpired).sublist List.filter_sublist

theorem setFacet {f : Facet} {u : Unit} (h : g.Governed n) (hkind : f.kind ≠ .controller)
    (hset : Game.setFacet o f g = .ok u g') : g'.Governed n := by
  obtain ⟨-, rfl⟩ := setFacet_eq_ok hset
  exact h.insert hkind o

theorem setLife {s : Seat} {life : Int} {u : Unit} (h : g.Governed n)
    (hset : Game.setLife s life g = .ok u g') : g'.Governed n := by
  obtain ⟨poison, rfl⟩ := setLife_eq_ok hset
  exact h.insert (by simp [Facet.kind]) _

theorem shuffleLibrary (h : g.Governed n) (s : Seat) : (g.shuffleLibrary s).Governed n := by
  refine h.congr (fun z => ?_) (fun _ _ => id) (fun e he => ⟨e, he, rfl⟩) fun _ => id
  rw [zones_shuffleLibrary]
  rcases Zones.shuffle_cases g.zones (.library s) g.random with
    hsame | ⟨order, r, hknows, -, hshuffle⟩
  · rw [hsame]
  · rw [hshuffle]
    exact Zones.knows_rearrange hknows z

end Governed

end Game

namespace Projection

variable {P : Seat → Prop} {p : Projection} {o : ObjectId}

theorem holder?_applyAll_holds {m : Modification} (hm : m.GrantsTo P)
    (h : ∀ s, p.holder? o = some (some s) → P s) (os : List ObjectId) :
    ∀ s, (p.applyAll os m).holder? o = some (some s) → P s := by
  induction os generalizing p with
  | nil => exact h
  | cons o' rest ih =>
    refine ih fun s hs => ?_
    rw [holder?_apply] at hs
    split at hs
    · cases m with
      | changeController seat =>
        obtain ⟨_, -, hseat⟩ := Option.map_eq_some_iff.mp hs
        cases hseat
        exact hm
      | _ =>
        obtain ⟨_, hholder, rfl⟩ := Option.map_eq_some_iff.mp hs
        exact h s hholder
    · exact h s hs

/-- The changes of floating effects that give control only to some leave it with them. -/
theorem holder?_claimed_holds {fs : List FloatingEffect}
    (hfs : ∀ e ∈ fs, e.modification.change.GrantsTo P)
    (h : ∀ s, p.holder? o = some (some s) → P s) :
    ∀ s, (p.claimed fs).holder? o = some (some s) → P s := by
  have hitems (items : List LayerItem)
      (hamong : ∀ item ∈ items, ∃ e ∈ fs, item = LayerItem.ofFloating e) (p : Projection)
      (h : ∀ s, p.holder? o = some (some s) → P s) :
      ∀ s, (items.foldl LayerItem.claim p).holder? o = some (some s) → P s := by
    induction items generalizing p with
    | nil => exact h
    | cons item rest ih =>
      obtain ⟨⟨e, he, rfl⟩, hrest⟩ := List.forall_mem_cons.mp hamong
      exact ih hrest _ (holder?_applyAll_holds (hfs e he) h _)
  unfold claimed
  induction Stage.all generalizing p with
  | nil => exact h
  | cons stage rest ih =>
    refine ih (hitems _ (fun item hitem => ?_) p h)
    have hlisted := (List.mem_filter.mp ((LayerItem.inOrder_perm _).mem_iff.mp hitem)).1
    obtain ⟨e, he, rfl⟩ := List.mem_map.mp hlisted
    exact ⟨e, he, rfl⟩

end Projection

namespace Game

variable {n : Nat} {g : Game} {o : ObjectId} {s : Seat}

/-- Apart from continuous effects only players at the table control something. -/
theorem Governed.seated_of_base? (h : g.Governed g.seats) (hfurnished : g.Furnished)
    {c : Characteristics} (hbase : Characteristics.base? g o = some c)
    (hcontroller : c.controller = some s) : s.index < g.seats := by
  obtain ⟨card, -, rfl⟩ := Option.map_eq_some_iff.mp hbase
  have hgiven : g.baseController? o = some s := by
    split at hcontroller <;> exact hcontroller
  rcases Option.or_eq_some_iff.mp hgiven with hheld | ⟨-, howner⟩
  · exact h.held o s hheld
  · exact hfurnished.seated_of_owner? howner

/-- Floating effects give control to no one else. -/
theorem Governed.seated_of_project (h : g.Governed g.seats) (hfurnished : g.Furnished)
    {rules : Rules} {c : Characteristics} (hshown : SortedMap.find? (rules.project g) o = some c)
    (hcontroller : c.controller = some s) : s.index < g.seats := by
  have hholder : (rules.project g).holder? o = some (some s) := by
    rw [Projection.holder?, hshown, Option.map_some, hcontroller]
  rw [Rules.holder?_project rules g rfl] at hholder
  refine Projection.holder?_claimed_holds (P := (·.index < g.seats)) (fun e he => ?_)
    (fun s' hs' => ?_) s hholder
  · exact h.granted e (List.mem_filter.mp he).1
  · rw [Projection.holder?, Projection.find?_base] at hs'
    obtain ⟨b, hbase, hb⟩ := Option.map_eq_some_iff.mp hs'
    exact h.seated_of_base? hfurnished hbase hb

/-- Whoever controls something sits at the table. -/
theorem Governed.seated_of_controller? (h : g.Governed g.seats) (hfurnished : g.Furnished)
    (rules : Rules) (hcontroller : (rules.view g).controller? o = some s) :
    s.index < g.seats := by
  unfold View.controller? at hcontroller
  split at hcontroller
  · next s' hseat =>
    cases hcontroller
    exact hfurnished.sound.housed.seated_of_seat? hseat
  · split at hcontroller
    · obtain ⟨c, hc, hcs⟩ := Option.bind_eq_some_iff.mp hcontroller
      rcases Option.or_eq_some_iff.mp hc with hshown | ⟨-, hbase⟩
      · exact h.seated_of_project hfurnished hshown hcs
      · exact h.seated_of_base? hfurnished hbase hcs
    · exact hfurnished.seated_of_owner? hcontroller

end Game

namespace Resolve

variable {α β : Type} {I : Game → Prop}

/-- A part of a resolution that keeps something true of the game. -/
structure Upholds (I : Game → Prop) (r : Resolve α) : Prop where
  keeps : ∀ {p q : Progress} {a : α}, I p.game → r p = .ok (a, q) → I q.game

namespace Upholds

protected theorem pure (a : α) : Upholds I (pure a) := by
  refine ⟨fun hI hr => ?_⟩
  cases hr
  exact hI

protected theorem throw (failure : Failure) : Upholds I (throw failure : Resolve α) := by
  refine ⟨fun _ hr => ?_⟩
  cases hr

protected theorem bind {m : Resolve β} {k : β → Resolve α} (hm : Upholds I m)
    (hk : ∀ b, Upholds I (k b)) : Upholds I (m >>= k) := by
  refine ⟨fun hI hr => ?_⟩
  obtain ⟨b, r, hfirst, hrest⟩ := bind_eq_ok hr
  exact (hk b).keeps (hm.keeps hI hfirst) hrest

/-- A part that goes by what it reads of the game. -/
theorem look {k : Game → Resolve α} (hk : ∀ g, I g → Upholds I (k g)) :
    Upholds I (Resolve.game >>= k) :=
  ⟨fun {p _ _} hI hr => (hk p.game hI).keeps hI hr⟩

theorem emit (e : Event) : Upholds I (emit e) := by
  refine ⟨fun hI hr => ?_⟩
  cases hr
  exact hI

theorem update {f : Game → Game} (hf : ∀ g, I g → I (f g)) : Upholds I (update f) := by
  refine ⟨fun {p _ _} hI hr => ?_⟩
  cases hr
  exact hf p.game hI

theorem edit {e : Edit Game α} (he : ∀ {g g' a}, I g → e g = .ok a g' → I g') :
    Upholds I (edit e) := by
  refine ⟨fun hI hr => ?_⟩
  obtain ⟨g, hedit, rfl⟩ := edit_eq_ok hr
  exact he hI hedit

theorem ite {c : Prop} [Decidable c] {r r' : Resolve α} (hyes : Upholds I r)
    (hno : Upholds I r') : Upholds I (if c then r else r') := by
  split
  · exact hyes
  · exact hno

protected theorem forM {xs : List β} {body : β → Resolve PUnit}
    (hbody : ∀ x, Upholds I (body x)) : Upholds I (xs.forM body) := by
  induction xs with
  | nil => exact .pure _
  | cons x rest ih =>
    change Upholds I (body x >>= fun _ => rest.forM body)
    exact .bind (hbody x) fun _ => ih

/-- What a resolution comes to keeps what the resolution keeps. A failure gives the game back. -/
theorem resultIn {r : Resolve Outcome} {g : Game} (h : Upholds I r) (hI : I g) :
    I (Resolve.resultIn g r).game := by
  cases hrun : r { game := g } with
  | error failure =>
    rw [Resolve.resultIn, StateT.run, hrun]
    exact hI
  | ok result =>
    obtain ⟨outcome, q⟩ := result
    rw [Resolve.resultIn, StateT.run, hrun]
    cases outcome <;> exact h.keeps (p := { game := g }) hI hrun

end Upholds

variable {n : Nat}

theorem upholds_requireIn (o : ObjectId) (kind : ZoneKind) : Upholds I (requireIn o kind) := by
  have hrequire : Upholds I (require o) := .look fun _ _ => .ite (.pure _) (.throw _)
  exact .bind hrequire fun _ => .look fun _ _ => .ite (.pure _) (.throw _)

theorem governs_setFacet (o : ObjectId) {f : Facet} (hkind : f.kind ≠ .controller) :
    Upholds (Game.Governed n) (edit (Game.setFacet o f)) := .edit fun h => h.setFacet hkind

theorem governs_eraseFacets (o : ObjectId) (kinds : List FacetKind) :
    Upholds (Game.Governed n) (update (·.eraseFacets o kinds)) :=
  .update fun _ h => h.eraseFacets o kinds

theorem governs_tap (o : ObjectId) : Upholds (Game.Governed n) (tap o) := by
  refine .bind (upholds_requireIn o _) fun _ => .look fun _ _ => .ite ?_ (.pure _)
  exact .bind (governs_setFacet o (by decide)) fun _ => .emit _

theorem governs_regenerate (o : ObjectId) : Upholds (Game.Governed n) (regenerate o) := by
  have hheal : Upholds (Game.Governed n) (do
      tap o
      update (·.eraseFacets o [.damage, .attacking, .blocking, .blocked])
      emit (.regenerated o)) :=
    .bind (governs_tap o) fun _ => .bind (governs_eraseFacets o _) fun _ => .emit _
  refine .look fun g _ => ?_
  split
  · exact hheal
  · exact .bind (.update fun _ h => h.sublist List.eraseP_sublist) fun _ =>
      .bind (.emit _) fun _ => hheal

theorem governs_removeCounters (o : ObjectId) (kind : CounterKind) (m : Nat) :
    Upholds (Game.Governed n) (removeCounters o kind m) := by
  refine .bind (upholds_requireIn o _) fun _ => .look fun g _ => ?_
  split
  · exact .pure _
  · next counters _ =>
    have htell : Upholds (Game.Governed n) (do
        if 0 < (counters.take kind m).1 then
          emit (.countersRemoved o kind (counters.take kind m).1)
        return (counters.take kind m).1) := .ite (.bind (.emit _) fun _ => .pure _) (.pure _)
    apply Upholds.ite
    · exact .bind (governs_eraseFacets o [.counters]) fun _ => htell
    · exact .bind (governs_setFacet o (by simp [Facet.kind])) fun _ => htell

theorem governs_finishReorder (player : Seat) (order : List ObjectId) :
    Upholds (Game.Governed n) (LibraryEffect.finishReorder player order) := by
  refine .look fun g hg => ?_
  dsimp only
  split
  · exact .throw _
  · next zones hreorder =>
    obtain ⟨hknows, -, rfl⟩ := Zones.reorder_eq_ok hreorder
    refine .bind (.update fun h hh => ?_) fun _ => .bind (.emit _) fun _ => .pure _
    exact ⟨(hg.rezone (Zones.knows_rearrange hknows)).zoned, hh.held, hh.granted, hh.suspended⟩

/-- A floating effect may be started if it gives control only to one of the players. -/
theorem governs_addFloating {change : Modification} (affected : SortedSet ObjectId)
    (duration : Duration) (ctx : Context) (h : change.GrantsTo (·.index < n)) :
    Upholds (Game.Governed n) (addFloating change affected duration ctx) := by
  refine .look fun g hg => .bind (.update fun _ _ => ?_) fun _ => .emit _
  refine ⟨hg.zoned, hg.held, fun e he => ?_, hg.suspended⟩
  rcases List.mem_append.mp he with hold | hnew
  · exact hg.granted e hold
  · rw [List.mem_singleton.mp hnew]
    exact h

/-- Work may be suspended if it gives control only to one of the players. -/
theorem governs_pause (player : Seat) (prompt : String) (question : Question)
    (source : Option ObjectId) {work : Suspension} (h : work.GrantsTo (·.index < n)) :
    Upholds (Game.Governed n) (pause player prompt question source work) := by
  refine .look fun g hg => .bind (.update fun _ _ => ?_) fun _ => .bind (.emit _) fun _ => .pure _
  exact ⟨hg.zoned, hg.held, hg.granted, List.forall_mem_cons.mpr ⟨h, hg.suspended⟩⟩

/-- A token is given to a player in whose zone it can be created. -/
theorem governs_createToken (t : TokenTemplate) (s : Seat) :
    Upholds (Game.Governed n) (createToken t s) := by
  refine ⟨fun {p q a} h hr => ?_⟩
  obtain ⟨o, r, hspawn, hrest⟩ := bind_eq_ok hr
  obtain ⟨g, hspawned, rfl⟩ := edit_eq_ok hspawn
  obtain ⟨hs, hg⟩ := h.spawn hspawned
  have hgive : Upholds (Game.Governed n) (edit (Game.setFacet o (.controller s))) := by
    refine .edit fun hh hset => ?_
    obtain ⟨-, rfl⟩ := Game.setFacet_eq_ok hset
    exact hh.give hs o
  have hrest' : Upholds (Game.Governed n) (do
      edit (Game.setFacet o (.controller s))
      emit (.tokenCreated o s)
      return o) := .bind hgive fun _ => .bind (.emit _) fun _ => .pure _
  exact hrest'.keeps hg hrest

/-- No action gives control to anybody but the players, if it may give it to them only. -/
theorem Act.governs {chance : Prop} {r : Resolve α} (h : Act chance (·.index < n) r) :
    Upholds (Game.Governed n) r := by
  cases h with
  | announce => exact .emit _
  | moveTo o target p controller hcontroller =>
    refine .bind (.edit fun h hmove => h.move hcontroller hmove) fun origin => ?_
    refine .bind (.emit _) fun _ => .look fun g _ => ?_
    exact .ite (.bind (.emit _) fun _ => .pure _) (.pure _)
  | tap o => exact governs_tap o
  | untap o =>
    refine .bind (upholds_requireIn o _) fun _ => .look fun g _ => ?_
    exact .bind (governs_eraseFacets o [.tapped]) fun _ => .ite (.emit _) (.pure _)
  | shuffleLibrary _ s => exact .bind (.update fun _ h => h.shuffleLibrary s) fun _ => .emit _
  | reorder player order => exact governs_finishReorder player order
  | random _ random =>
    exact .update fun _ h => ⟨h.zoned, h.held, h.granted, h.suspended⟩
  | regenerate o => exact governs_regenerate o
  | addCounters o kind m =>
    refine .bind (upholds_requireIn o _) fun _ => .ite (.look fun g _ => ?_) (.pure _)
    exact .bind (governs_setFacet o (by simp [Facet.kind])) fun _ => .emit _
  | removeCounters o kind m => exact governs_removeCounters o kind m
  | mark o m => exact governs_setFacet o (by simp [Facet.kind])
  | changeLife s delta =>
    refine .ite (.look fun g _ => ?_) (.pure _)
    exact .bind (.edit fun h hset => h.setLife hset) fun _ => .emit _
  | addFloating change affected duration ctx hgrants =>
    exact governs_addFloating affected duration ctx hgrants
  | createToken t s => exact governs_createToken t s
  | pause player prompt question source work hgrants => exact governs_pause _ _ _ _ hgrants
  | restack f hf =>
    refine .update fun g h => ⟨h.zoned, h.held, h.granted, fun frame hframe => ?_⟩
    exact (hf g frame hframe).elim (h.suspended frame) id

theorem Woven.governs {chance : Prop} {r : Resolve α} (h : Woven chance (·.index < n) r) :
    Upholds (Game.Governed n) r := by
  induction h with
  | act h => exact h.governs
  | game => exact ⟨fun h hr => by cases hr; exact h⟩
  | pure a => exact .pure a
  | throw => exact .throw _
  | bind hm hk ihm ihk => exact .bind ihm ihk

theorem governs_finishScry (player : Seat) (chosen : List ObjectId) :
    Upholds (Game.Governed n) (LibraryEffect.finishScry player chosen) := by
  refine .bind (.forM fun o => .bind (.edit fun {g g' a} h hmove => ?_) fun _ => .pure _) fun _ =>
    .bind (.emit _) fun _ => .pure _
  unfold Game.onZones at hmove
  split at hmove
  · next hzones =>
    cases hmove
    exact h.rezone (Zones.knows_move hzones)
  · cases hmove

theorem governs_settled {r : Resolve Outcome} (h : Upholds (Game.Governed n) r) :
    Upholds (Game.Governed n) (settled r) := by
  refine .bind h fun outcome => .look fun g hg => ?_
  refine .bind (.update fun _ _ => hg.sublist List.filter_sublist) fun _ => ?_
  exact .bind (.forM fun e => .emit e) fun _ => .pure _

end Resolve

open Resolve

namespace Suspension

variable {n : Nat}

/-- Going on with an answer that can be received gives control only to the players. -/
theorem governs_resume (rules : Rules) {d : Decision} {work : Suspension} {q : Question}
    {answer : Answer} (hquestion : d.question = q) (h : work.Receives q answer)
    (hgrants : work.GrantsTo (·.index < n)) :
    Upholds (Game.Governed n) (work.resume rules d answer) := by
  by_cases hscry : ∃ player, work = .scry player
  · obtain ⟨player, rfl⟩ := hscry
    cases h with
    | scry => exact governs_finishScry player _
  · have hwoven : Woven True (·.index < n) (work.resume rules d answer) :=
      work.woven_resume rules hquestion h (fun player hplayer => hscry ⟨player, hplayer⟩) hgrants
        fun _ => trivial
    exact hwoven.governs

end Suspension

namespace Rules

variable {n : Nat} (rules : Rules)

theorem governs_resolve (e : Effect) {ctx : Context} (hctx : ctx.controller.index < n) :
    Upholds (Game.Governed n) (e.resolve rules ctx) := by
  have hwoven : Woven True (·.index < n) (e.resolve rules ctx) :=
    e.woven_resolve ctx hctx fun _ => trivial
  exact hwoven.governs

/-- The effects left on the stack give control only to the players whom they are left for. -/
theorem governs_chain (steps : Nat) (outcome : Outcome) :
    Upholds (Game.Governed n) (rules.chain steps outcome) := by
  induction steps generalizing outcome with
  | zero =>
    cases outcome with
    | paused decision =>
      unfold chain
      exact .pure _
    | done =>
      unfold chain
      refine .look fun g _ => ?_
      split
      · exact .pure _
      · exact .throw _
      · exact .throw _
  | succ steps ih =>
    cases outcome with
    | paused decision =>
      unfold chain
      exact .pure _
    | done =>
      unfold chain
      refine .look fun g hg => ?_
      split
      · exact .pure _
      · exact .throw _
      · next work rest hstack =>
        obtain ⟨hwork, hrest⟩ := List.forall_mem_cons.mp (hstack ▸ hg.suspended)
        dsimp only
        split
        · next remaining ctx =>
          have hwoven : Woven True (·.index < n) (Effect.resolveAll rules remaining ctx) :=
            Effect.woven_resolveAll remaining ctx hwork fun _ => trivial
          refine .bind (.update fun h hh => ⟨hh.zoned, hh.held, hh.granted, hrest⟩) fun _ => ?_
          exact .bind hwoven.governs ih
        · exact .throw _

theorem governs_proceed {d : Decision} {work : Suspension} {answer : Answer}
    (h : work.Receives d.question answer) (hgrants : work.GrantsTo (·.index < n)) :
    Upholds (Game.Governed n) (rules.proceed d work answer) := by
  refine .bind (.update fun g hg => ⟨hg.zoned, hg.held, hg.granted, fun frame hframe => ?_⟩)
    fun _ => .bind (.emit _) fun _ => .bind (work.governs_resume rules rfl h hgrants) ?_
  · exact hg.suspended frame (List.mem_of_mem_tail hframe)
  · exact rules.governs_chain _

end Rules

end CardGame
