import CardGame.Proofs.Play.Answering
import CardGame.Proofs.Play.Invariant

/-!
Timestamps and floating effects over whole games. Every floating effect and every permanent that
enters the battlefield takes the next timestamp, so that no two of them share one and the floating
effects are listed from the oldest to the newest (`Game.Dated`). Whatever ends a resolution sweeps
out what no longer works, so that between moves every floating effect works (`Game.Swept`).
-/

namespace CardGame

open Resolve

/-- What the layer system goes by when it places a floating effect. -/
def FloatingEffect.dating (e : FloatingEffect) : Nat × PlacedModification :=
  (e.timestamp, e.modification)

namespace Game

variable {g g' : Game} {o : ObjectId}

/-- The timestamp with which an object entered the battlefield. -/
def entryStamp? (g : Game) (o : ObjectId) : Option Nat := (g.facets o).entered?.map (·.2)

/-- Timestamps below the next one, in the order of the list for floating effects, and none given
twice. Every floating effect is placed at the stage where its change belongs. -/
structure Dated (g : Game) : Prop where
  ordered : (g.floating.map (·.dating)).Pairwise fun d d' => d.1 < d'.1
  dated : ∀ d ∈ g.floating.map (·.dating), d.1 < g.nextTimestamp
  placed : ∀ d ∈ g.floating.map (·.dating), d.2 = d.2.change.placed
  entered : ∀ {o : ObjectId} {t : Nat}, g.entryStamp? o = some t → t < g.nextTimestamp
  apart : ∀ {o o' : ObjectId} {t : Nat}, g.entryStamp? o = some t → g.entryStamp? o' = some t →
    o = o'
  unshared : ∀ d ∈ g.floating.map (·.dating), ∀ o, g.entryStamp? o ≠ some d.1

/-- No timestamp is given out: floating effects may end and permanents may leave. -/
structure Undated (g g' : Game) : Prop where
  floating : (g'.floating.map (·.dating)).Sublist (g.floating.map (·.dating))
  entered : ∀ {o : ObjectId} {t : Nat}, g'.entryStamp? o = some t → g.entryStamp? o = some t
  next : g'.nextTimestamp = g.nextTimestamp

theorem Dated.undated (h : g.Dated) (hundated : Undated g g') : g'.Dated where
  ordered := h.ordered.sublist hundated.floating
  dated d hd := by
    rw [hundated.next]
    exact h.dated d (hundated.floating.subset hd)
  placed d hd := h.placed d (hundated.floating.subset hd)
  entered ht := by
    rw [hundated.next]
    exact h.entered (hundated.entered ht)
  apart ht ht' := h.apart (hundated.entered ht) (hundated.entered ht')
  unshared d hd o hshared :=
    h.unshared d (hundated.floating.subset hd) o (hundated.entered hshared)

/-- An object enters the battlefield with the next timestamp. -/
theorem Dated.enter (h : g.Dated) (hfloating : g'.floating = g.floating)
    (hnew : g'.entryStamp? o = some g.nextTimestamp)
    (hold : ∀ o', o ≠ o' → g'.entryStamp? o' = g.entryStamp? o')
    (hnext : g'.nextTimestamp = g.nextTimestamp + 1) : g'.Dated := by
  have hcases {o' : ObjectId} {t : Nat} (ht : g'.entryStamp? o' = some t) :
      (o' = o ∧ t = g.nextTimestamp) ∨ g.entryStamp? o' = some t := by
    by_cases ho : o = o'
    · subst ho
      rw [hnew] at ht
      cases ht
      exact Or.inl ⟨rfl, rfl⟩
    · rw [hold o' ho] at ht
      exact Or.inr ht
  constructor
  · rw [hfloating]
    exact h.ordered
  · intro d hd
    rw [hfloating] at hd
    have hlt := h.dated d hd
    omega
  · rw [hfloating]
    exact h.placed
  · intro o' t ht
    rcases hcases ht with ⟨-, rfl⟩ | hbefore
    · omega
    · have hlt := h.entered hbefore
      omega
  · intro o₁ o₂ t ht₁ ht₂
    rcases hcases ht₁ with ⟨ho₁, heq₁⟩ | hbefore₁ <;> rcases hcases ht₂ with ⟨ho₂, heq₂⟩ | hbefore₂
    · exact ho₁.trans ho₂.symm
    · have hlt := h.entered hbefore₂
      omega
    · have hlt := h.entered hbefore₁
      omega
    · exact h.apart hbefore₁ hbefore₂
  · intro d hd o' hshared
    rw [hfloating] at hd
    rcases hcases hshared with ⟨-, heq⟩ | hbefore
    · have hlt := h.dated d hd
      omega
    · exact h.unshared d hd o' hbefore

/-- A floating effect starts with the next timestamp. -/
theorem Dated.float (h : g.Dated) (change : Modification) (affected : SortedSet ObjectId)
    (duration : Duration) (source : Option ObjectId) (controller : Seat) :
    (g.addFloating change.placed affected duration source controller).2.Dated := by
  have hmem {d : Nat × PlacedModification}
      (hd : d ∈ (g.addFloating change.placed affected duration source controller).2.floating.map
        (·.dating)) : d ∈ g.floating.map (·.dating) ∨ d = (g.nextTimestamp, change.placed) := by
    rw [addFloating, List.map_append] at hd
    simpa [FloatingEffect.dating] using hd
  constructor
  · rw [addFloating, List.map_append]
    refine List.pairwise_append.mpr ⟨h.ordered, List.pairwise_singleton _ _, ?_⟩
    intro d hd d' hd'
    rw [List.mem_singleton.mp hd']
    exact h.dated d hd
  · intro d hd
    change d.1 < g.nextTimestamp + 1
    rcases hmem hd with hold | rfl
    · have hlt := h.dated d hold
      omega
    · omega
  · intro d hd
    rcases hmem hd with hold | rfl
    · exact h.placed d hold
    · rfl
  · intro o t ht
    have hlt : t < g.nextTimestamp := h.entered ht
    exact Nat.lt_succ_of_lt hlt
  · exact h.apart
  · intro d hd o hshared
    rcases hmem hd with hold | rfl
    · exact h.unshared d hold o hshared
    · have hlt : g.nextTimestamp < g.nextTimestamp := h.entered hshared
      exact Nat.lt_irrefl _ hlt

theorem entryStamp?_of_facets (h : g'.facets o = g.facets o) :
    g'.entryStamp? o = g.entryStamp? o := by
  rw [entryStamp?, h, entryStamp?]

/-- A change to the facets of one object that keeps or forgets when it entered. -/
theorem undated_modify {F : Facets → Facets}
    (hF : ∀ fs, (F fs).entered? = fs.entered? ∨ (F fs).entered? = none) (o : ObjectId) :
    Undated g { g with objects := g.objects.modify o F } where
  floating := List.Sublist.refl _
  next := rfl
  entered {o' t} ht := by
    unfold entryStamp? facets at ht ⊢
    rw [SortedMap.find?_modify] at ht
    split at ht
    · cases hfind : g.objects.find? o' with
      | none => rwa [hfind] at ht
      | some fs =>
        rw [hfind] at ht
        change (F fs).entered?.map (·.2) = some t at ht
        rcases hF fs with hsame | hgone
        · rw [hsame] at ht
          exact ht
        · rw [hgone] at ht
          cases ht
    · exact ht

theorem undated_insert {f : Facet} (hkind : f.kind ≠ .entered) (o : ObjectId) :
    Undated g { g with objects := g.objects.modify o (·.insert f) } := by
  refine undated_modify (fun fs => Or.inl ?_) o
  simp [Facets.entered?, Facets.insert, hkind]

theorem Undated.refl (g : Game) : Undated g g := ⟨.refl _, id, rfl⟩

theorem Undated.trans {g'' : Game} (h : Undated g g') (h' : Undated g' g'') : Undated g g'' where
  floating := h'.floating.trans h.floating
  entered ht := h.entered (h'.entered ht)
  next := h'.next.trans h.next

theorem undated_eraseFacet (o : ObjectId) (kind : FacetKind) :
    Undated g (g.eraseFacet o kind) := by
  refine undated_modify (fun fs => ?_) o
  by_cases hkind : kind = .entered
  · refine Or.inr ?_
    simp [Facets.entered?, Facets.erase, hkind]
  · refine Or.inl ?_
    simp [Facets.entered?, Facets.erase, hkind]

theorem undated_eraseFacets (o : ObjectId) (kinds : List FacetKind) :
    Undated g (g.eraseFacets o kinds) := by
  induction kinds generalizing g with
  | nil => exact .refl g
  | cons kind rest ih => exact (undated_eraseFacet o kind).trans (ih (g := g.eraseFacet o kind))

theorem dating_of_releaseFrom {e e' : FloatingEffect} (h : releaseFrom o e = some e') :
    e'.dating = e.dating := by
  unfold releaseFrom at h
  split at h
  · split at h
    · cases h
    · cases h
      rfl
  · cases h
    rfl

/-- What floating effects let go of does not change their order. -/
theorem dating_release_sublist (o : ObjectId) (fs : List FloatingEffect) :
    ((fs.filterMap (releaseFrom o)).map (·.dating)).Sublist (fs.map (·.dating)) := by
  induction fs with
  | nil => exact .slnil
  | cons e rest ih =>
    cases hrelease : releaseFrom o e with
    | none =>
      rw [List.filterMap_cons_none hrelease]
      exact ih.cons _
    | some e' =>
      rw [List.filterMap_cons_some hrelease, List.map_cons, dating_of_releaseFrom hrelease]
      exact ih.cons_cons _

theorem undated_leaveBattlefield (o : ObjectId) : Undated g (g.leaveBattlefield o) := by
  constructor
  · rw [leaveBattlefield_frame]
    exact dating_release_sublist o g.floating
  · intro o' t ht
    by_cases ho : o = o'
    · subst ho
      rw [entryStamp?, facets_leaveBattlefield_self] at ht
      split at ht
      · cases ht
      · exact (undated_eraseFacets o permanentFacets).entered ht
    · rwa [entryStamp?_of_facets (facets_leaveBattlefield_of_ne ho)] at ht
  · rw [leaveBattlefield_frame]

theorem Dated.enterBattlefield {controller : Seat} {u : Unit} (h : g.Dated)
    (hcontains : g.contains o = true)
    (henter : Game.enterBattlefield o controller g = .ok u g') : g'.Dated := by
  obtain ⟨fs, hfs⟩ := SortedMap.contains_iff.mp hcontains
  refine h.enter (o := o) ?_ ?_ ?_ ?_
  · rw [enterBattlefield_eq_ok henter]
  · rw [enterBattlefield_eq_ok henter]
    simp [entryStamp?, facets, hfs, Facets.entered?, Facets.insert, Facet.kind]
  · intro o' ho
    exact entryStamp?_of_facets (facets_enterBattlefield_of_ne henter ho)
  · rw [enterBattlefield_eq_ok henter]

theorem Dated.move {target origin : Zone} {p : Position} {controller : Option Seat} (h : g.Dated)
    (hsound : g.Sound) (hmove : Game.move o target p controller g = .ok origin g') : g'.Dated := by
  obtain ⟨zones, hzones, hcases⟩ := move_eq_ok hmove
  have hmoved : ({ g with zones } : Game).Dated := h.undated ⟨.refl _, id, rfl⟩
  rcases hcases with ⟨-, -, rfl⟩ | ⟨-, rfl⟩ | ⟨-, -, henter⟩
  · exact hmoved.undated (undated_leaveBattlefield o)
  · exact hmoved
  · have hcontains : g.contains o = true :=
      hsound.housed.contains_of_zone? (Zones.zone?_of_move hzones)
    exact hmoved.enterBattlefield hcontains henter

theorem Dated.spawn {card : Card} {owner : Seat} {kind : ZoneKind} {token : Bool} (h : g.Dated)
    (hspawn : Game.spawn card owner kind token g = .ok o g') : g'.Dated := by
  obtain ⟨-, zones, -, hcases⟩ := spawn_eq_ok hspawn
  have harrival : (g.arrival card owner token zones).Dated := by
    refine h.undated ⟨.refl _, fun {o' t} ht => ?_, rfl⟩
    rw [entryStamp?, facets_arrival] at ht
    split at ht
    · cases token <;> cases ht
    · exact ht
  rcases hcases with ⟨-, rfl⟩ | ⟨-, henter⟩
  · exact harrival
  · refine harrival.enterBattlefield ?_ henter
    simp [contains_arrival]

theorem Dated.alter {lasting : Duration → Prop} (h : g.Dated) (hsound : g.Sound)
    (halter : Alter lasting g g') : g'.Dated := by
  cases halter with
  | move howner hmove => exact h.move hsound hmove
  | mark hrecords hthere hset =>
    obtain ⟨-, rfl⟩ := setFacet_eq_ok hset
    refine h.undated (undated_insert ?_ _)
    cases hrecords <;> simp [Facet.kind]
  | unmark o kinds hkinds => exact h.undated (undated_eraseFacets o kinds)
  | life hset =>
    obtain ⟨poison, rfl⟩ := setLife_eq_ok hset
    exact h.undated (undated_insert (by simp [Facet.kind]) _)
  | float source controller => exact h.float _ _ _ source controller
  | unfloat => exact h.undated ⟨List.eraseP_sublist.map _, id, rfl⟩
  | create hspawn => exact h.spawn hspawn
  | _ => exact h.undated ⟨.refl _, id, rfl⟩

theorem kept_dated : Kept Dated where
  alter hsound h halter := h.alter hsound halter
  suspend _ _ _ h := h.undated ⟨.refl _, id, rfl⟩
  thin hsub h := h.undated ⟨hsub.map _, id, rfl⟩
  countDown {g} h := by
    refine h.undated ⟨?_, id, rfl⟩
    have hsame : (g.floating.map countDown).map (·.dating) = g.floating.map (·.dating) := by
      rw [List.map_map]
      refine List.map_congr_left fun e _ => ?_
      rw [Function.comp_apply, countDown]
      split <;> rfl
    exact hsame ▸ .refl _
  schedule _ h := h.undated ⟨.refl _, id, rfl⟩
  arrive _ h hspawn := h.spawn hspawn

theorem dated_start {s : TableSettings} (h : start s = .ok g) : g.Dated := by
  have hentered (o : ObjectId) : g.entryStamp? o = none := by
    rcases facets_start h o with hnone | hplayer
    · rw [entryStamp?, hnone]
      rfl
    · rw [entryStamp?, hplayer]
      rfl
  have hfloating : g.floating = [] := by
    obtain ⟨-, rfl⟩ := start_eq_ok h
    rfl
  constructor
  · simp [hfloating]
  · simp [hfloating]
  · simp [hfloating]
  · intro o t ht
    rw [hentered] at ht
    cases ht
  · intro o o' t ht
    rw [hentered] at ht
    cases ht
  · simp [hfloating]

theorem Reachable.dated (h : g.Reachable) : g.Dated := kept_dated.reachable dated_start h

end Game

/-- What a plan comes to is swept, and a failure leaves the game as it was. -/
theorem Result.swept_conclude {before : Game} (hbefore : before.Swept)
    (run : Except Failure (Option Stop × Progress)) : (Result.conclude before run).game.Swept := by
  have hsweep (g : Game) : g.sweep.1.Swept := fun e he => (List.mem_filter.mp he).2
  cases run with
  | error failure => exact hbefore
  | ok result =>
    obtain ⟨stop, q⟩ := result
    cases stop with
    | none => exact hsweep q.game
    | some stop => exact hsweep (q.stoppedAt stop).game

namespace Game

variable {g : Game}

theorem Swept.apply (h : g.Swept) (hsound : g.Sound) (hpoised : g.Poised) (m : Move)
    (hseated : m.Seated g) : (m.apply g).Swept := by
  cases m with
  | spawn card owner kind =>
    obtain ⟨o, g', hspawn, happly⟩ := spawnCard_cases hsound.housed card kind hseated
    rw [happly]
    exact (keepsControl_spawn hsound.housed h hspawn).2
  | execute rules e ctx =>
    change (rules.execute g e ctx).game.Swept
    cases hpending : g.pending with
    | some d =>
      unfold Rules.execute
      rw [hpending]
      exact h
    | none =>
      rw [rules.execute_eq hsound hpending]
      exact Result.swept_conclude h _
  | resume rules r =>
    change (rules.resume g r).game.Swept
    rcases rules.resume_cases hsound hpoised r with
      ⟨failure, hfailed, -⟩ | ⟨d, work, groups, hgroups, hready, hplan⟩
    · rw [hfailed]
      exact h
    · rw [hplan]
      exact Result.swept_conclude h _
  | endOfTurn => exact fun e he => (List.mem_filter.mp he).2
  | endOfCombat => exact fun e he => h e (List.mem_filter.mp he).1
  | beginTurn s => exact fun e he => h e (List.mem_filter.mp he).1
  | sweep => exact fun e he => h e (List.mem_filter.mp he).1
  | schedule turn => exact h

theorem Reachable.swept (h : g.Reachable) : g.Swept := by
  induction h with
  | start h =>
    obtain ⟨-, rfl⟩ := start_eq_ok h
    exact fun e he => absurd he List.not_mem_nil
  | move m hbefore hseated ih => exact ih.apply hbefore.sound hbefore.poised m hseated

/-- The floating effects are listed as they started, under timestamps of their own. Each is placed
where its change belongs, affects permanents only and at least one, and works. -/
structure FloatingInOrder (g : Game) : Prop where
  listed : g.floating.Pairwise fun e f => e.id.val < f.id.val ∧ e.timestamp < f.timestamp
  issued : ∀ e ∈ g.floating, e.id.val < g.nextFloating ∧ e.timestamp < g.nextTimestamp
  unshared : ∀ e ∈ g.floating, ∀ o, g.entryStamp? o ≠ some e.timestamp
  apart : ∀ o o' t, g.entryStamp? o = some t → g.entryStamp? o' = some t → o = o'
  affecting : ∀ e ∈ g.floating, e.affected.isEmpty = false ∧
    ∀ o, e.affected.contains o = true → g.onBattlefield o = true
  placed : ∀ e ∈ g.floating, e.modification.stage = e.modification.change.stage
  working : ∀ e ∈ g.floating, g.isActive e = true

/-- In every game that comes up the floating effects are in order. -/
theorem Reachable.floatingInOrder (h : g.Reachable) : g.FloatingInOrder := by
  have horderly := h.sound.orderly
  have hdated := h.dated
  have hdating {e : FloatingEffect} (he : e ∈ g.floating) :
      e.dating ∈ g.floating.map (·.dating) := List.mem_map_of_mem he
  constructor
  · have hordered := List.pairwise_map.mp hdated.ordered
    exact horderly.numbered.and hordered
  · intro e he
    exact ⟨horderly.issued e he, hdated.dated _ (hdating he)⟩
  · intro e he o
    exact hdated.unshared _ (hdating he) o
  · intro o o' t ht ht'
    exact hdated.apart ht ht'
  · intro e he
    exact ⟨horderly.affecting e he, horderly.present e he⟩
  · intro e he
    exact congrArg PlacedModification.stage (hdated.placed _ (hdating he))
  · exact h.swept

/-- Two effects float on a creature after another one, which the second affected too, has left. -/
theorem floatingInOrder_of_destroyed : ∃ g₀ g, start {} = .ok g₀ ∧
    g = (Move.execute {} (.composite [.pumpTarget 1 1,
        .continuous (.modifyGroup {} (.fixed 1) (.fixed 0) .endOfCombat),
        .removal (.destroy (.target 1))]) { targets := [⟨2⟩, ⟨3⟩] }).apply
      ((Move.spawn (.creature ⟨7⟩ "Bear" 2 2) ⟨1⟩ .battlefield).apply
        ((Move.spawn (.creature ⟨7⟩ "Bear" 2 2) ⟨0⟩ .battlefield).apply g₀)) ∧
    g.entryStamp? ⟨2⟩ = some 1 ∧ g.entryStamp? ⟨3⟩ = none ∧
    g.floating.map (fun e => (e.timestamp, e.affected.toList)) = [(3, [⟨2⟩]), (4, [⟨2⟩])] ∧
    g.FloatingInOrder := by
  have hspawned {g : Game} (s : Seat) (hs : s.index < g.seats) (h : g.Reachable) :
      ((Move.spawn (.creature ⟨7⟩ "Bear" 2 2) s .battlefield).apply g).Reachable := .move _ h hs
  have hbears := hspawned ⟨1⟩ Nat.one_lt_two
    (hspawned ⟨0⟩ Nat.zero_lt_two (Reachable.start (s := {}) rfl))
  refine ⟨_, _, rfl, rfl, by decide +kernel, by decide +kernel, by decide +kernel, ?_⟩
  exact Reachable.floatingInOrder (.move (.execute _ _ _) hbears trivial)

end Game

end CardGame
