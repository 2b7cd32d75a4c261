import CardGame.Proofs.Projection.Shields
import CardGame.Proofs.Resolve.Success
import Mathlib.Logic.Function.Basic

/-!
What becomes of permanents that are destroyed. A game deals every object a lot: whether it exists,
where it is, what is known of it and the shields on it (`Game.lot`). Destroying a permanent changes
the lot of that permanent alone, and what it makes of the lot depends on nothing but the lot and the
characteristics that decide it (`Game.Lot.destroyed`). So does a loop over different permanents for
each of them, in whatever order they come.
-/

namespace CardGame

namespace Game

/-- What there is to say about one object. -/
@[ext]
structure Lot where
  present : Bool
  zone? : Option Zone
  facets : Facets
  shields : List FloatingEffect

/-- The lot of an object in a game. -/
def lot (g : Game) (o : ObjectId) : Lot := ⟨g.contains o, g.zone? o, g.facets o, g.shields o⟩

namespace Lot

/-- The lot of a permanent, with its shields listed by age. -/
structure InPlay (l : Lot) : Prop where
  placed : ∃ s, l.zone? = some ⟨s, .battlefield⟩
  ordered : l.shields.Pairwise fun e f => e.timestamp < f.timestamp

/-- What is tapped stays so. -/
def tapped (l : Lot) : Lot :=
  { l with facets := if l.facets.has .tapped then l.facets else l.facets.insert .tapped }

theorem has_tapped_tapped (l : Lot) : l.tapped.facets.has .tapped = true := by
  unfold tapped
  dsimp only
  split
  · next htapped => exact htapped
  · simp [Facets.has, Facets.insert, Facet.kind]

theorem find?_tapped (l : Lot) {kind : FacetKind} (hkind : kind ≠ .tapped) :
    l.tapped.facets.byKind.find? kind = l.facets.byKind.find? kind := by
  unfold tapped
  dsimp only
  split
  · rfl
  · exact (SortedMap.find?_insert _ _ _ _).trans (if_neg (Ne.symm hkind))

/-- Without facets of some kinds. -/
def without (l : Lot) (kinds : List FacetKind) : Lot :=
  { l with facets := kinds.foldl Facets.erase l.facets }

theorem find?_without (l : Lot) (kinds : List FacetKind) (kind : FacetKind) :
    (l.without kinds).facets.byKind.find? kind =
      if kind ∈ kinds then none else l.facets.byKind.find? kind :=
  Facets.find?_foldl_erase l.facets kinds kind

/-- Without the shield that came first. -/
def unshielded (l : Lot) : Lot := { l with shields := l.shields.tail }

/-- The lot of a permanent that is destroyed with a shield on it. -/
def regenerated (l : Lot) : Lot :=
  l.unshielded.tapped.without [.damage, .attacking, .blocking, .blocked]

/-- The lot of an object that is no permanent any longer. A token ceases to exist. -/
def released (l : Lot) : Lot :=
  if l.facets.has .token then ⟨false, none, .empty, []⟩
  else { l.without permanentFacets with shields := [] }

/-- The lot of a permanent that leaves for its owner's zone of a kind. -/
def departed (l : Lot) (kind : ZoneKind) : Lot :=
  released { l with zone? := l.zone?.map fun z => ⟨z.owner, kind⟩ }

theorem departed_of_token {l : Lot} (h : l.facets.has .token = true) (kind : ZoneKind) :
    l.departed kind = ⟨false, none, .empty, []⟩ := if_pos h

theorem departed_of_card {l : Lot} (h : ¬l.facets.has .token = true) (kind : ZoneKind) :
    l.departed kind = ⟨l.present, l.zone?.map fun z => ⟨z.owner, kind⟩,
      (l.without permanentFacets).facets, []⟩ := if_neg h

/-- The lot of a permanent that is destroyed, as its characteristics decide. -/
def destroyed (l : Lot) (c : Characteristics) : Lot :=
  if c.hasKeyword .indestructible then l
  else if 0 < c.regenerationShields then l.regenerated
  else l.departed (if c.exileOnDeath then .exile else .graveyard)

end Lot

variable {g g' : Game} {o o' : ObjectId} {e : FloatingEffect}

theorem mem_shields : e ∈ g.shields o ↔ e ∈ g.floating ∧
    e.modification.change = .regenerationShield ∧ e.affected.contains o = true := by
  simp [shields]

/-- A shield is on one object only. -/
theorem Sound.shields_apart (h : g.Sound) (he : e ∈ g.shields o) (he' : e ∈ g.shields o') :
    o = o' := by
  obtain ⟨hmem, hchange, ho⟩ := mem_shields.mp he
  obtain ⟨-, -, ho'⟩ := mem_shields.mp he'
  obtain ⟨only, hsingle⟩ := h.orderly.single e hmem hchange
  rw [hsingle, SortedSet.contains_singleton, decide_eq_true_eq] at ho ho'
  exact ho.symm.trans ho'

/-- No shield is left on an object that floating effects are released from. -/
theorem shields_release_self (hfloating : g'.floating = g.floating.filterMap (releaseFrom o)) :
    g'.shields o = [] := by
  refine List.eq_nil_iff_forall_not_mem.mpr fun e he => ?_
  obtain ⟨hmem, -, hcontains⟩ := mem_shields.mp he
  rw [hfloating] at hmem
  obtain ⟨before, -, hrelease⟩ := List.mem_filterMap.mp hmem
  obtain ⟨-, -, -, -, hothers⟩ := of_releaseFrom hrelease
  exact (hothers o hcontains).1 rfl

/-- The shields of other objects stay when floating effects are released from an object. -/
theorem Sound.shields_release_of_ne (h : g.Sound)
    (hfloating : g'.floating = g.floating.filterMap (releaseFrom o)) (hne : o ≠ o') :
    g'.shields o' = g.shields o' := by
  unfold shields
  rw [hfloating, List.filter_filterMap, ← List.filterMap_eq_filter]
  refine List.filterMap_congr fun e he => ?_
  by_cases hshield : e ∈ g.shields o'
  · obtain ⟨-, hchange, hcontains⟩ := mem_shields.mp hshield
    have hnot : e.affected.contains o = false := by
      rw [Bool.eq_false_iff]
      intro ho
      exact hne (h.shields_apart (mem_shields.mpr ⟨he, hchange, ho⟩) hshield)
    have hkept : releaseFrom o e = some e := by simp [releaseFrom, hnot]
    simp [hkept, hchange, hcontains]
  · -- what is no shield of the object before is none afterwards
    have hguard : e.modification.change = .regenerationShield →
        e.affected.contains o' = false := fun hchange =>
      Bool.eq_false_iff.mpr fun hcontains => hshield (mem_shields.mpr ⟨he, hchange, hcontains⟩)
    have hleft : ∀ e', releaseFrom o e = some e' →
        e'.modification.change = .regenerationShield → e'.affected.contains o' = false := by
      intro e' hrelease hchange
      obtain ⟨-, hmodification, -, -, hothers⟩ := of_releaseFrom hrelease
      rw [hmodification] at hchange
      exact Bool.eq_false_iff.mpr fun hcontains =>
        hshield (mem_shields.mpr ⟨he, hchange, (hothers o' hcontains).2⟩)
    have hnone : Option.guard (fun e => e.modification.change = .regenerationShield &&
        e.affected.contains o') e = none := by simpa using hguard
    rw [hnone]
    cases hrelease : releaseFrom o e with
    | none => rfl
    | some e' => simpa using hleft e' hrelease

/-- No two floating effects share an identity. -/
theorem Sound.id_injective (h : g.Sound) :
    ∀ e ∈ g.floating, ∀ f ∈ g.floating, e.id = f.id → e = f := by
  have hdistinct : (g.floating.map (·.id.val)).Nodup :=
    List.pairwise_map.mpr (h.orderly.numbered.imp Nat.ne_of_lt)
  intro e he f hf hid
  exact List.inj_on_of_nodup_map hdistinct he hf (congrArg _ hid)

theorem Sound.nodup_floating (h : g.Sound) : g.floating.Nodup := by
  refine h.orderly.numbered.imp ?_
  rintro e f hlt rfl
  exact Nat.lt_irrefl _ hlt

/-- Floating effects end one at a time. -/
theorem Sound.floating_removeFloating (h : g.Sound) (he : e ∈ g.floating) :
    (g.removeFloating e.id).floating = g.floating.erase e := by
  rw [h.nodup_floating.erase_eq_filter, removeFloating,
    Resolve.eraseP_eq_filter e.id h.orderly.numbered]
  refine List.filter_congr fun f hf => ?_
  rw [Bool.eq_iff_iff, decide_eq_true_eq, bne_iff_ne]
  exact not_congr ⟨h.id_injective f hf e he, congrArg _⟩

/-- An object without a shield that is used up keeps its other shields, and other objects keep
theirs. -/
theorem Sound.shields_removeFloating (h : g.Sound) (he : e ∈ g.shields o) (o' : ObjectId) :
    (g.removeFloating e.id).shields o' =
      if o = o' then (g.shields o').erase e else g.shields o' := by
  have hremoved : (g.removeFloating e.id).shields o' = (g.shields o').erase e := by
    unfold shields
    rw [h.floating_removeFloating (List.mem_of_mem_filter he), h.nodup_floating.erase_eq_filter,
      (h.nodup_floating.filter _).erase_eq_filter, List.filter_filter, List.filter_filter]
    exact List.filter_congr fun f _ => Bool.and_comm _ _
  rw [hremoved]
  split
  · rfl
  · next hne =>
    exact List.erase_of_not_mem fun hmem => hne (h.shields_apart he hmem)

theorem liesAt_of_lot {lots : ObjectId → Lot} {s : Seat} (hlots : g.lot = lots)
    (hthere : (lots o).zone? = some ⟨s, .battlefield⟩) : g.LiesAt o (.anyOf .battlefield) := by
  subst hlots
  exact ⟨_, hthere, rfl⟩

/-- A change to the facets of one object. -/
theorem lot_modify (hcontains : g.contains o = true) (F : Facets → Facets) :
    ({ g with objects := g.objects.modify o F } : Game).lot =
      Function.update g.lot o { g.lot o with facets := F (g.facets o) } := by
  have hpresent (o' : ObjectId) := SortedMap.contains_modify g.objects o o' F
  refine Function.eq_update_iff.mpr ⟨?_, fun o' hne => ?_⟩
  · exact Lot.ext (hpresent o) rfl (facets_modify_self hcontains) rfl
  · exact Lot.ext (hpresent o') rfl (facets_modify_of_ne (Ne.symm hne)) rfl

theorem lot_setFacet {f : Facet} {u : Unit} (h : setFacet o f g = .ok u g') :
    g'.lot = Function.update g.lot o { g.lot o with facets := (g.facets o).insert f } := by
  obtain ⟨hcontains, rfl⟩ := setFacet_eq_ok h
  exact lot_modify hcontains (·.insert f)

theorem lot_eraseFacets (hcontains : g.contains o = true) (kinds : List FacetKind) :
    (g.eraseFacets o kinds).lot = Function.update g.lot o ((g.lot o).without kinds) := by
  induction kinds generalizing g with
  | nil => exact (Function.update_eq_self o g.lot).symm
  | cons kind rest ih =>
    have herased : (g.eraseFacet o kind).lot =
        Function.update g.lot o ((g.lot o).without [kind]) := lot_modify hcontains (·.erase kind)
    have hstill : (g.eraseFacet o kind).contains o = true :=
      (SortedMap.contains_modify _ _ _ _).trans hcontains
    change ((g.eraseFacet o kind).eraseFacets o rest).lot = _
    rw [ih hstill, herased, Function.update_self, Function.update_idem]
    rfl

/-- The first shield of an object is used up. -/
theorem Sound.lot_removeFloating {rest : List FloatingEffect} (h : g.Sound)
    (hshields : g.shields o = e :: rest) :
    (g.removeFloating e.id).lot = Function.update g.lot o (g.lot o).unshielded := by
  have he : e ∈ g.shields o := by simp [hshields]
  refine Function.eq_update_iff.mpr ⟨Lot.ext rfl rfl rfl ?_, fun o' hne => Lot.ext rfl rfl rfl ?_⟩
  · change (g.removeFloating e.id).shields o = (g.shields o).tail
    rw [h.shields_removeFloating he, if_pos rfl, hshields, List.erase_cons_head, List.tail_cons]
  · change (g.removeFloating e.id).shields o' = g.shields o'
    rw [h.shields_removeFloating he, if_neg (Ne.symm hne)]

theorem lot_leaveBattlefield (hcontains : g.contains o = true)
    (hshields : ∀ o', o ≠ o' → (g.leaveBattlefield o).shields o' = g.shields o') :
    (g.leaveBattlefield o).lot = Function.update g.lot o (g.lot o).released := by
  have hfloating : (g.leaveBattlefield o).floating = g.floating.filterMap (releaseFrom o) := by
    rw [leaveBattlefield_frame]
  have herased : (g.eraseFacets o permanentFacets).facets o =
      ((g.lot o).without permanentFacets).facets := by
    have hlot := congrFun (lot_eraseFacets hcontains permanentFacets) o
    rw [Function.update_self] at hlot
    exact congrArg Lot.facets hlot
  refine Function.eq_update_iff.mpr ⟨?_, fun o' hne => ?_⟩
  · rw [lot, contains_leaveBattlefield, zone?_leaveBattlefield, facets_leaveBattlefield_self,
      shields_release_self hfloating, herased]
    by_cases htoken : g.has o .token = true
    · rw [if_pos ⟨htoken, rfl⟩, if_pos ⟨htoken, rfl⟩, if_pos htoken]
      exact (if_pos htoken).symm
    · rw [if_neg fun hthis => htoken hthis.1, if_neg fun hthis => htoken hthis.1, if_neg htoken]
      exact (if_neg htoken).symm
  · rw [lot, contains_leaveBattlefield, zone?_leaveBattlefield,
      facets_leaveBattlefield_of_ne (Ne.symm hne), hshields o' (Ne.symm hne),
      if_neg fun hthis => hne hthis.2.symm, if_neg fun hthis => hne hthis.2.symm]
    rfl

/-- A permanent leaves the battlefield. -/
theorem Sound.lot_move {s : Seat} {kind : ZoneKind} {p : Position} {controller : Option Seat}
    (h : g.Sound) (hkind : kind ≠ .battlefield)
    (hmove : Game.move o ⟨s, kind⟩ p controller g = .ok ⟨s, .battlefield⟩ g') :
    g'.lot = Function.update g.lot o ((g.lot o).departed kind) := by
  obtain ⟨zones, hzones, ⟨-, -, rfl⟩ | ⟨hiff, -⟩ | ⟨hfrom, -⟩⟩ := move_eq_ok hmove
  · have hzone : g.zone? o = some ⟨s, .battlefield⟩ := Zones.zone?_of_move hzones
    have hcontains : g.contains o = true := h.housed.contains_of_zone? hzone
    have hmoved : ({ g with zones } : Game).lot =
        Function.update g.lot o { g.lot o with zone? := some ⟨s, kind⟩ } := by
      refine Function.eq_update_iff.mpr ⟨?_, fun o' hne => ?_⟩
      · exact Lot.ext rfl ((Zones.zone?_move hzones o).trans (if_pos rfl)) rfl rfl
      · exact Lot.ext rfl ((Zones.zone?_move hzones o').trans (if_neg (Ne.symm hne))) rfl rfl
    have hleft : (({ g with zones } : Game).leaveBattlefield o).lot = _ :=
      lot_leaveBattlefield hcontains fun o' hne => h.shields_release_of_ne
        (by rw [leaveBattlefield_frame]) hne
    rw [hleft, hmoved, Function.update_self, Function.update_idem, Lot.departed, lot, hzone]
    rfl
  · exact absurd (hiff.mp rfl) hkind
  · exact absurd rfl hfrom

/-- A shield is on a permanent until end of turn, and works all the time. -/
theorem Sound.isActive_of_mem_shields (h : g.Sound) : ∀ e ∈ g.shields o, g.isActive e = true := by
  intro e he
  obtain ⟨hmem, hchange, hcontains⟩ := mem_shields.mp he
  have hpermanent : e.affected.toList.any g.onBattlefield = true :=
    List.any_eq_true.mpr ⟨o, SortedSet.mem_toList_iff.mpr hcontains,
      h.orderly.present e hmem o hcontains⟩
  rw [isActive, hpermanent, h.orderly.shielding e hmem hchange]
  rfl

/-- A sweep leaves shields alone. -/
theorem Sound.lot_sweep (h : g.Sound) : g.sweep.1.lot = g.lot := by
  refine funext fun o => Lot.ext rfl rfl rfl ?_
  have hswept : g.sweep.1.shields o = (g.shields o).filter g.isActive := by
    simp only [shields, sweep, expire, List.filter_filter, Bool.and_comm]
  exact hswept.trans (List.filter_eq_self.mpr h.isActive_of_mem_shields)

end Game

namespace Resolve

variable {o : ObjectId} {s : Seat} {lots : ObjectId → Game.Lot} {c : Characteristics}

/-- The oldest shield of a permanent is the first one, where shields are listed by age. -/
theorem shield?_eq_head? {g : Game}
    (hordered : (g.shields o).Pairwise fun e f => e.timestamp < f.timestamp) :
    shield? g o = (g.shields o).head? := by
  have holdest (e : FloatingEffect) (rest : List FloatingEffect)
      (hrest : ∀ f ∈ rest, e.timestamp < f.timestamp) : rest.foldl older e = e := by
    induction rest with
    | nil => rfl
    | cons f rest ih =>
      have hfirst : older e f = e := if_neg (Nat.lt_asymm (hrest f List.mem_cons_self))
      rw [List.foldl_cons, hfirst]
      exact ih fun f hf => hrest f (List.mem_cons_of_mem _ hf)
  cases hshields : g.shields o with
  | nil =>
    unfold Game.shields at hshields
    rw [shield?, hshields]
    rfl
  | cons e rest =>
    rw [hshields] at hordered
    unfold Game.shields at hshields
    rw [shield?, hshields]
    exact congrArg some (holdest e rest (List.pairwise_cons.mp hordered).1)

theorem succeeds_requirePermanent_lot (hthere : (lots o).zone? = some ⟨s, .battlefield⟩) :
    Succeeds (·.lot = lots) (requireIn o .battlefield) fun _ => (·.lot = lots) :=
  (succeeds_requireIn .battlefield).of_pre fun _ hlots =>
    ⟨Game.liesAt_of_lot hlots hthere, hlots⟩

theorem succeeds_tap_lot (hthere : (lots o).zone? = some ⟨s, .battlefield⟩) :
    Succeeds (·.lot = lots) (tap o) fun _ => (·.lot = Function.update lots o (lots o).tapped) := by
  refine .bind (succeeds_requirePermanent_lot hthere) fun _ => .look ?_
  rintro g hfurnished rfl
  have hcontains : g.contains o = true := hfurnished.sound.housed.contains_of_zone? hthere
  refine .ite ?_ ?_
  · intro huntapped
    have hbare : ¬g.has o .tapped = true := by simpa using huntapped
    have htapped : (g.lot o).tapped = { g.lot o with facets := (g.facets o).insert .tapped } :=
      congrArg (fun fs => { g.lot o with facets := fs }) (if_neg hbare)
    rw [htapped]
    refine .bind (.edit ?_) fun _ => .emit _
    rintro g - rfl
    have hset : Game.setFacet o .tapped g =
        .ok () { g with objects := g.objects.modify o (·.insert .tapped) } := if_pos hcontains
    exact ⟨(), _, hset, .mark .tapped (Game.onBattlefield_iff.mpr ⟨s, hthere⟩) hset,
      Game.lot_setFacet hset⟩
  · intro hnot
    have hmarked : g.has o .tapped = true := by simpa using hnot
    have htapped : (g.lot o).tapped = g.lot o :=
      congrArg (fun fs => { g.lot o with facets := fs }) (if_pos hmarked)
    rw [htapped, Function.update_eq_self]
    refine .pure _ ?_
    rintro g rfl
    rfl

/-- A permanent that regenerates uses up its oldest shield. -/
theorem succeeds_regenerate_lot (hthere : (lots o).zone? = some ⟨s, .battlefield⟩)
    (hordered : (lots o).shields.Pairwise fun e f => e.timestamp < f.timestamp) :
    Succeeds (·.lot = lots) (regenerate o) fun _ =>
      (·.lot = Function.update lots o (lots o).regenerated) := by
  -- what is left to do once the shield is gone
  have hcalm : Succeeds (·.lot = Function.update lots o (lots o).unshielded) (do
      tap o
      update (·.eraseFacets o [.damage, .attacking, .blocking, .blocked])
      emit (.regenerated o)) fun _ => (·.lot = Function.update lots o (lots o).regenerated) := by
    have hstill : (Function.update lots o (lots o).unshielded o).zone? =
        some ⟨s, .battlefield⟩ := by
      rw [Function.update_self]
      exact hthere
    refine .bind (succeeds_tap_lot hstill) fun _ => .bind (.update ?_) fun _ => .emit _
    intro g hfurnished hlots
    rw [Function.update_self, Function.update_idem] at hlots
    obtain ⟨z, hzone, -⟩ := Game.liesAt_of_lot (o := o) (s := s) hlots (by
      rw [Function.update_self]
      exact hthere)
    have hcontains : g.contains o = true := hfurnished.sound.housed.contains_of_zone? hzone
    refine ⟨.unmark g o _ (by simp [Game.statusFacets]), ?_⟩
    rw [Game.lot_eraseFacets hcontains, hlots, Function.update_self, Function.update_idem]
    rfl
  refine .look ?_
  rintro g - rfl
  rw [shield?_eq_head? hordered]
  cases hshields : g.shields o with
  | nil =>
    have hbare : (g.lot o).unshielded = g.lot o :=
      Game.Lot.ext rfl rfl rfl (by
        change (g.shields o).tail = g.shields o
        rw [hshields]
        rfl)
    rw [hbare, Function.update_eq_self] at hcalm
    refine hcalm.of_pre ?_
    rintro g - rfl
    rfl
  | cons e rest =>
    refine .bind (.update ?_) fun _ => .bind (.emit _) fun _ => hcalm
    rintro g hfurnished rfl
    exact ⟨.unfloat g e.id, hfurnished.sound.lot_removeFloating hshields⟩

/-- A permanent that dies leaves for its owner's zone. -/
theorem succeeds_die_lot (hthere : (lots o).zone? = some ⟨s, .battlefield⟩) :
    Succeeds (·.lot = lots) (die o c) fun _ => (·.lot = Function.update lots o
      ((lots o).departed (if c.exileOnDeath then .exile else .graveyard))) := by
  have hkind : (if c.exileOnDeath then ZoneKind.exile else .graveyard) ≠ .battlefield := by
    split <;> decide
  unfold die
  generalize (if c.exileOnDeath then ZoneKind.exile else .graveyard) = kind at hkind
  have howner : Succeeds (·.lot = lots) (owner o) fun s' g => s' = s ∧ g.lot = lots := by
    refine (succeeds_owner (P := (·.lot = lots))).mono ?_ ?_
    · rintro g - rfl
      exact ⟨⟨_, hthere⟩, rfl⟩
    · rintro s' g ⟨⟨kind', hzone⟩, rfl⟩
      cases hzone.symm.trans hthere
      exact ⟨rfl, rfl⟩
  have hedit : Succeeds (·.lot = lots) (edit (Game.move o ⟨s, kind⟩ .top none)) fun _ =>
      (·.lot = Function.update lots o ((lots o).departed kind)) := by
    refine .edit ?_
    rintro g hfurnished rfl
    obtain ⟨g', hmoved⟩ := hfurnished.exists_move hthere kind .top none
    change Game.move o ⟨s, kind⟩ .top none g = .ok ⟨s, .battlefield⟩ g' at hmoved
    have howner : (⟨s, .battlefield⟩ : Zone).owner = (⟨s, kind⟩ : Zone).owner := rfl
    exact ⟨_, g', hmoved, .move howner hmoved, hfurnished.sound.lot_move hkind hmoved⟩
  have hmove : Succeeds (·.lot = lots) (moveTo o ⟨s, kind⟩ .top none) fun _ =>
      (·.lot = Function.update lots o ((lots o).departed kind)) := by
    refine .bind hedit fun _ => .bind (.emit _) fun _ => .look fun g _ hlots => .ite ?_ ?_
    · intro hceased
      refine .bind (.emit _) fun _ => .pure _ ?_
      rintro g rfl
      exact hlots
    · intro hexists
      refine .pure _ ?_
      rintro g rfl
      exact hlots
  refine .bind (.bind howner fun s' => .assuming ?_) fun _ => .pure _ id
  rintro g - ⟨rfl, rfl⟩
  refine hmove.of_pre ?_
  rintro g - rfl
  rfl

/-- What destroying a permanent makes of the lots: the permanent's lot changes as it has to, and no
other. -/
theorem succeeds_destroy_lot (h : (lots o).InPlay) :
    Succeeds (·.lot = lots) (destroy o c) fun _ =>
      (·.lot = Function.update lots o ((lots o).destroyed c)) := by
  obtain ⟨⟨s, hthere⟩, hordered⟩ := h
  refine .bind (succeeds_requirePermanent_lot hthere) fun _ => ?_
  unfold Game.Lot.destroyed
  cases hkept : c.hasKeyword .indestructible with
  | true =>
    rw [if_pos rfl, if_pos rfl, Function.update_eq_self]
    exact .pure _ id
  | false =>
    rw [if_neg Bool.false_ne_true, if_neg Bool.false_ne_true]
    by_cases hshielded : 0 < c.regenerationShields
    · rw [if_pos hshielded, if_pos hshielded]
      exact .bind (succeeds_regenerate_lot hthere hordered) fun _ => .pure _ id
    · rw [if_neg hshielded, if_neg hshielded]
      exact .bind (.emit _) fun _ => .bind (succeeds_die_lot hthere) fun _ => .pure _ id

/-- Different permanents that are destroyed one after the other, each under characteristics that
were settled before, all fare as if it were the only one. -/
theorem succeeds_destroyEach_lot {v : View} {os : List ObjectId} (honce : os.Nodup)
    (hplay : ∀ o ∈ os, (lots o).InPlay)
    (hshown : ∀ o ∈ os, ∃ c, v.projection.bind (·.find? o) = some c) :
    Succeeds (·.lot = lots) (os.forM fun o => do let _ ← destroy o (← characteristics v o))
      fun _ => (·.lot = fun o => if o ∈ os then
        (v.projection.bind (·.find? o)).elim (lots o) (lots o).destroyed else lots o) := by
  induction os generalizing lots with
  | nil => exact .pure _ fun hlots => by simpa using hlots
  | cons o rest ih =>
    obtain ⟨hnot, hrest⟩ := List.nodup_cons.mp honce
    obtain ⟨hfirst, hlater⟩ := List.forall_mem_cons.mp hplay
    obtain ⟨⟨c, hdecides⟩, hothers⟩ := List.forall_mem_cons.mp hshown
    have hround : Succeeds (·.lot = lots)
        (do let _ ← destroy o (← characteristics v o) : Resolve PUnit) fun _ =>
        (·.lot = Function.update lots o ((lots o).destroyed c)) := by
      have hread : characteristics v o = pure c := by
        unfold characteristics
        rw [hdecides]
      rw [hread, pure_bind]
      exact .bind (succeeds_destroy_lot hfirst) fun _ => .pure _ id
    -- the rest of the loop finds its permanents as they were
    have hstill : ∀ o' ∈ rest,
        (Function.update lots o ((lots o).destroyed c) o').InPlay := by
      intro o' ho'
      rw [Function.update_of_ne (ne_of_mem_of_not_mem ho' hnot)]
      exact hlater o' ho'
    refine .bind hround fun _ => (ih hrest hstill hothers).mono (fun _ => id) ?_
    intro _ g hlots
    refine hlots.trans (funext fun o' => ?_)
    by_cases hsame : o' = o
    · subst hsame
      rw [if_neg hnot, if_pos List.mem_cons_self, Function.update_self, hdecides]
      rfl
    · simp only [List.mem_cons, hsame, false_or, Function.update_of_ne hsame]

end Resolve

end CardGame
