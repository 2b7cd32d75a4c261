import CardGame.Proofs.Play.Arranged
import CardGame.Proofs.Play.Waiting
import CardGame.Proofs.Resolve.Destroying

/-!
Mass destruction. The permanents are destroyed one after the other, but what becomes of each is
decided by the projection of the game before, so that they fare as if all of them were destroyed at
once (`Game.Arranged.destroyedAll`).
-/

namespace CardGame

open Resolve

namespace Game

/-- A permanent has used up its oldest shield: it stays where it is, tapped, unhurt and out of
combat, and is otherwise what it was. -/
structure Regenerates (g g' : Game) (o : ObjectId) : Prop where
  present : g'.contains o = g.contains o
  stays : g'.zone? o = g.zone? o
  oldest : ∃ e ∈ g.shields o, (∀ f ∈ g.shields o, f ≠ e → e.timestamp < f.timestamp) ∧
    g'.shields o = (g.shields o).erase e
  tapped : g'.has o .tapped = true
  calm : ∀ kind ∈ [.damage, .attacking, .blocking, .blocked], g'.has o kind = false
  others : ∀ kind ∉ [.tapped, .damage, .attacking, .blocking, .blocked],
    (g'.facets o).byKind.find? kind = (g.facets o).byKind.find? kind

/-- A permanent has left the battlefield, for its owner's zone of a kind or, as a token, for good.
What is known of it only as a permanent is forgotten. -/
structure Perishes (g g' : Game) (o : ObjectId) (kind : ZoneKind) : Prop where
  leaves : g'.onBattlefield o = false
  unshielded : g'.shields o = []
  ceases : g.has o .token = true → g'.contains o = false ∧ g'.zone? o = none
  moves : g.has o .token = false →
    ∃ s, g.owner? o = some s ∧ g'.contains o = true ∧ g'.zone? o = some ⟨s, kind⟩
  keeps : g.has o .token = false → ∀ kind, (g'.facets o).byKind.find? kind =
    if kind ∈ permanentFacets then none else (g.facets o).byKind.find? kind

/-- A permanent has been destroyed, as its characteristics decide. -/
structure Destroys (g g' : Game) (o : ObjectId) (c : Characteristics) : Prop where
  spares : c.hasKeyword .indestructible = true → g'.lot o = g.lot o
  regenerates : c.hasKeyword .indestructible = false → 0 < c.regenerationShields →
    g.Regenerates g' o
  perishes : c.hasKeyword .indestructible = false → c.regenerationShields = 0 →
    g.Perishes g' o (if c.exileOnDeath then .exile else .graveyard)

variable {g g' : Game} {o : ObjectId}

theorem regenerates_of_lot (hplay : (g.lot o).InPlay) (hshields : g.shields o ≠ [])
    (hlot : g'.lot o = (g.lot o).regenerated) : g.Regenerates g' o := by
  have hfind (kind : FacetKind) : (g'.facets o).byKind.find? kind =
      if kind ∈ [.damage, .attacking, .blocking, .blocked] then none
      else (g.lot o).unshielded.tapped.facets.byKind.find? kind := by
    rw [← Lot.find?_without]
    exact congrArg (fun l : Lot => l.facets.byKind.find? kind) hlot
  have hhas (kind : FacetKind) : g'.has o kind = ((g'.facets o).byKind.find? kind).isSome := rfl
  constructor
  · exact congrArg Lot.present hlot
  · exact congrArg Lot.zone? hlot
  · cases hlisted : g.shields o with
    | nil => exact absurd hlisted hshields
    | cons e rest =>
      have hordered : (e :: rest).Pairwise fun e f => e.timestamp < f.timestamp :=
        hlisted ▸ hplay.ordered
      refine ⟨e, List.mem_cons_self, ?_, ?_⟩
      · refine List.forall_mem_cons.mpr ⟨fun hne => absurd rfl hne, fun f hf _ => ?_⟩
        exact List.rel_of_pairwise_cons hordered hf
      · refine (congrArg Lot.shields hlot).trans ?_
        change (g.shields o).tail = _
        rw [hlisted, List.erase_cons_head, List.tail_cons]
  · rw [hhas, hfind, if_neg (by decide)]
    exact Lot.has_tapped_tapped _
  · intro kind hkind
    rw [hhas, hfind, if_pos hkind]
    rfl
  · intro kind hkind
    obtain ⟨htapped, hcalm⟩ := not_or.mp (List.mem_cons.not.mp hkind)
    rw [hfind, if_neg hcalm, Lot.find?_tapped _ htapped]
    rfl

theorem perishes_of_lot {kind : ZoneKind} (h : g.Housed) (hplay : (g.lot o).InPlay)
    (hkind : kind ≠ .battlefield) (hlot : g'.lot o = (g.lot o).departed kind) :
    g.Perishes g' o kind := by
  obtain ⟨⟨s, hzone⟩, -⟩ := hplay
  have hleaves (hnowhere : (g'.zone? o).any (·.kind = .battlefield) = false) :
      g'.onBattlefield o = false := hnowhere
  cases htoken : g.has o .token with
  | true =>
    rw [Lot.departed_of_token (l := g.lot o) htoken] at hlot
    have hgone : g'.zone? o = none := congrArg Lot.zone? hlot
    constructor
    · exact hleaves (by rw [hgone]; rfl)
    · exact congrArg Lot.shields hlot
    · exact fun _ => ⟨congrArg Lot.present hlot, hgone⟩
    all_goals
      intro hnot
      rw [htoken] at hnot
      cases hnot
  | false =>
    rw [Lot.departed_of_card (l := g.lot o) (Bool.eq_false_iff.mp htoken), hzone] at hlot
    have hmoved : g'.zone? o = some ⟨s, kind⟩ := congrArg Lot.zone? hlot
    constructor
    · refine hleaves ?_
      rw [hmoved]
      simpa using hkind
    · exact congrArg Lot.shields hlot
    · intro hthis
      rw [htoken] at hthis
      cases hthis
    · exact fun _ => ⟨s, h.owner?_of_zone? hzone,
        (congrArg Lot.present hlot).trans (h.contains_of_zone? hzone), hmoved⟩
    · intro _ kind'
      refine Eq.trans ?_ ((g.lot o).find?_without permanentFacets kind')
      exact congrArg (fun l : Lot => l.facets.byKind.find? kind') hlot

/-- A permanent with the lot of one that has been destroyed has been destroyed. -/
theorem Housed.destroys_of_lot {c : Characteristics} (h : g.Housed) (hplay : (g.lot o).InPlay)
    (hshields : 0 < c.regenerationShields → g.shields o ≠ [])
    (hlot : g'.lot o = (g.lot o).destroyed c) : g.Destroys g' o c := by
  unfold Lot.destroyed at hlot
  constructor
  · intro hkept
    rwa [if_pos hkept] at hlot
  · intro hkept hsome
    rw [if_neg (Bool.eq_false_iff.mp hkept), if_pos hsome] at hlot
    exact regenerates_of_lot hplay (hshields hsome) hlot
  · intro hkept hnone
    rw [if_neg (Bool.eq_false_iff.mp hkept), if_neg (by omega)] at hlot
    exact perishes_of_lot h hplay (by split <;> decide) hlot

end Game

variable {rules : Rules} {g : Game} {f : ObjectFilter} {ctx : Context}

namespace Game.Arranged

/-- A permanent's shields are listed by age. -/
theorem inPlay (h : g.Arranged) {o : ObjectId} (hthere : g.onBattlefield o = true) :
    (g.lot o).InPlay := by
  obtain ⟨s, hzone⟩ := Game.onBattlefield_iff.mp hthere
  have hordered := List.pairwise_map.mp h.dated.ordered
  exact ⟨⟨s, hzone⟩, hordered.sublist List.filter_sublist⟩

/-- A projection shows as many shields on a permanent as there are. -/
theorem shields_shown (h : g.Arranged) {o : ObjectId} {c : Characteristics}
    (hshown : SortedMap.find? (rules.project g) o = some c) :
    c.regenerationShields = (g.shields o).length := by
  have hplaced : ∀ e ∈ g.floating, e.modification = e.modification.change.placed := fun e he =>
    h.dated.placed _ (List.mem_map_of_mem he)
  have hcount := rules.shields?_project (h.sound.isActive_of_mem_shields (o := o)) hplaced
  rw [Projection.shields?, hshown] at hcount
  cases hbase : Characteristics.base? g o with
  | none =>
    rw [hbase] at hcount
    cases hcount
  | some b =>
    rw [hbase] at hcount
    exact Option.some.inj hcount

/-- What is to be destroyed is on the battlefield, and the projection shows it. -/
theorem exists_shown_of_mem (h : g.Arranged) {o : ObjectId}
    (ho : o ∈ (rules.view g).permanents f ctx.forFilter) :
    g.onBattlefield o = true ∧ ∃ c, SortedMap.find? (rules.project g) o = some c := by
  have hthere := h.sound.housed.onBattlefield_of_mem (List.mem_of_mem_filter ho)
  obtain ⟨s, hzone⟩ := Game.onBattlefield_iff.mp hthere
  exact ⟨hthere, h.carded.exists_shown h.sound.housed rules hzone⟩

end Game.Arranged

/-- Mass destruction does not fail, and every permanent fares as the projection before decides. -/
theorem Rules.execute_destroyAll (h : g.Arranged) (hidle : g.pending = none) (rules : Rules)
    (f : ObjectFilter) (ctx : Context) : ∃ g' es,
    rules.execute g (.removal (.destroyAll f)) ctx = .success g' es ∧
    g'.lot = fun o => if o ∈ (rules.view g).permanents f ctx.forFilter then
      (SortedMap.find? (rules.project g) o).elim (g.lot o) (g.lot o).destroyed else g.lot o := by
  have honce : ((rules.view g).permanents f ctx.forFilter).Nodup :=
    (h.sound.housed.nodup_allOf .battlefield).filter _
  have hloop := succeeds_destroyEach_lot (v := rules.view g) honce
    (fun o ho => h.inPlay (h.exists_shown_of_mem ho).1) fun o ho => (h.exists_shown_of_mem ho).2
  obtain ⟨u, q, hrun, hfurnished, hlots⟩ := hloop.runs (p := { game := g }) h.furnished rfl
  have hresolve : (Effect.removal (.destroyAll f)).resolve rules ctx { game := g } =
      .ok (.done, q) := by
    have hdestroyed : RemovalEffect.destroyMatching rules ctx f { game := g } = .ok (u, q) := by
      unfold RemovalEffect.destroyMatching
      rw [view_bind]
      exact hrun
    rw [Effect.resolve, RemovalEffect.resolve, bind_of_ok hdestroyed]
    rfl
  refine ⟨_, _, rules.execute_of_done hidle hresolve, ?_⟩
  exact hfurnished.sound.lot_sweep.trans hlots

/-- Mass destruction is simultaneous, in every game that comes up, with or without marks of the
scheduler. It succeeds, each permanent that the filter accepts is destroyed as the projection of the
game before decides, and nothing else is touched. What becomes of a permanent does not depend on
what else the filter accepts. -/
theorem Game.Arranged.destroyedAll (h : g.Arranged) (hidle : g.pending = none) (rules : Rules)
    (f : ObjectFilter) (ctx : Context) :
    let victims := (rules.view g).permanents f ctx.forFilter
    ∃ g' es, rules.execute g (.removal (.destroyAll f)) ctx = .success g' es ∧
      (∀ o ∈ victims, ∃ c, SortedMap.find? (rules.project g) o = some c ∧ g.Destroys g' o c) ∧
      (∀ o, o ∉ victims → g'.lot o = g.lot o) ∧
      ∀ (f' : ObjectFilter) (ctx' : Context), ∀ o ∈ victims,
        o ∈ (rules.view g).permanents f' ctx'.forFilter →
        (rules.execute g (.removal (.destroyAll f')) ctx').game.lot o = g'.lot o := by
  intro victims
  obtain ⟨g', es, hexecute, hlots⟩ := rules.execute_destroyAll h hidle f ctx
  have hlot (o : ObjectId) (ho : o ∈ victims) : g'.lot o =
      (SortedMap.find? (rules.project g) o).elim (g.lot o) (g.lot o).destroyed :=
    (congrFun hlots o).trans (if_pos ho)
  refine ⟨g', es, hexecute, fun o ho => ?_, fun o ho => (congrFun hlots o).trans (if_neg ho), ?_⟩
  · obtain ⟨hthere, c, hc⟩ := h.exists_shown_of_mem ho
    have hdestroyed := hlot o ho
    rw [hc, Option.elim_some] at hdestroyed
    refine ⟨c, hc, h.sound.housed.destroys_of_lot (h.inPlay hthere) (fun hsome => ?_) hdestroyed⟩
    rw [h.shields_shown hc] at hsome
    exact List.ne_nil_of_length_pos hsome
  · intro f' ctx' o ho ho'
    obtain ⟨g'', es', hexecute', hlots'⟩ := rules.execute_destroyAll h hidle f' ctx'
    rw [hexecute', hlot o ho]
    exact (congrFun hlots' o).trans (if_pos ho')

namespace Game

/-- A warden dies together with the other creatures, but what it made indestructible is spared. A
creature with two shields regenerates, one marked for exile is exiled, and a token ceases to
exist. -/
theorem destroyedAll_of_warden : ∃ g₀ g, start {} = .ok g₀ ∧
    let bear : CardDefinition := .creature ⟨7⟩ "Bear" 2 2
    let warden : CardDefinition := (CardDefinition.creature ⟨8⟩ "Warden" 2 2).withAbility
      (.grantKeyword (ObjectFilter.creature.controlledBy .opponent) .indestructible)
    let e : Effect := .composite [.continuous (.regenerate (.target 0)),
      .continuous (.regenerate (.target 0)), .continuous (.exileOnDeath (.target 1)),
      .library (.createToken (.creature "Wolf" 2 2) (.fixed 1) .you)]
    let prepared := (Move.execute {} e { targets := [⟨4⟩, ⟨5⟩] }).apply
      ((Move.spawn bear ⟨0⟩ .battlefield).apply ((Move.spawn bear ⟨0⟩ .battlefield).apply
        ((Move.spawn bear ⟨1⟩ .battlefield).apply ((Move.spawn warden ⟨0⟩ .battlefield).apply g₀))))
    g = { prepared with objects := prepared.objects.modify ⟨4⟩ (·.insert (.attacking ⟨1⟩)) } ∧
    g.pending = none ∧
    (Rules.view {} g).permanents .creature (Context.forFilter {}) = [⟨2⟩, ⟨4⟩, ⟨5⟩, ⟨6⟩, ⟨3⟩] ∧
    ∃ g' es, Rules.execute {} g (.removal (.destroyAll .creature)) {} = .success g' es ∧
      g.Perishes g' ⟨2⟩ .graveyard ∧ g'.lot ⟨3⟩ = g.lot ⟨3⟩ ∧ g.Regenerates g' ⟨4⟩ ∧
      g.Perishes g' ⟨5⟩ .exile ∧ g'.contains ⟨6⟩ = false := by
  have hfates (g : Game) (h : g.Arranged) (hidle : g.pending = none)
      (hvictims : (Rules.view {} g).permanents .creature (Context.forFilter {}) =
        [⟨2⟩, ⟨4⟩, ⟨5⟩, ⟨6⟩, ⟨3⟩])
      (hshown : ([⟨2⟩, ⟨3⟩, ⟨4⟩, ⟨5⟩, ⟨6⟩] : List ObjectId).map (fun o =>
        (SortedMap.find? (Rules.project {} g) o).map fun c =>
          (c.hasKeyword .indestructible, c.regenerationShields, c.exileOnDeath)) =
        [some (false, 0, false), some (true, 0, false), some (false, 2, false),
          some (false, 0, true), some (false, 0, false)])
      (htoken : g.has ⟨6⟩ .token = true) :
      ∃ g' es, Rules.execute {} g (.removal (.destroyAll .creature)) {} = .success g' es ∧
        g.Perishes g' ⟨2⟩ .graveyard ∧ g'.lot ⟨3⟩ = g.lot ⟨3⟩ ∧ g.Regenerates g' ⟨4⟩ ∧
        g.Perishes g' ⟨5⟩ .exile ∧ g'.contains ⟨6⟩ = false := by
    obtain ⟨g', es, hexecute, hdestroyed, -⟩ := h.destroyedAll hidle {} .creature {}
    rw [hvictims] at hdestroyed
    simp only [List.mem_cons, List.not_mem_nil, or_false, forall_eq_or_imp, forall_eq]
      at hdestroyed
    obtain ⟨⟨c₂, h₂, hwarden⟩, ⟨c₄, h₄, hattacker⟩, ⟨c₅, h₅, hmarked⟩, ⟨c₆, h₆, hwolf⟩,
      ⟨c₃, h₃, hspared⟩⟩ := hdestroyed
    simp only [List.map_cons, List.map_nil, h₂, h₃, h₄, h₅, h₆, Option.map_some, List.cons.injEq,
      Option.some.injEq, Prod.mk.injEq, and_true] at hshown
    obtain ⟨⟨hkept₂, hnone₂, hfate₂⟩, ⟨hkept₃, -⟩, ⟨hkept₄, hsome₄, -⟩, ⟨hkept₅, hnone₅, hfate₅⟩,
      ⟨hkept₆, hnone₆, -⟩⟩ := hshown
    have hperishes₂ := hwarden.perishes hkept₂ hnone₂
    have hperishes₅ := hmarked.perishes hkept₅ hnone₅
    rw [hfate₂] at hperishes₂
    rw [hfate₅] at hperishes₅
    exact ⟨g', es, hexecute, hperishes₂, hspared.spares hkept₃,
      hattacker.regenerates hkept₄ (by rw [hsome₄]; decide), hperishes₅,
      ((hwolf.perishes hkept₆ hnone₆).ceases htoken).1⟩
  have hspawned {g : Game} (card : CardDefinition) (s : Seat) (hs : s.index < g.seats)
      (h : g.Arranged) : ((Move.spawn card s .battlefield).apply g).Arranged := .move _ h hs
  have hcards := hspawned (.creature ⟨7⟩ "Bear" 2 2) ⟨0⟩ Nat.zero_lt_two
    (hspawned (.creature ⟨7⟩ "Bear" 2 2) ⟨0⟩ Nat.zero_lt_two
      (hspawned (.creature ⟨7⟩ "Bear" 2 2) ⟨1⟩ Nat.one_lt_two
        (hspawned ((CardDefinition.creature ⟨8⟩ "Warden" 2 2).withAbility
          (.grantKeyword (ObjectFilter.creature.controlledBy .opponent) .indestructible)) ⟨0⟩
          Nat.zero_lt_two (Arranged.start (s := {}) rfl))))
  have hmarked {g : Game} (h : g.Arranged) (ho : g.contains ⟨4⟩ = true) :
      ({ g with objects := g.objects.modify ⟨4⟩ (·.insert (.attacking ⟨1⟩)) } : Game).Arranged :=
    h.mark (.inr (by decide)) (if_pos ho)
  exact ⟨_, _, rfl, rfl, by decide +kernel, by decide +kernel,
    hfates _ (hmarked (.move (.execute _ _ _) hcards trivial) (by decide +kernel))
      (by decide +kernel) (by decide +kernel) (by decide +kernel) (by decide +kernel)⟩

end Game

end CardGame
