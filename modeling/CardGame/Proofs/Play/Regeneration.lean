import CardGame.Proofs.Play.MassDestruction
import CardGame.Proofs.Resolve.GivingUp

/-!
Regeneration. A blow against a permanent is an effect that destroys it. While the permanent has
shields every blow uses up the oldest one and nothing else, and the blow after the last shield takes
the permanent off the battlefield: as many blows are absorbed as the projection shows shields
(`Game.Arranged.shielded`).
-/

namespace CardGame

open Resolve

/-- An effect that destroys a permanent, with the context that it is executed in. -/
structure Blow where
  target : Reference
  ctx : Context := {}

namespace Blow

/-- The object that a blow names. -/
def victim? (b : Blow) : Option ObjectId := View.object? b.ctx b.target

/-- What comes of a blow. -/
def strike (rules : Rules) (g : Game) (b : Blow) : Result :=
  rules.execute g (.removal (.destroy b.target)) b.ctx

/-- The game after some blows, one after the other. -/
def strikeAll (rules : Rules) (g : Game) (blows : List Blow) : Game :=
  blows.foldl (fun g b => (b.strike rules g).game) g

end Blow

/-- Whether a projection shows a permanent as indestructible. -/
def Rules.isIndestructible (rules : Rules) (g : Game) (o : ObjectId) : Bool :=
  (SortedMap.find? (rules.project g) o).any (·.hasKeyword .indestructible)

namespace Game

/-- A permanent has been tapped, healed and taken out of combat. -/
def IsCalm (g : Game) (o : ObjectId) : Prop :=
  g.has o .tapped = true ∧ ∀ kind ∈ [.damage, .attacking, .blocking, .blocked], g.has o kind = false

/-- A permanent has absorbed a blow. Its oldest shield is used up, and no other floating effect that
works has ended; it stays where it is, tapped, unhurt and out of combat. -/
structure Absorbs (g g' : Game) (o : ObjectId) : Prop where
  stays : g'.zone? o = g.zone? o
  oldest : ∃ e ∈ g.shields o, (∀ f ∈ g.shields o, f ≠ e → e.timestamp < f.timestamp) ∧
    g'.floating = (g.floating.filter g.isActive).erase e ∧
    (g.Swept → g'.floating = g.floating.erase e)
  fewer : (g'.shields o).length + 1 = (g.shields o).length
  swept : g'.Swept
  calm : g'.IsCalm o

variable {g g' : Game} {o : ObjectId} {e : FloatingEffect}

/-- A permanent that regenerates stays where it is and keeps its host, so that the same floating
effects work. -/
theorem isActive_of_regenerated
    (hlots : g'.lot = Function.update g.lot o (g.lot o).regenerated) :
    g'.isActive = g.isActive := by
  have hzone (o' : ObjectId) : g'.zone? o' = g.zone? o' := by
    refine (congrArg Lot.zone? (congrFun hlots o')).trans ?_
    rw [Function.update_apply]
    split
    · next hsame =>
      rw [hsame]
      rfl
    · rfl
  refine isActive_congr hzone fun o' => ?_
  have hfacets : g'.facets o' = (Function.update g.lot o (g.lot o).regenerated o').facets :=
    congrArg Lot.facets (congrFun hlots o')
  rw [hfacets, Function.update_apply]
  split
  · next hsame =>
    subst hsame
    have hcalm := (g.lot o').unshielded.tapped.find?_without
      [.damage, .attacking, .blocking, .blocked] .attached
    rw [if_neg (by decide), Lot.find?_tapped _ (by decide)] at hcalm
    exact hcalm
  · rfl

end Game

namespace Resolve

variable {o : ObjectId} {c : Characteristics} {fs : List FloatingEffect}

/-- Regenerating ends the oldest shield and no other floating effect. -/
theorem succeeds_regenerate_floating {g : Game} {e : FloatingEffect} {rest : List FloatingEffect}
    (hthere : g.onBattlefield o = true) (hshields : g.shields o = e :: rest)
    (hordered : (g.shields o).Pairwise fun e f => e.timestamp < f.timestamp) :
    Succeeds (fun h => h = g) (regenerate o) fun _ h => h.floating = g.floating.erase e := by
  have he : e ∈ g.floating := List.mem_of_mem_filter (hshields ▸ List.mem_cons_self)
  refine .look ?_
  rintro g - rfl
  rw [shield?_eq_head? hordered, hshields]
  have hspend : Succeeds (fun h => h = g) (update (·.removeFloating e.id)) fun _ h =>
      h.LiesAt o (.anyOf .battlefield) ∧ h.floating = g.floating.erase e := by
    refine .update ?_
    rintro g hfurnished rfl
    exact ⟨.unfloat g e.id, Game.liesAt_battlefield_iff.mpr hthere,
      hfurnished.sound.floating_removeFloating he⟩
  have htap : Succeeds (fun h => h.LiesAt o (.anyOf .battlefield) ∧
      h.floating = g.floating.erase e) (tap o) fun _ h => h.floating = g.floating.erase e :=
    succeeds_tap fun _ _ => id
  have hcalm : Succeeds (fun h => h.floating = g.floating.erase e)
      (update (·.eraseFacets o [.damage, .attacking, .blocking, .blocked])) fun _ h =>
      h.floating = g.floating.erase e := by
    refine .update fun h _ hfloating => ⟨.unmark h o _ (by simp [Game.statusFacets]), ?_⟩
    rw [Game.eraseFacets_frame]
    exact hfloating
  exact .bind hspend fun _ => .bind (.emit _) fun _ => .bind htap fun _ =>
    .bind hcalm fun _ => .emit _

end Resolve

/-- A permanent that is named and that the projection shows is found. -/
theorem Resolve.permanent_of_shown {rules : Rules} {ctx : Context} {r : Reference} {o : ObjectId}
    {c : Characteristics} {p : Progress} (hfurnished : p.game.Furnished)
    (hthere : p.game.onBattlefield o = true) (hnames : View.object? ctx r = some o)
    (hshown : SortedMap.find? (rules.project p.game) o = some c) :
    permanent rules ctx r p = .ok ((o, c), p) := by
  have hobject : object ctx r p = .ok (o, p) := by
    unfold object
    rw [hnames]
    rfl
  have hrequire : requireIn o .battlefield p = .ok ((), p) :=
    requireIn_of_liesAt hfurnished (Game.liesAt_battlefield_iff.mpr hthere)
  have hfound : characteristics (rules.view p.game) o p = .ok (c, p) := by
    unfold characteristics
    rw [show (rules.view p.game).projection.bind (·.find? o) = some c from hshown]
    rfl
  unfold permanent
  rw [bind_of_ok hobject, bind_of_ok hrequire, view_bind, bind_of_ok hfound]
  rfl

namespace Game.Arranged

variable {rules : Rules} {g : Game} {o : ObjectId} {b : Blow} {c : Characteristics}

/-- A blow ends with a sweep after its victim is destroyed as the projection decides. -/
theorem strike_of_succeeds {Q : Game → Prop} (h : g.Arranged) (hidle : g.pending = none)
    (hthere : g.onBattlefield o = true) (hhits : b.victim? = some o)
    (hshown : SortedMap.find? (rules.project g) o = some c)
    (hdestroy : Succeeds (fun h => h = g) (destroy o c) fun _ => Q) :
    ∃ g' es, b.strike rules g = .success g'.sweep.1 es ∧ g'.Furnished ∧ Q g' := by
  have hpermanent : permanent rules b.ctx b.target { game := g } = .ok ((o, c), { game := g }) :=
    permanent_of_shown h.furnished hthere hhits hshown
  obtain ⟨destroyed, q, hrun, hfurnished, hQ⟩ := hdestroy.runs (p := { game := g }) h.furnished rfl
  have hresolve : (Effect.removal (.destroy b.target)).resolve rules b.ctx { game := g } =
      .ok (.done, q) := by
    rw [Effect.resolve, RemovalEffect.resolve, bind_of_ok hpermanent]
    exact (bind_of_ok hrun).trans rfl
  exact ⟨q.game, _, rules.execute_of_done hidle hresolve, hfurnished, hQ⟩

/-- A blow is absorbed by a permanent with shields. -/
theorem strike_absorbed (h : g.Arranged) (hidle : g.pending = none)
    (hthere : g.onBattlefield o = true) (hhits : b.victim? = some o)
    (hshown : SortedMap.find? (rules.project g) o = some c)
    (hmortal : c.hasKeyword .indestructible = false) (hshielded : 0 < c.regenerationShields) :
    ∃ g' es, b.strike rules g = .success g' es ∧ g.Absorbs g' o := by
  have hplay := h.inPlay hthere
  have hcount := h.shields_shown hshown
  obtain ⟨e, rest, hshields⟩ : ∃ e rest, g.shields o = e :: rest :=
    List.exists_cons_of_length_pos (hcount ▸ hshielded)
  have hordered : (e :: rest).Pairwise fun e f => e.timestamp < f.timestamp :=
    hshields ▸ hplay.ordered
  have hdestroy : Succeeds (fun h => h = g) (destroy o c) fun _ h =>
      h.floating = g.floating.erase e ∧
        h.lot = Function.update g.lot o (g.lot o).regenerated := by
    obtain ⟨s, hzone⟩ := hplay.placed
    have hlots : Succeeds (fun h => h = g) (regenerate o) fun _ h =>
        h.lot = Function.update g.lot o (g.lot o).regenerated :=
      (succeeds_regenerate_lot hzone hplay.ordered).of_pre fun _ heq => congrArg lot heq
    have hregenerate := (succeeds_regenerate_floating hthere hshields hplay.ordered).and hlots
    have hrequire : Succeeds (fun h => h = g) (requireIn o .battlefield) fun _ h => h = g :=
      (succeeds_requireIn .battlefield).of_pre fun _ heq =>
        ⟨heq ▸ liesAt_battlefield_iff.mpr hthere, heq⟩
    refine .bind hrequire fun _ => ?_
    rw [if_neg (Bool.eq_false_iff.mp hmortal), if_pos hshielded]
    exact .bind hregenerate fun _ => .pure _ id
  obtain ⟨g', es, hstrike, hfurnished, hfloating, hlots⟩ :=
    h.strike_of_succeeds hidle hthere hhits hshown hdestroy
  have hswept : g'.sweep.1.lot = g'.lot := hfurnished.sound.lot_sweep
  have hregenerates : g.Regenerates g'.sweep.1 o := by
    refine regenerates_of_lot hplay (hshields ▸ List.cons_ne_nil _ _) ?_
    rw [hswept, hlots, Function.update_self]
  refine ⟨g'.sweep.1, es, hstrike, hregenerates.stays, ?_, ?_, ?_,
    hregenerates.tapped, hregenerates.calm⟩
  · have hleft : g'.sweep.1.floating = (g.floating.filter g.isActive).erase e := by
      have hdistinct := h.sound.nodup_floating
      change g'.floating.filter g'.isActive = _
      rw [hfloating, isActive_of_regenerated hlots, hdistinct.erase_eq_filter,
        (hdistinct.filter _).erase_eq_filter, List.filter_filter, List.filter_filter]
      exact List.filter_congr fun f _ => Bool.and_comm _ _
    refine ⟨e, hshields ▸ List.mem_cons_self, ?_, hleft, fun hswept => ?_⟩
    · rw [hshields]
      refine List.forall_mem_cons.mpr ⟨fun hne => absurd rfl hne, fun f hf _ => ?_⟩
      exact List.rel_of_pairwise_cons hordered hf
    · rwa [List.filter_eq_self.mpr hswept] at hleft
  · obtain ⟨e, he, -, hfewer⟩ := hregenerates.oldest
    rw [hfewer, List.length_erase_of_mem he]
    exact Nat.succ_pred_eq_of_pos (List.length_pos_of_mem he)
  · exact fun f hf => (List.mem_filter.mp hf).2

/-- A blow takes a permanent without shields off the battlefield. -/
theorem strike_lethal (h : g.Arranged) (hidle : g.pending = none)
    (hthere : g.onBattlefield o = true) (hhits : b.victim? = some o)
    (hshown : SortedMap.find? (rules.project g) o = some c)
    (hmortal : c.hasKeyword .indestructible = false) (hbare : c.regenerationShields = 0) :
    ∃ g' es, b.strike rules g = .success g' es ∧ g'.onBattlefield o = false := by
  have hplay := h.inPlay hthere
  have hdestroy : Succeeds (fun h => h = g) (destroy o c) fun _ h =>
      h.lot = Function.update g.lot o ((g.lot o).destroyed c) :=
    (succeeds_destroy_lot hplay).of_pre fun _ heq => congrArg lot heq
  obtain ⟨g', es, hstrike, hfurnished, hlots⟩ :=
    h.strike_of_succeeds hidle hthere hhits hshown hdestroy
  have hdestroys : g.Destroys g' o c := by
    refine h.sound.housed.destroys_of_lot hplay (fun hsome => ?_) ?_
    · exact absurd hbare hsome.ne'
    · rw [hlots, Function.update_self]
  exact ⟨g'.sweep.1, es, hstrike, (hdestroys.perishes hmortal hbare).leaves⟩

end Game.Arranged

namespace Game

/-- A permanent with so many shields in a game in which nobody is asked. -/
structure Stands (rules : Rules) (g : Game) (o : ObjectId) (k : Nat) : Prop where
  arranged : g.Arranged
  idle : g.pending = none
  there : g.onBattlefield o = true
  shown : (rules.project g).shields? o = some k

namespace Stands

variable {rules : Rules} {g : Game} {o : ObjectId} {b : Blow} {blows : List Blow} {k : Nat}

theorem exists_shown (h : g.Stands rules o k) (hmortal : rules.isIndestructible g o = false) :
    ∃ c, SortedMap.find? (rules.project g) o = some c ∧
      c.hasKeyword .indestructible = false ∧ c.regenerationShields = k := by
  obtain ⟨c, hshown, hk⟩ := Option.map_eq_some_iff.mp h.shown
  rw [Rules.isIndestructible, show SortedMap.find? (rules.project g) o = some c from hshown]
    at hmortal
  exact ⟨c, hshown, hmortal, hk⟩

/-- A blow costs one shield. -/
theorem strike (h : g.Stands rules o (k + 1)) (hhits : b.victim? = some o)
    (hmortal : rules.isIndestructible g o = false) :
    ∃ g' es, b.strike rules g = .success g' es ∧ g.Absorbs g' o ∧ g'.Stands rules o k := by
  obtain ⟨c, hshown, hkeyword, hcount⟩ := h.exists_shown hmortal
  obtain ⟨g', es, hstrike, habsorbs⟩ :=
    h.arranged.strike_absorbed h.idle h.there hhits hshown hkeyword (by omega)
  have hexecute : rules.execute g (.removal (.destroy b.target)) b.ctx = .success g' es := hstrike
  have harranged : g'.Arranged := by
    have hmove := Arranged.move (.execute rules (.removal (.destroy b.target)) b.ctx) h.arranged
      trivial
    rwa [Move.apply, hexecute] at hmove
  have hproper := rules.proper_execute h.arranged.sound h.arranged.poised
    (.removal (.destroy b.target)) b.ctx
  rw [hexecute] at hproper
  obtain ⟨s, hzone⟩ := onBattlefield_iff.mp h.there
  have hstays : g'.zone? o = some ⟨s, .battlefield⟩ := habsorbs.stays.trans hzone
  refine ⟨g', es, hstrike, habsorbs, harranged, hproper.2.1, onBattlefield_iff.mpr ⟨s, hstays⟩, ?_⟩
  obtain ⟨c', hshown'⟩ := harranged.carded.exists_shown harranged.sound.housed rules hstays
  have hfewer := habsorbs.fewer
  rw [← harranged.shields_shown hshown', ← h.arranged.shields_shown hshown, hcount] at hfewer
  rw [Projection.shields?, hshown', Option.map_some, Nat.succ.inj hfewer]

/-- The blow after the last shield takes the permanent off the battlefield. -/
theorem strike_last (h : g.Stands rules o 0) (hhits : b.victim? = some o)
    (hmortal : rules.isIndestructible g o = false) :
    ∃ g' es, b.strike rules g = .success g' es ∧ g'.onBattlefield o = false := by
  obtain ⟨c, hshown, hkeyword, hcount⟩ := h.exists_shown hmortal
  exact h.arranged.strike_lethal h.idle h.there hhits hshown hkeyword hcount

/-- What a permanent is like after no more blows than it had shields. -/
theorem strikeAll (h : g.Stands rules o k) (hhits : ∀ b ∈ blows, b.victim? = some o)
    (hmortal : ∀ i < blows.length,
      rules.isIndestructible (Blow.strikeAll rules g (blows.take i)) o = false)
    (hfew : blows.length ≤ k) :
    (Blow.strikeAll rules g blows).Stands rules o (k - blows.length) ∧
      (Blow.strikeAll rules g blows).zone? o = g.zone? o ∧
      (blows ≠ [] → (Blow.strikeAll rules g blows).IsCalm o) := by
  induction blows generalizing g k with
  | nil => exact ⟨h, rfl, fun hnone => absurd rfl hnone⟩
  | cons b rest ih =>
    obtain ⟨hfirst, hrest⟩ := List.forall_mem_cons.mp hhits
    obtain ⟨k, rfl⟩ := Nat.exists_eq_add_one_of_ne_zero
      (Nat.ne_of_gt (Nat.lt_of_lt_of_le (Nat.succ_pos rest.length) hfew))
    obtain ⟨g', es, hstrike, habsorbs, hstands⟩ := h.strike hfirst (hmortal 0 (Nat.succ_pos _))
    have hstep (bs : List Blow) :
        Blow.strikeAll rules g (b :: bs) = Blow.strikeAll rules g' bs := by
      rw [Blow.strikeAll, List.foldl_cons, hstrike]
      rfl
    obtain ⟨hlater, hzone, hcalm⟩ := ih hstands hrest
      (fun i hi => hstep (rest.take i) ▸ hmortal (i + 1) (Nat.succ_lt_succ hi))
      (Nat.le_of_succ_le_succ hfew)
    rw [hstep]
    refine ⟨?_, hzone.trans habsorbs.stays, fun _ => ?_⟩
    · rwa [List.length_cons, Nat.add_sub_add_right]
    · cases rest with
      | nil => exact habsorbs.calm
      | cons b' rest => exact hcalm (List.cons_ne_nil _ _)

end Stands

variable {g : Game}

/-- A permanent with so many shields withstands as many blows and no more, in every game that comes
up, with or without marks of the scheduler, as long as it is not shown as indestructible. Each of
those blows succeeds and uses up the oldest shield that is left, and no other floating effect ends
that works. The permanent stays on the battlefield with the shields that are left, tapped, unhurt
and out of combat, until one blow more succeeds in taking it off. -/
theorem Arranged.shielded (h : g.Arranged) (hidle : g.pending = none) (rules : Rules)
    {o : ObjectId} {k : Nat} (hthere : g.onBattlefield o = true)
    (hshields : (rules.project g).shields? o = some k) {blows : List Blow}
    (hhits : ∀ b ∈ blows, b.victim? = some o)
    (hmortal : ∀ i < blows.length,
      rules.isIndestructible (Blow.strikeAll rules g (blows.take i)) o = false) :
    let after (i : Nat) := Blow.strikeAll rules g (blows.take i)
    (∀ (i : Nat) (hi : i < blows.length), i < k →
      (∃ es, blows[i].strike rules (after i) = .success (after (i + 1)) es) ∧
        (after i).Absorbs (after (i + 1)) o) ∧
    (∀ i ≤ blows.length, i ≤ k → (after i).onBattlefield o = true ∧
      (after i).zone? o = g.zone? o ∧ (rules.project (after i)).shields? o = some (k - i) ∧
      (0 < i → (after i).IsCalm o)) ∧
    ∀ hk : k < blows.length, (∃ es, blows[k].strike rules (after k) = .success (after (k + 1)) es) ∧
      (after (k + 1)).onBattlefield o = false := by
  intro after
  have hstands : g.Stands rules o k := ⟨h, hidle, hthere, hshields⟩
  have hafter (i : Nat) (hi : i ≤ blows.length) (hik : i ≤ k) :
      (after i).Stands rules o (k - i) ∧ (after i).zone? o = g.zone? o ∧
        (0 < i → (after i).IsCalm o) := by
    have hlength : (blows.take i).length = i := List.length_take_of_le hi
    have hhits' : ∀ b ∈ blows.take i, b.victim? = some o :=
      fun b hb => hhits b (List.mem_of_mem_take hb)
    obtain ⟨hlater, hzone, hcalm⟩ := hstands.strikeAll hhits'
      (fun j hj => by
        rw [List.take_take, Nat.min_eq_left (by omega)]
        exact hmortal j (by omega))
      (hlength.le.trans hik)
    rw [hlength] at hlater
    refine ⟨hlater, hzone, fun hpositive => hcalm fun hnone => ?_⟩
    rw [hnone] at hlength
    exact absurd hlength hpositive.ne
  have hstep (i : Nat) (hi : i < blows.length) :
      after (i + 1) = (blows[i].strike rules (after i)).game := by
    change Blow.strikeAll rules g (blows.take (i + 1)) = _
    rw [List.take_succ_eq_append_getElem hi, Blow.strikeAll, List.foldl_append]
    rfl
  refine ⟨fun i hi hik => ?_, fun i hi hik => ?_, fun hk => ?_⟩
  · obtain ⟨hlater, -⟩ := hafter i hi.le hik.le
    rw [show k - i = (k - i - 1) + 1 by omega] at hlater
    obtain ⟨g', es, hstrike, habsorbs, -⟩ :=
      hlater.strike (hhits _ (List.getElem_mem hi)) (hmortal i hi)
    rw [hstep i hi, hstrike]
    exact ⟨⟨es, rfl⟩, habsorbs⟩
  · obtain ⟨hlater, hzone, hcalm⟩ := hafter i hi hik
    exact ⟨hlater.there, hzone, hlater.shown, hcalm⟩
  · obtain ⟨hlater, -⟩ := hafter k hk.le le_rfl
    rw [Nat.sub_self] at hlater
    obtain ⟨g', es, hstrike, hleft⟩ :=
      hlater.strike_last (hhits _ (List.getElem_mem hk)) (hmortal k hk)
    rw [hstep k hk, hstrike]
    exact ⟨⟨es, rfl⟩, hleft⟩

/-- A pumped attacker with two shields withstands two blows, keeps the bonus, and dies of the
third. -/
theorem shielded_of_attacker : ∃ g₀ g, start {} = .ok g₀ ∧
    let bear : CardDefinition := .creature ⟨7⟩ "Bear" 2 2
    let e : Effect := .composite [.continuous (.regenerate (.target 0)),
      .continuous (.modifyStats (.target 0) (.fixed 1) (.fixed 1) .endOfTurn),
      .continuous (.regenerate (.target 0))]
    let prepared := (Move.execute {} e { targets := [⟨2⟩] }).apply
      ((Move.spawn bear ⟨0⟩ .battlefield).apply g₀)
    g = { prepared with objects := prepared.objects.modify ⟨2⟩ (·.insert (.attacking ⟨1⟩)) } ∧
    let blows : List Blow := [⟨.target 0, { targets := [⟨2⟩] }⟩, ⟨.fixed ⟨2⟩, {}⟩,
      ⟨.source, { source := some ⟨2⟩ }⟩]
    let after (i : Nat) := Blow.strikeAll {} g (blows.take i)
    (after 2).floating.length = 1 ∧ g.Absorbs (after 1) ⟨2⟩ ∧ (after 1).Absorbs (after 2) ⟨2⟩ ∧
      (after 2).IsCalm ⟨2⟩ ∧ (after 3).onBattlefield ⟨2⟩ = false := by
  have hblows (g : Game) (h : g.Arranged) (hidle : g.pending = none)
      (hthere : g.onBattlefield ⟨2⟩ = true)
      (hshields : (Rules.project {} g).shields? ⟨2⟩ = some 2) (blows : List Blow)
      (hhits : ∀ b ∈ blows, b.victim? = some ⟨2⟩) (hlength : blows.length = 3)
      (hmortal : ∀ i < blows.length,
        Rules.isIndestructible {} (Blow.strikeAll {} g (blows.take i)) ⟨2⟩ = false) :
      g.Absorbs (Blow.strikeAll {} g (blows.take 1)) ⟨2⟩ ∧
        (Blow.strikeAll {} g (blows.take 1)).Absorbs (Blow.strikeAll {} g (blows.take 2)) ⟨2⟩ ∧
        (Blow.strikeAll {} g (blows.take 2)).IsCalm ⟨2⟩ ∧
        (Blow.strikeAll {} g (blows.take 3)).onBattlefield ⟨2⟩ = false := by
    obtain ⟨habsorbed, hafter, hlast⟩ := h.shielded hidle {} hthere hshields hhits hmortal
    exact ⟨(habsorbed 0 (by omega) (by decide)).2, (habsorbed 1 (by omega) (by decide)).2,
      (hafter 2 (by omega) (by decide)).2.2.2 (by decide), (hlast (by omega)).2⟩
  have hcards := Arranged.move (.spawn (.creature ⟨7⟩ "Bear" 2 2) ⟨0⟩ .battlefield)
    (Arranged.start (s := {}) rfl) Nat.zero_lt_two
  have hmarked {g : Game} (h : g.Arranged) (ho : g.contains ⟨2⟩ = true) :
      ({ g with objects := g.objects.modify ⟨2⟩ (·.insert (.attacking ⟨1⟩)) } : Game).Arranged :=
    h.mark (.inr (by decide)) (if_pos ho)
  exact ⟨_, _, rfl, rfl, by decide +kernel, hblows _
    (hmarked (.move (.execute _ _ _) hcards trivial) (by decide +kernel))
    (by decide +kernel) (by decide +kernel) (by decide +kernel) _ (by decide +kernel)
    (by decide +kernel) (by decide +kernel)⟩

end Game

end CardGame
