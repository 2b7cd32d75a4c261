import CardGame.Proofs.Play.Cards
import CardGame.Proofs.Play.Replay
import CardGame.Proofs.Play.Timestamps
import CardGame.Proofs.Projection.Bonuses

/-!
Pumps in any order. Effects that give permanents fixed bonuses, keywords and counters always
succeed, one after the other, and what they come to is known in advance (`Game.pump`). Executed in
another order they start the same floating effects under other identities and timestamps, and put
the same counters on the same permanents, so that the projection is the same.
-/

namespace CardGame

open Resolve

/-- What gives a permanent a bonus, a keyword or counters, in fixed amounts. -/
inductive Pump where
  | bonus (target : ObjectId) (power toughness : Int) (duration : Duration)
  | keyword (target : ObjectId) (keyword : Keyword) (duration : Duration)
  | counters (target : ObjectId) (kind : CounterKind) (n : Int)

/-- The facets of a permanent with some more counters. -/
def Facets.withCounters (fs : Facets) (kind : CounterKind) (n : Nat) : Facets :=
  if n = 0 then fs else fs.insert (.counters ((fs.counters?.getD {}).add kind n))

namespace Pump

/-- The effect that pumps. -/
def effect : Pump → Effect
  | .bonus o power toughness duration =>
    .continuous (.modifyStats (.fixed o) (.fixed power) (.fixed toughness) duration)
  | .keyword o k duration => .continuous (.grantKeyword (.fixed o) k duration)
  | .counters o kind n => .permanent (.addCounters (.fixed o) kind (.fixed n))

/-- Whether a pump is for a permanent, and lasts until end of turn or for good. -/
def Fits (g : Game) : Pump → Prop
  | .bonus o _ _ duration | .keyword o _ duration =>
    g.onBattlefield o = true ∧ (duration = .endOfTurn ∨ duration = .permanent)
  | .counters o _ _ => g.onBattlefield o = true

instance (g : Game) : DecidablePred (Fits g)
  | .bonus .. | .keyword .. => inferInstanceAs (Decidable (_ ∧ _))
  | .counters .. => inferInstanceAs (Decidable (_ = _))

/-- What the floating effect of a pump does. -/
def deed? : Pump → Option (SortedSet ObjectId × PlacedModification)
  | .bonus o power toughness _ => some (.singleton o, (Modification.modify power toughness).placed)
  | .keyword o k _ => some (.singleton o, (Modification.grantKeyword k).placed)
  | .counters .. => none

theorem isPump_of_deed? {p : Pump} {d : SortedSet ObjectId × PlacedModification}
    (h : p.deed? = some d) : d.2.change.isPump = true := by
  cases p <;> cases h <;> rfl

/-- What a pump makes of the objects of a game. -/
def mark (objects : SortedMap ObjectId Facets) : Pump → SortedMap ObjectId Facets
  | .counters o kind n => objects.modify o (·.withCounters kind n.toNat)
  | _ => objects

end Pump

/-- The game after a pump. -/
def Game.pump (ctx : Context) (g : Game) (p : Pump) : Game :=
  match p with
  | .bonus o power toughness duration =>
    (g.addFloating (Modification.modify power toughness).placed (.singleton o) duration ctx.source
      ctx.controller).2
  | .keyword o k duration =>
    (g.addFloating (Modification.grantKeyword k).placed (.singleton o) duration ctx.source
      ctx.controller).2
  | .counters .. => { g with objects := p.mark g.objects }

/-- The game with which a success goes on. -/
def Result.success? : Result → Option Game
  | .success g _ => some g
  | .paused .. | .failed .. => none

/-- The game after some effects, executed one after the other in the same context, if all of them
succeed. -/
def Rules.executeEach (rules : Rules) (ctx : Context) (g : Game) (es : List Effect) :
    Option Game :=
  es.foldlM (fun g e => (rules.execute g e ctx).success?) g

variable {rules : Rules} {ctx : Context} {g g' : Game} {o : ObjectId}

namespace Resolve

theorem amount_fixed (rules : Rules) (ctx : Context) (n : Int) (p : Progress) :
    amount rules ctx (.fixed n) p = .ok (n, p) := by
  unfold amount
  rw [view_bind, Amount.fixed, View.evaluate]
  rfl

theorem count_fixed (rules : Rules) (ctx : Context) (n : Int) (p : Progress) :
    count rules ctx (.fixed n) p = .ok (n.toNat, p) := by
  unfold count View.evaluateCount
  rw [view_bind, Amount.fixed, View.evaluate]
  rfl

theorem requireIn_battlefield {p : Progress} (hhoused : p.game.Housed)
    (hthere : p.game.onBattlefield o = true) : requireIn o .battlefield p = .ok ((), p) := by
  obtain ⟨s, hzone⟩ := Game.onBattlefield_iff.mp hthere
  have hrequire : require o p = .ok ((), p) := by
    unfold require
    rw [game_bind, hhoused.contains_of_zone? hzone]
    rfl
  unfold requireIn
  rw [bind_of_ok hrequire, game_bind]
  exact congrFun (if_pos hthere) p

/-- A permanent that is named is found. -/
theorem permanent_fixed (rules : Rules) (ctx : Context) (hreachable : g.Reachable)
    (hthere : g.onBattlefield o = true) (es : List Event) :
    ∃ c, permanent rules ctx (.fixed o) ⟨g, es⟩ = .ok ((o, c), ⟨g, es⟩) := by
  obtain ⟨s, hzone⟩ := Game.onBattlefield_iff.mp hthere
  obtain ⟨c, hc⟩ := hreachable.carded.exists_shown hreachable.sound.housed rules hzone
  have hobject : object ctx (.fixed o) ⟨g, es⟩ = .ok (o, ⟨g, es⟩) := rfl
  have hcharacteristics : characteristics (rules.view g) o ⟨g, es⟩ = .ok (c, ⟨g, es⟩) := by
    have hfind : (rules.view g).projection.bind (·.find? o) = some c := hc
    unfold characteristics
    rw [hfind]
    rfl
  refine ⟨c, ?_⟩
  unfold permanent
  rw [bind_of_ok hobject, bind_of_ok (requireIn_battlefield hreachable.sound.housed hthere),
    view_bind, bind_of_ok hcharacteristics]
  rfl

end Resolve

namespace ContinuousEffect

/-- A floating effect starts on a permanent that is named. -/
theorem onPermanent_fixed (rules : Rules) (ctx : Context) (hreachable : g.Reachable)
    (hthere : g.onBattlefield o = true) (change : Modification) (duration : Duration) :
    ∃ es, onPermanent rules ctx (.fixed o) [change] duration { game := g } =
      .ok (.done, ⟨(g.addFloating change.placed (.singleton o) duration ctx.source
        ctx.controller).2, es⟩) := by
  obtain ⟨c, hfound⟩ := permanent_fixed rules ctx hreachable hthere []
  refine ⟨[.floatingCreated ⟨g.nextFloating⟩ change (SortedSet.singleton o).toList], ?_⟩
  rw [onPermanent, bind_of_ok hfound]
  rfl

end ContinuousEffect

/-- Counters are put on a permanent. -/
theorem Resolve.addCounters_eq (hhoused : g.Housed) (hthere : g.onBattlefield o = true)
    (kind : CounterKind) (n : Nat) :
    ∃ es, addCounters o kind n { game := g } =
      .ok ((), ⟨{ g with objects := g.objects.modify o (·.withCounters kind n) }, es⟩) := by
  obtain ⟨s, hzone⟩ := Game.onBattlefield_iff.mp hthere
  have hrequire := requireIn_battlefield (p := { game := g }) hhoused hthere
  by_cases hn : n = 0
  · subst hn
    refine ⟨[], ?_⟩
    change addCounters o kind 0 { game := g } =
      .ok ((), { game := { g with objects := g.objects.modify o fun fs => fs } })
    rw [SortedMap.modify_id, addCounters, bind_of_ok hrequire]
    rfl
  · refine ⟨[.countersAdded o kind n], ?_⟩
    let counters := ((g.facets o).counters?.getD {}).add kind n
    have hmark : g.objects.modify o (·.withCounters kind n) =
        g.objects.modify o (·.insert (.counters counters)) := by
      refine SortedMap.modify_congr fun fs hfs => ?_
      have hfacets : g.facets o = fs := by rw [Game.facets, hfs, Option.getD_some]
      rw [Facets.withCounters, if_neg hn, ← hfacets]
    have hset : edit (Game.setFacet o (.counters counters)) { game := g } =
        .ok ((), { game := { g with
          objects := g.objects.modify o (·.insert (.counters counters)) } }) := by
      unfold edit Game.setFacet
      rw [hhoused.contains_of_zone? hzone]
      rfl
    rw [hmark, addCounters, bind_of_ok hrequire, if_pos hn, game_bind, bind_of_ok hset]
    rfl

namespace Pump

variable {p : Pump}

/-- A pump for a permanent succeeds. -/
theorem resolve_effect (rules : Rules) (ctx : Context) (hreachable : g.Reachable)
    (hfits : p.Fits g) :
    ∃ es, p.effect.resolve rules ctx { game := g } = .ok (.done, ⟨g.pump ctx p, es⟩) := by
  cases p with
  | bonus o power toughness duration =>
    obtain ⟨es, hrun⟩ := ContinuousEffect.onPermanent_fixed rules ctx hreachable hfits.1
      (.modify power toughness) duration
    refine ⟨es, ?_⟩
    rw [effect, Effect.resolve, ContinuousEffect.resolve,
      bind_of_ok (amount_fixed rules ctx power _), bind_of_ok (amount_fixed rules ctx toughness _),
      hrun]
    rfl
  | keyword o k duration =>
    obtain ⟨es, hrun⟩ := ContinuousEffect.onPermanent_fixed rules ctx hreachable hfits.1
      (.grantKeyword k) duration
    refine ⟨es, ?_⟩
    rw [effect, Effect.resolve, ContinuousEffect.resolve, hrun]
    rfl
  | counters o kind n =>
    obtain ⟨es, hrun⟩ := addCounters_eq hreachable.sound.housed hfits kind n.toNat
    refine ⟨es, ?_⟩
    have hobject : object ctx (.fixed o) { game := g } = .ok (o, { game := g }) := rfl
    rw [effect, Effect.resolve, PermanentEffect.resolve, bind_of_ok (count_fixed rules ctx n _),
      bind_of_ok hobject, bind_of_ok hrun]
    rfl

end Pump

namespace Facets

variable {fs : Facets} {kind : CounterKind} {n : Nat}

theorem find?_withCounters {k : FacetKind} (hk : k ≠ .counters) :
    (fs.withCounters kind n).byKind.find? k = fs.byKind.find? k := by
  unfold withCounters
  split
  · rfl
  · exact find?_insert_of_ne hk

end Facets

namespace Game

variable {p : Pump} {ps qs : List Pump}

/-- Pumps change no facet but counters. -/
theorem find?_facets_mark {k : FacetKind} (hk : k ≠ .counters) (objects : SortedMap ObjectId Facets)
    (p : Pump) (o : ObjectId) :
    (((p.mark objects).find? o).getD .empty).byKind.find? k =
      ((objects.find? o).getD .empty).byKind.find? k := by
  cases p with
  | counters o' kind n =>
    simp only [Pump.mark, SortedMap.find?_modify]
    split
    · cases objects.find? o with
      | none => rfl
      | some fs => exact Facets.find?_withCounters hk
    · rfl
  | _ => rfl

theorem find?_facets_marks {k : FacetKind} (hk : k ≠ .counters) (ps : List Pump)
    (objects : SortedMap ObjectId Facets) (o : ObjectId) :
    (((ps.foldl Pump.mark objects).find? o).getD .empty).byKind.find? k =
      ((objects.find? o).getD .empty).byKind.find? k := by
  induction ps generalizing objects with
  | nil => rfl
  | cons p rest ih => rw [List.foldl_cons, ih, find?_facets_mark hk]

/-- What some pumps make of a game: the same floating effects as they have, newer than whatever
there was, and the counters. -/
structure Pumped (g g' : Game) (ps : List Pump) : Prop where
  seats : g'.seats = g.seats
  zones : g'.zones = g.zones
  turn : g'.turn = g.turn
  pending : g'.pending = g.pending
  objects : g'.objects = ps.foldl Pump.mark g.objects
  next_le : g.nextTimestamp ≤ g'.nextTimestamp
  floating : ∃ news, g'.floating = g.floating ++ news ∧
    news.map (·.deed) = ps.filterMap Pump.deed? ∧ ∀ e ∈ news, g.nextTimestamp ≤ e.timestamp

theorem Pumped.refl (g : Game) : g.Pumped g [] where
  seats := rfl
  zones := rfl
  turn := rfl
  pending := rfl
  objects := rfl
  next_le := Nat.le_refl _
  floating := ⟨[], (List.append_nil _).symm, rfl, by simp⟩

theorem Pumped.trans {g'' : Game} (h : g.Pumped g' ps) (h' : g'.Pumped g'' qs) :
    g.Pumped g'' (ps ++ qs) where
  seats := h'.seats.trans h.seats
  zones := h'.zones.trans h.zones
  turn := h'.turn.trans h.turn
  pending := h'.pending.trans h.pending
  objects := by rw [h'.objects, h.objects, List.foldl_append]
  next_le := h.next_le.trans h'.next_le
  floating := by
    obtain ⟨news, hfloating, hdeeds, hnews⟩ := h.floating
    obtain ⟨news', hfloating', hdeeds', hnews'⟩ := h'.floating
    refine ⟨news ++ news', ?_, ?_, fun e he => ?_⟩
    · rw [hfloating', hfloating, List.append_assoc]
    · rw [List.map_append, hdeeds, hdeeds', List.filterMap_append]
    · rcases List.mem_append.mp he with he | he
      · exact hnews e he
      · exact h.next_le.trans (hnews' e he)

theorem pumped_pump (ctx : Context) (g : Game) (p : Pump) : g.Pumped (g.pump ctx p) [p] := by
  have hfloats (affected : SortedSet ObjectId) (m : PlacedModification) (d : Duration)
      (hmark : p.mark g.objects = g.objects) (hdeed : p.deed? = some (affected, m)) :
      g.Pumped (g.addFloating m affected d ctx.source ctx.controller).2 [p] := by
    refine ⟨rfl, rfl, rfl, rfl, hmark.symm, Nat.le_succ _, [_], rfl, ?_, ?_⟩
    · rw [List.filterMap_cons_some hdeed]
      rfl
    · simp
  cases p with
  | bonus o power toughness duration => exact hfloats _ _ duration rfl rfl
  | keyword o k duration => exact hfloats _ _ duration rfl rfl
  | counters o kind n =>
    exact ⟨rfl, rfl, rfl, rfl, rfl, Nat.le_refl _, [], (List.append_nil _).symm, rfl, by simp⟩

/-- What affects a permanent for the turn or for good works. -/
theorem isActive_of_lasting {e : FloatingEffect} (haffected : e.affected.contains o = true)
    (hthere : g.onBattlefield o = true)
    (hduration : e.duration = .endOfTurn ∨ e.duration = .permanent) : g.isActive e = true := by
  have hany : e.affected.toList.any g.onBattlefield = true :=
    List.any_eq_true.mpr ⟨o, SortedSet.mem_toList_iff.mpr haffected, hthere⟩
  unfold isActive
  rcases hduration with hd | hd <;> rw [hany, hd] <;> rfl

/-- After a pump every floating effect works still, and so does that of the pump. -/
theorem Swept.pump (h : g.Swept) (hfits : p.Fits g) : (g.pump ctx p).Swept := by
  have hfloats {o : ObjectId} (m : Modification) (d : Duration) (hthere : g.onBattlefield o = true)
      (hd : d = .endOfTurn ∨ d = .permanent) :
      (g.addFloating m.placed (.singleton o) d ctx.source ctx.controller).2.Swept := by
    intro e he
    rcases List.mem_append.mp he with hold | hnew
    · exact h e hold
    · rw [List.mem_singleton.mp hnew]
      exact isActive_of_lasting (g := g) (o := o) (by simp) hthere hd
  cases p with
  | bonus o power toughness duration => exact hfloats _ duration hfits.1 hfits.2
  | keyword o k duration => exact hfloats _ duration hfits.1 hfits.2
  | counters o kind n =>
    intro e he
    have hhost (o' : ObjectId) :
        ((g.pump ctx (.counters o kind n)).facets o').host? = (g.facets o').host? := by
      unfold Facets.host?
      rw [facets, pump, find?_facets_mark (by decide) g.objects, facets]
    have hsame : (g.pump ctx (.counters o kind n)).isActive e = g.isActive e := by
      unfold isActive
      simp only [hhost]
      rfl
    exact hsame.trans (h e he)

/-- Pumps stay for permanents while others are executed. -/
theorem Pumped.fits (h : g.Pumped g' ps) {q : Pump} (hfits : q.Fits g) : q.Fits g' := by
  have hthere : g'.onBattlefield = g.onBattlefield := by
    funext o
    rw [onBattlefield, h.zones, onBattlefield]
  cases q <;> simp only [Pump.Fits, hthere] <;> exact hfits

/-- A pump is executed with success. -/
theorem Reachable.execute_pump (h : g.Reachable) (hidle : g.pending = none) (rules : Rules)
    (ctx : Context) (hfits : p.Fits g) :
    ∃ es, rules.execute g p.effect ctx = .success (g.pump ctx p) es := by
  obtain ⟨es, hrun⟩ := Pump.resolve_effect rules ctx h hfits
  have hswept : (g.pump ctx p).sweep.1 = g.pump ctx p := by
    have hall : (g.pump ctx p).floating.filter (g.pump ctx p).isActive = (g.pump ctx p).floating :=
      List.filter_eq_self.mpr (h.swept.pump hfits)
    rw [sweep, expire, hall]
  refine ⟨es ++ (g.pump ctx p).sweep.2, ?_⟩
  unfold Rules.execute
  rw [hidle]
  change Result.ofRun g (Resolve.settled (p.effect.resolve rules ctx) { game := g }) = _
  rw [settled_apply, hrun]
  change Result.success (g.pump ctx p).sweep.1 _ = _
  rw [hswept]
  rfl

/-- Pumps for permanents are executed with success, one after the other. -/
theorem Reachable.executeEach_pumps (h : g.Reachable) (hidle : g.pending = none)
    (rules : Rules) (ctx : Context) (hfits : ∀ p ∈ ps, p.Fits g) :
    ∃ g', rules.executeEach ctx g (ps.map Pump.effect) = some g' ∧ g'.Reachable ∧
      g.Pumped g' ps := by
  induction ps generalizing g with
  | nil => exact ⟨g, rfl, h, .refl g⟩
  | cons p rest ih =>
    obtain ⟨es, hexecute⟩ := h.execute_pump hidle rules ctx (hfits p List.mem_cons_self)
    have hpumped := pumped_pump ctx g p
    have hreachable : (g.pump ctx p).Reachable := by
      have hmoved := Reachable.move (.execute rules p.effect ctx) h trivial
      rwa [Move.apply, hexecute] at hmoved
    obtain ⟨g', hrest, hreachable', hpumped'⟩ := ih hreachable (hpumped.pending.trans hidle)
      fun q hq => hpumped.fits (hfits q (List.mem_cons_of_mem _ hq))
    refine ⟨g', ?_, hreachable', hpumped.trans hpumped'⟩
    unfold Rules.executeEach at hrest ⊢
    rw [List.map_cons, List.foldlM_cons, hexecute]
    exact hrest

/-- Whatever is on the battlefield has entered it, before the next timestamp. -/
theorem Reachable.entered_lt (h : g.Reachable) (hthere : g.onBattlefield o = true) :
    ((g.facets o).entered?.map (·.2)).getD 0 < g.nextTimestamp := by
  have hfit : (g.facets o).Fit true := hthere ▸ kept_fits.reachable fits_start h o
  obtain ⟨f, hfind, hkind⟩ := hfit.sorted.exists_facet hfit.entered
  cases f <;> cases hkind
  next turn t =>
    have hentered : (g.facets o).entered? = some (turn, t) := by rw [Facets.entered?, hfind]
    have hstamp : g.entryStamp? o = some t := by rw [entryStamp?, hentered, Option.map_some]
    rw [hentered]
    exact h.dated.entered hstamp

/-- The floating effects of the pumps are on top of those that there were. -/
theorem Pumped.topped (h : g.Pumped g' ps) (hreachable : g.Reachable) (hreachable' : g'.Reachable)
    {news : List FloatingEffect} (hfloating : g'.floating = g.floating ++ news)
    (hdeeds : news.map (·.deed) = ps.filterMap Pump.deed?)
    (hnews : ∀ e ∈ news, g.nextTimestamp ≤ e.timestamp) : g'.Topped g.floating news where
  floating := hfloating
  older e he f hf :=
    (hreachable.floatingInOrder.issued e he).2.le.trans (hnews f hf)
  ascending := by
    have hlisted := hreachable'.floatingInOrder.listed
    rw [hfloating] at hlisted
    exact (List.pairwise_append.mp hlisted).2.1.imp fun hlt => hlt.2.le
  entered o hthere f hf := by
    have hentered : (g'.facets o).entered? = (g.facets o).entered? := by
      unfold Facets.entered?
      rw [facets, h.objects, find?_facets_marks (by decide), facets]
    rw [onBattlefield, h.zones] at hthere
    rw [hentered]
    exact (hreachable.entered_lt hthere).trans_le (hnews f hf)
  working f hf := hreachable'.swept f (by simp [hfloating, hf])
  placed f hf := hreachable'.floatingInOrder.placed f (by simp [hfloating, hf])
  pumps f hf := by
    have hdeed : f.deed ∈ ps.filterMap Pump.deed? := hdeeds ▸ List.mem_map_of_mem hf
    obtain ⟨p, -, hp⟩ := List.mem_filterMap.mp hdeed
    exact Pump.isPump_of_deed? hp

end Game

namespace Counters

theorem add_add_comm (c : Counters) (k k' : CounterKind) (n n' : Nat) :
    (c.add k n).add k' n' = (c.add k' n').add k n := by
  unfold add count
  rw [mk.injEq]
  apply SortedMap.ext_find?
  intro k''
  simp only [SortedMap.find?_insert]
  by_cases hk : k = k'
  · subst hk
    simp only [if_true, Option.getD_some]
    split
    · rw [Nat.add_right_comm]
    · rfl
  · rw [if_neg hk, if_neg (Ne.symm hk)]
    by_cases hk' : k' = k''
    · rw [if_pos hk', if_neg (hk' ▸ hk), if_pos hk']
    · rw [if_neg hk', if_neg hk']

end Counters

namespace Facets

theorem withCounters_comm (fs : Facets) (k k' : CounterKind) (n n' : Nat) :
    (fs.withCounters k n).withCounters k' n' = (fs.withCounters k' n').withCounters k n := by
  have htwice (k k' : CounterKind) {n n' : Nat} (hn : n ≠ 0) (hn' : n' ≠ 0) :
      (fs.withCounters k n).withCounters k' n' =
        fs.insert (.counters (((fs.counters?.getD {}).add k n).add k' n')) := by
    have hcounters (c : Counters) : (fs.insert (.counters c)).counters? = some c := by
      simp [counters?, insert, Facet.kind]
    rw [withCounters, if_neg hn', withCounters, if_neg hn, hcounters, Option.getD_some]
    exact insert_insert (by rfl) fs
  by_cases hn : n = 0
  · subst hn
    rfl
  · by_cases hn' : n' = 0
    · subst hn'
      rfl
    · rw [htwice k k' hn hn', htwice k' k hn' hn, Counters.add_add_comm]

end Facets

theorem Pump.mark_comm (objects : SortedMap ObjectId Facets) (p q : Pump) :
    q.mark (p.mark objects) = p.mark (q.mark objects) := by
  cases p with
  | counters o k n =>
    cases q with
    | counters o' k' n' =>
      apply SortedMap.ext_find?
      intro o''
      simp only [mark, SortedMap.find?_modify]
      split
      · split
        · simp only [Option.map_map, Function.comp_def, Facets.withCounters_comm]
        · rfl
      · rfl
    | _ => rfl
  | _ => rfl

namespace Game

/-- Pumps of permanents commute. Whatever their order, all of them succeed, and the projection comes
to the same if in both orders all bonuses can be added in full. -/
theorem Reachable.pumps_commute (h : g.Reachable) (hidle : g.pending = none) (rules : Rules)
    (ctx : Context) {ps qs : List Pump} (hfits : ∀ p ∈ ps, p.Fits g) (hperm : qs.Perm ps) :
    ∃ g₁ g₂, rules.executeEach ctx g (ps.map Pump.effect) = some g₁ ∧
      rules.executeEach ctx g (qs.map Pump.effect) = some g₂ ∧
      (rules.hasRoom g₁ = true → rules.hasRoom g₂ = true →
        rules.project g₂ = rules.project g₁) := by
  obtain ⟨g₁, hrun₁, hreachable₁, hpumped₁⟩ := h.executeEach_pumps hidle rules ctx hfits
  obtain ⟨g₂, hrun₂, hreachable₂, hpumped₂⟩ := h.executeEach_pumps hidle rules ctx
    fun q hq => hfits q (hperm.subset hq)
  refine ⟨g₁, g₂, hrun₁, hrun₂, fun hroom₁ hroom₂ => ?_⟩
  obtain ⟨news₁, hfloating₁, hdeeds₁, hnews₁⟩ := hpumped₁.floating
  obtain ⟨news₂, hfloating₂, hdeeds₂, hnews₂⟩ := hpumped₂.floating
  have hobjects : qs.foldl Pump.mark g.objects = ps.foldl Pump.mark g.objects :=
    hperm.foldl_eq' (fun p _ q _ objects => Pump.mark_comm objects p q) g.objects
  have hsame : g₁.SameBoard g₂ :=
    ⟨hpumped₂.seats.trans hpumped₁.seats.symm,
      by rw [hpumped₂.objects, hpumped₁.objects, hobjects],
      hpumped₂.zones.trans hpumped₁.zones.symm, hpumped₂.turn.trans hpumped₁.turn.symm⟩
  refine Rules.project_eq_of_perm hsame
    (hpumped₁.topped h hreachable₁ hfloating₁ hdeeds₁ hnews₁)
    (hpumped₂.topped h hreachable₂ hfloating₂ hdeeds₂ hnews₂) ?_ hroom₁ hroom₂
  rw [hdeeds₁, hdeeds₂]
  exact hperm.filterMap _

/-- A bonus, counters, a keyword and a penalty, forwards and backwards, on creatures under a banner
that gives trample to those with counters. -/
theorem pumps_commute_of_reverse : ∃ g₀ g, start {} = .ok g₀ ∧
    let banner := (CardDefinition.creature ⟨8⟩ "Banner" 0 4).withAbility (.grantKeyword
      (ObjectFilter.creature.withStatus (.hasCounter .plusOnePlusOne)) .trample)
    g = (Move.spawn (.creature ⟨7⟩ "Bear" 2 2) ⟨0⟩ .battlefield).apply
      ((Move.spawn banner ⟨0⟩ .battlefield).apply g₀) ∧
    let ps : List Pump := [.bonus ⟨3⟩ 1 1 .endOfTurn, .counters ⟨3⟩ .plusOnePlusOne 2,
      .keyword ⟨2⟩ .flying .permanent, .bonus ⟨3⟩ (-2) 0 .permanent]
    let after (ps : List Pump) := (Rules.executeEach {} {} g (ps.map Pump.effect)).getD g
    (after ps.reverse).floating ≠ (after ps).floating ∧
      (Rules.project {} (after ps)).power? ⟨3⟩ = some 3 ∧
      (Rules.project {} (after ps)).hasKeyword ⟨3⟩ .trample = true ∧
      Rules.project {} (after ps.reverse) = Rules.project {} (after ps) := by
  have hspawned {g : Game} (card : CardDefinition) (hs : 0 < g.seats) (h : g.Reachable) :
      ((Move.spawn card ⟨0⟩ .battlefield).apply g).Reachable := .move _ h hs
  have hcommute (g : Game) (h : g.Reachable) (hidle : g.pending = none) (ps : List Pump)
      (hfits : ∀ p ∈ ps, p.Fits g)
      (hroom : ∀ qs ∈ [ps, ps.reverse],
        (Rules.executeEach {} {} g (qs.map Pump.effect)).all (Rules.hasRoom {}) = true) :
      Rules.project {} ((Rules.executeEach {} {} g (ps.reverse.map Pump.effect)).getD g) =
        Rules.project {} ((Rules.executeEach {} {} g (ps.map Pump.effect)).getD g) := by
    obtain ⟨g₁, g₂, hrun₁, hrun₂, hsame⟩ :=
      Reachable.pumps_commute h hidle {} {} hfits (List.reverse_perm ps)
    have hroom₁ := hroom ps (by simp)
    have hroom₂ := hroom ps.reverse (by simp)
    rw [hrun₁] at hroom₁
    rw [hrun₂] at hroom₂
    rw [hrun₁, hrun₂]
    exact hsame hroom₁ hroom₂
  refine ⟨_, _, rfl, rfl, by decide +kernel, by decide +kernel, by decide +kernel, ?_⟩
  exact hcommute _ (hspawned _ Nat.zero_lt_two (hspawned _ Nat.zero_lt_two
    (Reachable.start (s := {}) rfl))) rfl _ (by decide +kernel) (by decide +kernel)

end Game

end CardGame
