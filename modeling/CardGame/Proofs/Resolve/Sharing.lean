import CardGame.Proofs.Resolve.Dealing
import CardGame.Proofs.Resolve.Deed

/-!
Shares of damage and of counters. Dealing a share of damage changes what is known of its recipient
and nothing else: a player loses life, a creature is marked and a planeswalker loses loyalty
(`Game.Hurts`). Putting on a share of counters changes nothing but counters (`Facets.Stocked`). A
loop over shares with different recipients does so for each of them and tells one event for each
(`Progress.Shared`).
-/

namespace CardGame

namespace Facets

variable {fs fs' : Facets}

/-- The number of counters of a kind. -/
def count (fs : Facets) (kind : CounterKind) : Nat := (fs.counters?.getD {}).count kind

/-- A player has lost life. -/
structure Drained (n : Int) (fs fs' : Facets) : Prop where
  life : ∃ life poison, fs.player? = some (life, poison) ∧
    fs'.player? = some (saturate (life - n), poison)
  others : ∀ kind, kind ≠ .player → fs'.byKind.find? kind = fs.byKind.find? kind

/-- A permanent has been dealt damage. A creature is marked with it, a planeswalker has lost as much
loyalty, or all that it had. -/
structure Wounded (c : Characteristics) (n : Int) (fs fs' : Facets) : Prop where
  marked : fs'.damage? =
    if c.hasType .creature then some (saturate (fs.damage?.getD 0 + n)) else fs.damage?
  loyalty : fs'.count .loyalty =
    if c.hasType .planeswalker then fs.count .loyalty - min n.toNat (fs.count .loyalty)
    else fs.count .loyalty
  counters : ∀ kind, kind ≠ .loyalty → fs'.count kind = fs.count kind
  others : ∀ kind, kind ≠ .damage → kind ≠ .counters →
    fs'.byKind.find? kind = fs.byKind.find? kind

/-- Some counters of a kind have been put on a permanent. -/
structure Stocked (kind : CounterKind) (n : Nat) (fs fs' : Facets) : Prop where
  more : fs'.count kind = fs.count kind + n
  counters : ∀ kind', kind' ≠ kind → fs'.count kind' = fs.count kind'
  others : ∀ kind', kind' ≠ .counters → fs'.byKind.find? kind' = fs.byKind.find? kind'

theorem count_insert (counters : Counters) (kind : CounterKind) :
    (fs.insert (.counters counters)).count kind = counters.count kind := by
  simp [count, counters?, insert, Facet.kind]

theorem count_congr (h : fs'.byKind.find? .counters = fs.byKind.find? .counters)
    (kind : CounterKind) : fs'.count kind = fs.count kind := by
  unfold count counters?
  rw [h]

theorem count_erase (kind : CounterKind) : (fs.erase .counters).count kind = 0 := by
  simp only [count, counters?, erase, SortedMap.find?_erase, if_true]
  rfl

theorem damage?_congr (h : fs'.byKind.find? .damage = fs.byKind.find? .damage) :
    fs'.damage? = fs.damage? := by
  unfold damage?
  rw [h]

end Facets

namespace Progress

variable {p q r : Progress} {o : ObjectId} {es es' : List Event}

/-- Some events have been told and nothing has changed but the facets of one object. -/
structure Touches (o : ObjectId) (es : List Event) (p q : Progress) : Prop where
  frame : { q.game with objects := p.game.objects } = p.game
  contains : ∀ o', q.game.contains o' = p.game.contains o'
  others : ∀ o', o' ≠ o → q.game.facets o' = p.game.facets o'
  told : q.events = p.events ++ es

namespace Touches

theorem refl (o : ObjectId) (p : Progress) : Touches o [] p p :=
  ⟨rfl, fun _ => rfl, fun _ _ => rfl, (List.append_nil _).symm⟩

theorem trans (h : Touches o es p q) (h' : Touches o es' q r) : Touches o (es ++ es') p r where
  frame := by
    rw [← h.frame, ← h'.frame]
  contains o' := (h'.contains o').trans (h.contains o')
  others o' ho' := (h'.others o' ho').trans (h.others o' ho')
  told := by rw [h'.told, h.told, List.append_assoc]

theorem emit (o : ObjectId) (p : Progress) (e : Event) :
    Touches o [e] p { p with events := p.events ++ [e] } :=
  ⟨rfl, fun _ => rfl, fun _ _ => rfl, rfl⟩

theorem modify (o : ObjectId) (p : Progress) (F : Facets → Facets) :
    Touches o [] p { p with game := { p.game with objects := p.game.objects.modify o F } } :=
  ⟨rfl, fun o' => SortedMap.contains_modify _ o o' F,
    fun _ ho' => Game.facets_modify_of_ne (Ne.symm ho'), (List.append_nil _).symm⟩

end Touches

end Progress

namespace Resolve

open Progress

variable {p q : Progress} {o : ObjectId} {n : Int}

theorem requireIn_eq_ok {kind : ZoneKind} {u : Unit} (h : requireIn o kind p = .ok (u, q)) :
    p = q ∧ p.game.contains o = true ∧ p.game.zones.isIn o kind = true := by
  unfold requireIn require at h
  obtain ⟨u', r, hrequire, hrest⟩ := bind_eq_ok h
  rw [game_bind] at hrequire hrest
  split at hrequire
  · next hcontains =>
    cases hrequire
    split at hrest
    · next hthere =>
      cases hrest
      exact ⟨rfl, hcontains, hthere⟩
    · cases hrest
  · cases hrequire

theorem setFacet_eq_ok {f : Facet} {u : Unit} (h : edit (Game.setFacet o f) p = .ok (u, q)) :
    Touches o [] p q ∧ q.game.facets o = (p.game.facets o).insert f := by
  obtain ⟨g, hset, rfl⟩ := edit_eq_ok h
  obtain ⟨hcontains, rfl⟩ := Game.setFacet_eq_ok hset
  exact ⟨.modify o p _, Game.facets_modify_self hcontains⟩

/-- Life that is lost. -/
theorem changeLife_eq_ok {s : Seat} {delta : Int} {u : Unit} (hdelta : delta ≠ 0)
    (h : changeLife s delta p = .ok (u, q)) :
    ∃ es, Touches (.ofSeat s) es p q ∧ (∀ e ∈ es, ∃ before after, e = .lifeChanged s before after) ∧
      Facets.Drained (-delta) (p.game.facets (.ofSeat s)) (q.game.facets (.ofSeat s)) := by
  unfold changeLife at h
  rw [if_pos hdelta, game_bind] at h
  obtain ⟨u', r, hedit, hemit⟩ := bind_eq_ok h
  cases hemit
  obtain ⟨g, hlife, rfl⟩ := edit_eq_ok hedit
  obtain ⟨before, poison, hplayer, hset⟩ := Game.player?_of_setLife hlife
  have hmark : edit (Game.setFacet (.ofSeat s) (.player (saturate (p.game.life s + delta)) poison))
      p = .ok (u', { p with game := g }) := by
    unfold edit
    rw [hset]
  obtain ⟨htouches, hfacets⟩ := setFacet_eq_ok hmark
  have hbefore : p.game.life s = before := by
    rw [Game.life, hplayer]
    rfl
  refine ⟨_, htouches.trans (.emit _ _ _), fun e he => ⟨_, _, List.mem_singleton.mp he⟩, ?_⟩
  change Facets.Drained _ _ (g.facets _)
  rw [show g.facets (.ofSeat s) = _ from hfacets, hbefore]
  refine ⟨⟨before, poison, hplayer, ?_⟩, fun kind hkind => Facets.find?_insert_of_ne hkind⟩
  rw [Int.sub_neg]
  simp [Facets.player?, Facets.insert, Facet.kind]

/-- Counters that are taken off a permanent. -/
theorem removeCounters_eq_ok {kind : CounterKind} {n taken : Nat}
    (h : removeCounters o kind n p = .ok (taken, q)) :
    ∃ es, Touches o es p q ∧ (∀ e ∈ es, e = .countersRemoved o kind taken) ∧
      (q.game.facets o).count kind =
        (p.game.facets o).count kind - min n ((p.game.facets o).count kind) ∧
      (∀ kind', kind' ≠ kind → (q.game.facets o).count kind' = (p.game.facets o).count kind') ∧
      ∀ kind', kind' ≠ .counters →
        (q.game.facets o).byKind.find? kind' = (p.game.facets o).byKind.find? kind' := by
  unfold removeCounters at h
  obtain ⟨u, r, hrequire, hrest⟩ := bind_eq_ok h
  obtain ⟨rfl, hcontains, -⟩ := requireIn_eq_ok hrequire
  rw [game_bind] at hrest
  cases hcounters : (p.game.facets o).counters? with
  | none =>
    rw [hcounters] at hrest
    cases hrest
    have hnone : (p.game.facets o).count kind = 0 := by rw [Facets.count, hcounters]; rfl
    exact ⟨[], .refl o p, fun _ he => absurd he List.not_mem_nil, by rw [hnone]; omega,
      fun _ _ => rfl, fun _ _ => rfl⟩
  | some counters =>
    have hbefore (kind' : CounterKind) : (p.game.facets o).count kind' = counters.count kind' := by
      rw [Facets.count, hcounters]
      rfl
    have hleft (kind' : CounterKind) : (counters.take kind n).2.count kind' =
        if kind' = kind then (p.game.facets o).count kind - min n ((p.game.facets o).count kind)
        else (p.game.facets o).count kind' := by
      rw [Counters.count_take, Function.update_apply, hbefore, hbefore, Nat.min_comm]
      rfl
    -- what is told once the counters are off
    have htell {s : Progress} (hrun : (do
          if 0 < (counters.take kind n).1 then
            emit (.countersRemoved o kind (counters.take kind n).1)
          return (counters.take kind n).1 : Resolve Nat) s = .ok (taken, q)) :
        ∃ es, Touches o es s q ∧ (∀ e ∈ es, e = .countersRemoved o kind taken) ∧
          q.game.facets o = s.game.facets o := by
      split at hrun
      · cases hrun
        exact ⟨_, .emit o _ _, fun e he => List.mem_singleton.mp he, rfl⟩
      · cases hrun
        exact ⟨[], .refl o _, fun _ he => absurd he List.not_mem_nil, rfl⟩
    rw [hcounters] at hrest
    dsimp only at hrest
    split at hrest
    · next hempty =>
      obtain ⟨v, s, hupdate, hrun⟩ := bind_eq_ok hrest
      cases hupdate
      obtain ⟨es, htouches, htold, hfacets⟩ := htell hrun
      have herased : q.game.facets o = (p.game.facets o).erase .counters :=
        hfacets.trans (Game.facets_modify_self hcontains)
      refine ⟨es, (Touches.modify o p _).trans htouches, htold, ?_, fun kind' hkind => ?_,
        fun kind' hkind => ?_⟩
      · rw [herased, Facets.count_erase, ← (hleft kind).trans (if_pos rfl),
          Counters.count_of_isEmpty hempty]
      · rw [herased, Facets.count_erase, ← (hleft kind').trans (if_neg hkind),
          Counters.count_of_isEmpty hempty]
      · rw [herased, Facets.find?_erase_of_ne hkind]
    · obtain ⟨v, s, hset, hrun⟩ := bind_eq_ok hrest
      obtain ⟨hmarked, hmark⟩ := setFacet_eq_ok hset
      obtain ⟨es, htouches, htold, hfacets⟩ := htell hrun
      rw [hmark] at hfacets
      refine ⟨es, hmarked.trans htouches, htold, ?_, fun kind' hkind => ?_, fun kind' hkind => ?_⟩
      · rw [hfacets, Facets.count_insert, hleft, if_pos rfl]
      · rw [hfacets, Facets.count_insert, hleft, if_neg hkind]
      · rw [hfacets]
        exact Facets.find?_insert_of_ne hkind

/-- Counters that are put on a permanent. -/
theorem addCounters_eq_ok {kind : CounterKind} {n : Nat} {u : Unit} (hn : n ≠ 0)
    (h : addCounters o kind n p = .ok (u, q)) :
    Touches o [.countersAdded o kind n] p q ∧ p.game.onBattlefield o = true ∧
      (p.game.facets o).Stocked kind n (q.game.facets o) := by
  unfold addCounters at h
  obtain ⟨v, r, hrequire, hrest⟩ := bind_eq_ok h
  obtain ⟨rfl, -, hthere⟩ := requireIn_eq_ok hrequire
  rw [if_pos hn, game_bind] at hrest
  obtain ⟨v, r, hset, hemit⟩ := bind_eq_ok hrest
  obtain ⟨htouches, hfacets⟩ := setFacet_eq_ok hset
  cases hemit
  refine ⟨htouches.trans (.emit o r _), hthere, ?_⟩
  change Facets.Stocked _ _ _ (r.game.facets o)
  rw [hfacets]
  constructor
  · rw [Facets.count_insert, Counters.count_add, Function.update_self]
    rfl
  · intro kind' hkind
    rw [Facets.count_insert, Counters.count_add, Function.update_of_ne hkind]
    rfl
  · exact fun kind' hkind => Facets.find?_insert_of_ne hkind

end Resolve

/-- Whether an event tells of damage. -/
def Event.isDamage : Event → Bool
  | .damageDealt _ _ _ => true
  | _ => false

/-- What damage dealt to one object makes of its facets, as the characteristics decide under which
the object is judged. -/
inductive Game.Hurts (g : Game) (c : Option Characteristics) (o : ObjectId) (n : Int)
    (fs fs' : Facets) : Prop
  | player {s : Seat} (hseat : g.seat? o = some s) (hdrained : fs.Drained n fs')
  | permanent {c' : Characteristics} (hseat : g.seat? o = none) (hthere : g.onBattlefield o = true)
      (hshown : c = some c') (htype : c'.hasType .creature || c'.hasType .planeswalker)
      (hwounded : fs.Wounded c' n fs')

theorem ObjectId.eq_ofSeat {seats : Nat} (hseats : seats ≤ 255) {o : ObjectId} {s : Seat}
    (hseat : o.seat? seats = some s) : o = .ofSeat s := by
  unfold seat? isSeat firstObject at hseat
  split at hseat
  · next hbelow =>
    cases hseat
    have hlt := of_decide_eq_true hbelow
    obtain ⟨n⟩ := o
    simp only [ofSeat, ObjectId.mk.injEq, Seat.limit] at *
    omega
  · cases hseat

namespace Resolve

open Progress

variable {p q : Progress} {o : ObjectId} {n : Int}

/-- Loyalty that a planeswalker loses. -/
theorem loseLoyalty_eq_ok {loses : Bool} {u : Unit}
    (h : (do if loses then let _ ← removeCounters o .loyalty n.toNat : Resolve Unit) p =
      .ok (u, q)) :
    ∃ es, Touches o es p q ∧ (∀ e ∈ es, e.isDamage = false) ∧
      (q.game.facets o).count .loyalty = (if loses then (p.game.facets o).count .loyalty -
        min n.toNat ((p.game.facets o).count .loyalty) else (p.game.facets o).count .loyalty) ∧
      (∀ kind, kind ≠ .loyalty → (q.game.facets o).count kind = (p.game.facets o).count kind) ∧
      ∀ kind, kind ≠ .counters →
        (q.game.facets o).byKind.find? kind = (p.game.facets o).byKind.find? kind := by
  cases loses with
  | false =>
    cases h
    exact ⟨[], .refl o p, fun _ he => absurd he List.not_mem_nil, rfl, fun _ _ => rfl,
      fun _ _ => rfl⟩
  | true =>
    obtain ⟨taken, r, hremove, hrest⟩ := bind_eq_ok h
    cases hrest
    obtain ⟨es, htouches, htold, hloyalty, hcounters, hothers⟩ := removeCounters_eq_ok hremove
    refine ⟨es, htouches, fun e he => ?_, hloyalty, hcounters, hothers⟩
    rw [htold e he]
    rfl

/-- Damage that a creature is marked with. -/
theorem markDamage_eq_ok {marks : Bool} {k : Resolve Unit} {u : Unit}
    (h : (if marks then do
        let marked := ((← game).facets o).damage?.getD 0
        edit (Game.setFacet o (.damage (saturate (marked + n))))
        k
      else k) p = .ok (u, q)) :
    ∃ r, Touches o [] p r ∧ k r = .ok (u, q) ∧
      (r.game.facets o).damage? = (if marks then
        some (saturate ((p.game.facets o).damage?.getD 0 + n)) else (p.game.facets o).damage?) ∧
      ∀ kind, kind ≠ .damage →
        (r.game.facets o).byKind.find? kind = (p.game.facets o).byKind.find? kind := by
  cases marks with
  | false => exact ⟨p, .refl o p, h, rfl, fun _ _ => rfl⟩
  | true =>
    rw [if_pos rfl, game_bind] at h
    obtain ⟨v, r, hset, hrest⟩ := bind_eq_ok h
    obtain ⟨htouches, hfacets⟩ := setFacet_eq_ok hset
    refine ⟨r, htouches, hrest, ?_, fun kind hkind => ?_⟩
    · rw [hfacets]
      simp [Facets.damage?, Facets.insert, Facet.kind]
    · rw [hfacets]
      exact Facets.find?_insert_of_ne hkind

/-- Damage that is dealt to one object. -/
theorem dealDamage_eq_ok {source : Option ObjectId} {c : Option Characteristics} {u : Unit}
    (hseats : p.game.seats ≤ 255) (hn : 0 < n) (h : dealDamage source o n c p = .ok (u, q)) :
    ∃ es, Touches o (.damageDealt source o n :: es) p q ∧ (∀ e ∈ es, e.isDamage = false) ∧
      p.game.Hurts c o n (p.game.facets o) (q.game.facets o) := by
  unfold dealDamage at h
  rw [if_pos hn, game_bind] at h
  cases hseat : p.game.seat? o with
  | some s =>
    rw [hseat] at h
    obtain ⟨v, r, hemit, hlife⟩ := bind_eq_ok h
    cases hemit
    obtain rfl := ObjectId.eq_ofSeat hseats hseat
    obtain ⟨es, htouches, htold, hdrained⟩ := changeLife_eq_ok (by omega) hlife
    rw [Int.neg_neg] at hdrained
    refine ⟨es, (Touches.emit _ p _).trans htouches, fun e he => ?_, .player hseat hdrained⟩
    obtain ⟨before, after, rfl⟩ := htold e he
    rfl
  | none =>
    rw [hseat] at h
    obtain ⟨v, r, hrequire, hrest⟩ := bind_eq_ok h
    obtain ⟨rfl, -, hthere⟩ := requireIn_eq_ok hrequire
    cases c with
    | none => cases hrest
    | some c =>
      dsimp only at hrest
      split at hrest
      · obtain ⟨v, r, hthrow, -⟩ := bind_eq_ok hrest
        cases hthrow
      · next htyped =>
        obtain ⟨v, r, hemit, hdeal⟩ := bind_eq_ok hrest
        cases hemit
        obtain ⟨r, hmarks, hlose, hmarked, hkept⟩ := markDamage_eq_ok hdeal
        obtain ⟨es, hloses, htold, hloyalty, hcounters, hothers⟩ := loseLoyalty_eq_ok hlose
        have hcount (kind : CounterKind) :
            (r.game.facets o).count kind = (p.game.facets o).count kind :=
          Facets.count_congr (hkept .counters (by decide)) kind
        refine ⟨es, ((Touches.emit o p _).trans hmarks).trans hloses, htold,
          .permanent hseat hthere rfl ?_ ⟨?_, ?_, ?_, ?_⟩⟩
        · simpa only [← Bool.not_or, Bool.not_eq_true', Bool.not_eq_false] using htyped
        · rw [Facets.damage?_congr (hothers .damage (by decide)), hmarked]
        · rw [hloyalty, hcount]
        · exact fun kind hkind => (hcounters kind hkind).trans (hcount kind)
        · exact fun kind hdamage hkind => (hothers kind hkind).trans (hkept kind hdamage)

end Resolve

open Resolve

namespace Progress

variable {α : Type} {heard : Event → Bool} {event : ObjectId × α → Event}
  {R : ObjectId → α → Facets → Facets → Prop} {parts : List (ObjectId × α)} {p q r : Progress}

/-- Shares have been handed out to different recipients. The facets of each have changed by its
share, nothing else has changed, and of the events of a kind there is one for each share. -/
structure Shared (heard : Event → Bool) (event : ObjectId × α → Event)
    (R : ObjectId → α → Facets → Facets → Prop) (parts : List (ObjectId × α)) (p q : Progress) :
    Prop where
  frame : { q.game with objects := p.game.objects } = p.game
  contains : ∀ o, q.game.contains o = p.game.contains o
  others : ∀ o, o ∉ parts.map (·.1) → q.game.facets o = p.game.facets o
  changed : ∀ part ∈ parts, R part.1 part.2 (p.game.facets part.1) (q.game.facets part.1)
  told : ∃ es, q.events = p.events ++ es ∧ es.filter heard = parts.map event

namespace Shared

theorem refl (p : Progress) : Shared heard event R [] p p :=
  ⟨rfl, fun _ => rfl, fun _ _ => rfl, fun _ h => absurd h List.not_mem_nil,
    [], (List.append_nil _).symm, rfl⟩

/-- One share more, for somebody else. -/
theorem cons {part : ObjectId × α} {es : List Event} (htouches : p.Touches part.1 es q)
    (htold : es.filter heard = [event part])
    (hchanged : R part.1 part.2 (p.game.facets part.1) (q.game.facets part.1))
    (h : Shared heard event R parts q r) (hnew : part.1 ∉ parts.map (·.1)) :
    Shared heard event R (part :: parts) p r where
  frame := by rw [← htouches.frame, ← h.frame]
  contains o := (h.contains o).trans (htouches.contains o)
  others o ho := by
    obtain ⟨hne, hrest⟩ := not_or.mp (List.mem_cons.not.mp ho)
    exact (h.others o hrest).trans (htouches.others o hne)
  changed := by
    refine List.forall_mem_cons.mpr ⟨?_, fun part' hpart' => ?_⟩
    · rw [h.others _ hnew]
      exact hchanged
    · have hne : part'.1 ≠ part.1 := fun hsame =>
        hnew (hsame ▸ List.mem_map_of_mem hpart')
      rw [← htouches.others _ hne]
      exact h.changed part' hpart'
  told := by
    obtain ⟨es', htold', hheard⟩ := h.told
    refine ⟨es ++ es', ?_, ?_⟩
    · rw [htold', htouches.told, List.append_assoc]
    · rw [List.filter_append, htold, hheard]
      rfl

end Shared

/-- A loop hands out those shares that count, if each round does so for its own. -/
theorem shared_forM {body : ObjectId × α → Resolve PUnit} {counts : ObjectId × α → Bool} {u : PUnit}
    (hapart : parts.Pairwise fun a b => a.1 ≠ b.1)
    (hbody : ∀ part ∈ parts, ∀ (p q : Progress) (u : PUnit),
      { p.game with objects := r.game.objects } = r.game → body part p = .ok (u, q) →
      if counts part then ∃ es, p.Touches part.1 es q ∧ es.filter heard = [event part] ∧
        R part.1 part.2 (p.game.facets part.1) (q.game.facets part.1)
      else q = p)
    (hframe : { p.game with objects := r.game.objects } = r.game)
    (h : parts.forM body p = .ok (u, q)) :
    Shared heard event R (parts.filter counts) p q := by
  induction parts generalizing p with
  | nil =>
    cases h
    exact .refl _
  | cons part rest ih =>
    obtain ⟨hfirst, hrest⟩ := List.pairwise_cons.mp hapart
    obtain ⟨hround, hrounds⟩ := List.forall_mem_cons.mp hbody
    change (body part >>= fun _ => rest.forM body) p = _ at h
    obtain ⟨v, s, hrun, hruns⟩ := bind_eq_ok h
    have hthis := hround p s v hframe hrun
    cases hcounts : counts part with
    | false =>
      rw [hcounts, if_neg Bool.false_ne_true] at hthis
      subst hthis
      rw [List.filter_cons_of_neg (by simp [hcounts])]
      exact ih hrest hrounds hframe hruns
    | true =>
      rw [hcounts, if_pos rfl] at hthis
      obtain ⟨es, htouches, htold, hchanged⟩ := hthis
      rw [List.filter_cons_of_pos hcounts]
      refine .cons htouches htold hchanged (ih hrest hrounds ?_ hruns) ?_
      · rw [← hframe, ← htouches.frame]
      · intro hagain
        obtain ⟨part', hpart', hsame⟩ := List.mem_map.mp hagain
        exact hfirst part' (List.mem_of_mem_filter hpart') hsame.symm

end Progress

/-- Damage that is dealt in shares. -/
theorem DamageEffect.dealShares_eq_ok {rules : Rules} {source : Option ObjectId}
    {shares : SortedMap ObjectId Int} {p q : Progress} {u : Unit} (hseats : p.game.seats ≤ 255)
    (h : dealShares rules source shares p = .ok (u, q)) :
    Progress.Shared Event.isDamage (fun part => .damageDealt source part.1 part.2)
      (fun o n => p.game.Hurts (SortedMap.find? (rules.project p.game) o) o n)
      (shares.entries.filter fun part => 0 < part.2) p q := by
  unfold dealShares at h
  rw [view_bind] at h
  refine Progress.shared_forM (r := p) shares.entries_keys_ne (fun part _ r s u hframe hdeal => ?_)
    rfl h
  have hsame (o : ObjectId) : r.game.seat? o = p.game.seat? o := by rw [← hframe]; rfl
  have hthere (o : ObjectId) : r.game.onBattlefield o = p.game.onBattlefield o := by
    rw [← hframe]
    rfl
  by_cases hpositive : 0 < part.2
  · rw [if_pos (decide_eq_true hpositive)]
    obtain ⟨es, htouches, htold, hhurts⟩ :=
      dealDamage_eq_ok (by rwa [← hframe] at hseats) hpositive hdeal
    refine ⟨_, htouches, ?_, ?_⟩
    · rw [List.filter_cons_of_pos rfl, List.filter_eq_nil_iff.mpr fun e he => by simp [htold e he]]
    · cases hhurts with
      | player hseat hdrained => exact .player ((hsame _).symm.trans hseat) hdrained
      | permanent hseat hstands hshown htype hwounded =>
        exact .permanent ((hsame _).symm.trans hseat) ((hthere _).symm.trans hstands) hshown htype
          hwounded
  · rw [if_neg (by simpa using hpositive)]
    unfold dealDamage at hdeal
    rw [if_neg hpositive] at hdeal
    cases hdeal
    rfl

/-- Whether an event tells of counters put on a permanent. -/
def Event.isGrowth : Event → Bool
  | .countersAdded _ _ _ => true
  | _ => false

/-- Counters that are put on in shares. -/
theorem PermanentEffect.placeShares_eq_ok {kind : CounterKind} {shares : SortedMap ObjectId Nat}
    {p q : Progress} {u : Unit} (h : placeShares kind shares p = .ok (u, q)) :
    Progress.Shared Event.isGrowth (fun part => .countersAdded part.1 kind part.2)
      (fun o n fs fs' => p.game.onBattlefield o = true ∧ fs.Stocked kind n fs')
      (shares.entries.filter fun part => 0 < part.2) p q := by
  refine Progress.shared_forM (r := p) shares.entries_keys_ne (fun part _ r s u hframe hplace => ?_)
    rfl h
  by_cases hpositive : 0 < part.2
  · rw [if_pos (decide_eq_true hpositive)]
    obtain ⟨htouches, hthere, hstocked⟩ := addCounters_eq_ok hpositive.ne' hplace
    refine ⟨_, htouches, rfl, ?_, hstocked⟩
    rw [← hframe]
    exact hthere
  · rw [if_neg (by simpa using hpositive)]
    obtain ⟨v, t, hrequire, hrest⟩ := bind_eq_ok hplace
    obtain ⟨rfl, -⟩ := requireIn_eq_ok hrequire
    rw [if_neg (not_not_intro (Nat.eq_zero_of_not_pos hpositive))] at hrest
    cases hrest
    rfl

end CardGame
