import CardGame.Game.Change
import CardGame.Proofs.Facet
import CardGame.Proofs.Zone.Consistency

/-!
What is true of every game that the rules leave behind. Objects, their owners and the zones agree
(`Game.Housed`), and floating effects are numbered in order and affect permanents only (`Orderly`).
`Game.Sound` is both, and the lemmas here say which of the elementary changes keep it.
-/

namespace CardGame

/-- Floating effects with identities in ascending order below `next`. Each affects something, and
only what is there, and a regeneration shield is on one object and lasts until end of turn. -/
structure Orderly (there : ObjectId → Bool) (next : Nat) (fs : List FloatingEffect) : Prop where
  numbered : fs.Pairwise fun e f => e.id.val < f.id.val
  issued : ∀ e ∈ fs, e.id.val < next
  affecting : ∀ e ∈ fs, e.affected.isEmpty = false
  present : ∀ e ∈ fs, ∀ o, e.affected.contains o = true → there o = true
  shielding : ∀ e ∈ fs, e.modification.change = .regenerationShield → e.duration = .endOfTurn
  single : ∀ e ∈ fs, e.modification.change = .regenerationShield → ∃ o, e.affected = .singleton o

/-- An effect that is left without an object is otherwise as it was. -/
theorem Game.of_releaseFrom {o : ObjectId} {e e' : FloatingEffect}
    (h : releaseFrom o e = some e') :
    e'.id = e.id ∧ e'.modification = e.modification ∧ e'.duration = e.duration ∧
      (e.affected.isEmpty = false → e'.affected.isEmpty = false) ∧
      ∀ o', e'.affected.contains o' = true → o' ≠ o ∧ e.affected.contains o' = true := by
  unfold releaseFrom at h
  split at h
  · split at h
    · cases h
    · next hleft =>
      cases h
      refine ⟨rfl, rfl, rfl, fun _ => by simpa using hleft, ?_⟩
      intro o' ho'
      have hleft' : o ≠ o' ∧ e.affected.contains o' = true := by simpa using ho'
      exact ⟨Ne.symm hleft'.1, hleft'.2⟩
  · next hnot =>
    cases h
    refine ⟨rfl, rfl, rfl, id, ?_⟩
    intro o' ho'
    refine ⟨?_, ho'⟩
    rintro rfl
    exact hnot ho'

/-- What affects one object and is left, still affects that object. -/
theorem Game.singleton_of_releaseFrom {o o' : ObjectId} {e e' : FloatingEffect}
    (h : releaseFrom o e = some e') (hsingle : e.affected = .singleton o') :
    e'.affected = .singleton o' := by
  unfold releaseFrom at h
  split at h
  · next hcontains =>
    rw [hsingle, SortedSet.contains_singleton, decide_eq_true_eq] at hcontains
    subst hcontains
    rw [hsingle, if_pos (SortedSet.isEmpty_iff.mpr fun k => by simp)] at h
    cases h
  · cases h
    exact hsingle

namespace Orderly

variable {there there' : ObjectId → Bool} {next : Nat} {fs fs' : List FloatingEffect}

theorem nil : Orderly there next [] where
  numbered := List.Pairwise.nil
  issued := by simp
  affecting := by simp
  present := by simp
  shielding := by simp
  single := by simp

theorem mono (h : Orderly there next fs) (hthere : ∀ o, there o = true → there' o = true) :
    Orderly there' next fs :=
  { h with present := fun e he o ho => hthere o (h.present e he o ho) }

theorem sublist (h : Orderly there next fs) (hsub : fs'.Sublist fs) : Orderly there next fs' where
  numbered := h.numbered.sublist hsub
  issued e he := h.issued e (hsub.subset he)
  affecting e he := h.affecting e (hsub.subset he)
  present e he := h.present e (hsub.subset he)
  shielding e he := h.shielding e (hsub.subset he)
  single e he := h.single e (hsub.subset he)

/-- A change to each effect that leaves its identity and what it affects alone. -/
theorem map (h : Orderly there next fs) {f : FloatingEffect → FloatingEffect}
    (hid : ∀ e, (f e).id = e.id) (haffected : ∀ e, (f e).affected = e.affected)
    (hshield : ∀ e, e.duration = .endOfTurn → (f e).duration = .endOfTurn)
    (hchange : ∀ e, (f e).modification = e.modification) : Orderly there next (fs.map f) := by
  constructor
  · exact List.pairwise_map.mpr (h.numbered.imp fun hlt => by simpa [hid] using hlt)
  all_goals
    intro e' he'
    obtain ⟨e, he, rfl⟩ := List.mem_map.mp he'
  · simpa [hid] using h.issued e he
  · simpa [haffected] using h.affecting e he
  · simpa [haffected] using h.present e he
  · intro hshielding
    exact hshield e (h.shielding e he (by simpa [hchange] using hshielding))
  · simpa [hchange, haffected] using h.single e he

theorem append (h : Orderly there next fs) {e : FloatingEffect} (hid : e.id.val = next)
    (haffecting : e.affected.isEmpty = false)
    (hpresent : ∀ o, e.affected.contains o = true → there o = true)
    (hshield : e.modification.change = .regenerationShield → e.duration = .endOfTurn)
    (hsingle : e.modification.change = .regenerationShield → ∃ o, e.affected = .singleton o) :
    Orderly there (next + 1) (fs ++ [e]) := by
  have hmem {e' : FloatingEffect} (he' : e' ∈ fs ++ [e]) : e' ∈ fs ∨ e' = e := by simpa using he'
  constructor
  · refine List.pairwise_append.mpr ⟨h.numbered, List.pairwise_singleton _ _, ?_⟩
    intro e₁ he₁ e₂ he₂
    rw [List.mem_singleton.mp he₂, hid]
    exact h.issued e₁ he₁
  all_goals
    intro e' he'
    rcases hmem he' with hold | rfl
  · have := h.issued e' hold
    omega
  · omega
  · exact h.affecting e' hold
  · exact haffecting
  · exact h.present e' hold
  · exact hpresent
  · exact h.shielding e' hold
  · exact hshield
  · exact h.single e' hold
  · exact hsingle

/-- Without an object, floating effects affect only what else is there. -/
theorem release (h : Orderly there next fs) (o : ObjectId) :
    Orderly (fun o' => decide (o' ≠ o) && there o') next
      (fs.filterMap (Game.releaseFrom o)) := by
  constructor
  · refine List.Pairwise.filterMap _ ?_ h.numbered
    intro e₁ e₂ hlt e₁' h₁ e₂' h₂
    rw [(Game.of_releaseFrom h₁).1, (Game.of_releaseFrom h₂).1]
    exact hlt
  all_goals
    intro e' he'
    obtain ⟨e, he, hrelease⟩ := List.mem_filterMap.mp he'
    obtain ⟨hid, hmodification, hduration, hsome, haffected⟩ := Game.of_releaseFrom hrelease
  · rw [hid]
    exact h.issued e he
  · exact hsome (h.affecting e he)
  · intro o' ho'
    obtain ⟨hne, hold⟩ := haffected o' ho'
    simpa [hne] using h.present e he o' hold
  · rw [hmodification, hduration]
    exact h.shielding e he
  · rw [hmodification]
    intro hshielding
    obtain ⟨o', ho'⟩ := h.single e he hshielding
    exact ⟨o', Game.singleton_of_releaseFrom hrelease ho'⟩

end Orderly

theorem ObjectId.firstObject_eq {seats : Nat} (h : seats ≤ 255) : firstObject seats = seats :=
  Nat.mod_eq_of_lt (by omega)

namespace Game

variable {g g' : Game} {o : ObjectId} {z : Zone}

/-- Every card and token is in one zone of its owner, and every player is seated and in none. New
objects get identities that were never used. -/
structure Housed (g : Game) : Prop where
  consistent : g.zones.Consistent
  seated : g.seats ≤ 255
  known : ∀ {s : Seat} (kind : ZoneKind), s.index < g.seats → g.zones.knows ⟨s, kind⟩ = true
  located : ∀ {o : ObjectId}, (∃ z, g.zone? o = some z) ↔ g.contains o = true ∧ g.seat? o = none
  players : ∀ {s : Seat}, s.index < g.seats → g.contains (.ofSeat s) = true
  owned : ∀ {o : ObjectId} {z : Zone}, g.zone? o = some z → (g.facets o).owner? = some z.owner
  fresh : ∀ {o : ObjectId}, g.contains o = true → o.val < g.nextObject
  reserved : ObjectId.firstObject g.seats ≤ g.nextObject

/-- Objects are where they belong, and floating effects are in order. -/
structure Sound (g : Game) : Prop where
  housed : g.Housed
  orderly : Orderly g.onBattlefield g.nextFloating g.floating

theorem onBattlefield_iff : g.onBattlefield o = true ↔ ∃ s, g.zone? o = some ⟨s, .battlefield⟩ :=
  Zones.isIn_iff

theorem Housed.contains_of_zone? (h : g.Housed) (hzone : g.zone? o = some z) :
    g.contains o = true :=
  (h.located.mp ⟨z, hzone⟩).1

theorem Housed.seat?_of_zone? (h : g.Housed) (hzone : g.zone? o = some z) : g.seat? o = none :=
  (h.located.mp ⟨z, hzone⟩).2

/-- What is in a zone belongs to the zone's owner. -/
theorem Housed.owner?_of_zone? (h : g.Housed) (hzone : g.zone? o = some z) :
    g.owner? o = some z.owner := by
  rw [owner?, h.seat?_of_zone? hzone, Option.none_or, h.owned hzone]

theorem Housed.zone?_eq_none (h : g.Housed) (hnot : g.contains o = false) : g.zone? o = none := by
  cases hzone : g.zone? o with
  | none => rfl
  | some z =>
    rw [h.contains_of_zone? hzone] at hnot
    cases hnot

/-- The next object does not exist yet. -/
theorem Housed.next_not_contained (h : g.Housed) : g.contains ⟨g.nextObject⟩ = false := by
  rw [Bool.eq_false_iff]
  intro hcontains
  exact absurd (h.fresh hcontains) (Nat.lt_irrefl _)

theorem Housed.zone?_of_mem_allOf {kind : ZoneKind} (h : g.Housed)
    (hmem : o ∈ g.zones.allOf kind) : ∃ s, g.zone? o = some ⟨s, kind⟩ := by
  obtain ⟨s, -, hlisted⟩ := List.mem_flatMap.mp hmem
  exact ⟨s, h.consistent.located hlisted⟩

/-- What the list of permanents shows is on the battlefield. -/
theorem Housed.onBattlefield_of_mem (h : g.Housed) (hmem : o ∈ g.battlefield) :
    g.onBattlefield o = true := onBattlefield_iff.mpr (h.zone?_of_mem_allOf hmem)

theorem Housed.zone?_of_mem_top {s : Seat} {count : Nat} (h : g.Housed)
    (hmem : o ∈ g.topOfLibrary s count) : g.zone? o = some (.library s) :=
  h.consistent.located (List.mem_reverse.mp (List.mem_of_mem_take hmem))

theorem Housed.nodup_topOfLibrary (h : g.Housed) (s : Seat) (count : Nat) :
    (g.topOfLibrary s count).Nodup :=
  (List.nodup_reverse.mpr (h.consistent.nodup_objects _)).sublist (List.take_sublist _ _)

/-- The zones of a kind list nothing twice. -/
theorem Housed.nodup_allOf (h : g.Housed) (kind : ZoneKind) : (g.zones.allOf kind).Nodup :=
  h.consistent.nodup_allOf kind

/-- The same objects exist, with the same owners and in the same zones. -/
structure SameStanding (g g' : Game) : Prop where
  seats : g'.seats = g.seats
  knows : ∀ z, g'.zones.knows z = g.zones.knows z
  zone? : ∀ o, g'.zone? o = g.zone? o
  contains : ∀ o, g'.contains o = g.contains o
  owner? : ∀ o, (g'.facets o).owner? = (g.facets o).owner?
  token : ∀ o, g'.has o .token = g.has o .token
  nextObject : g'.nextObject = g.nextObject

theorem SameStanding.of_eq (hseats : g'.seats = g.seats) (hobjects : g'.objects = g.objects)
    (hzones : g'.zones = g.zones) (hnext : g'.nextObject = g.nextObject) : SameStanding g g' where
  seats := hseats
  knows _ := by rw [hzones]
  zone? _ := by rw [Game.zone?, Game.zone?, hzones]
  contains _ := by rw [Game.contains, Game.contains, hobjects]
  owner? _ := by rw [facets, facets, hobjects]
  token _ := by rw [has, has, facets, facets, hobjects]
  nextObject := hnext

theorem SameStanding.refl (g : Game) : SameStanding g g := .of_eq rfl rfl rfl rfl

theorem SameStanding.trans {g'' : Game} (h : SameStanding g g') (h' : SameStanding g' g'') :
    SameStanding g g'' where
  seats := h'.seats.trans h.seats
  knows z := (h'.knows z).trans (h.knows z)
  zone? o := (h'.zone? o).trans (h.zone? o)
  contains o := (h'.contains o).trans (h.contains o)
  owner? o := (h'.owner? o).trans (h.owner? o)
  token o := (h'.token o).trans (h.token o)
  nextObject := h'.nextObject.trans h.nextObject

theorem SameStanding.onBattlefield (h : SameStanding g g') (o : ObjectId) :
    g'.onBattlefield o = g.onBattlefield o :=
  congrArg (fun zone => Option.any (fun z : Zone => z.kind = .battlefield) zone) (h.zone? o)

theorem Housed.congr (h : g.Housed) (hsame : SameStanding g g')
    (hconsistent : g'.zones.Consistent) : g'.Housed where
  consistent := hconsistent
  seated := hsame.seats ▸ h.seated
  known kind hs := by
    rw [hsame.knows]
    exact h.known kind (hsame.seats ▸ hs)
  located {o} := by
    rw [hsame.zone?, hsame.contains, seat?, hsame.seats]
    exact h.located
  players hs := by
    rw [hsame.contains]
    exact h.players (hsame.seats ▸ hs)
  owned hzone := by
    rw [hsame.owner?]
    exact h.owned (hsame.zone? _ ▸ hzone)
  fresh hcontains := by
    rw [hsame.nextObject]
    exact h.fresh (hsame.contains _ ▸ hcontains)
  reserved := by
    rw [hsame.nextObject, hsame.seats]
    exact h.reserved

theorem Sound.congr (h : g.Sound) (hsame : SameStanding g g') (hconsistent : g'.zones.Consistent)
    (hfloating : g'.floating = g.floating) (hnext : g'.nextFloating = g.nextFloating) :
    g'.Sound where
  housed := h.housed.congr hsame hconsistent
  orderly := by
    rw [hfloating, hnext, funext hsame.onBattlefield]
    exact h.orderly

/-- Fewer floating effects are in order, too. -/
theorem Sound.sublist (h : g.Sound) {fs : List FloatingEffect} (hsub : fs.Sublist g.floating) :
    ({ g with floating := fs } : Game).Sound :=
  ⟨h.housed.congr (.of_eq rfl rfl rfl rfl) h.housed.consistent, h.orderly.sublist hsub⟩

/-- A question about facets that a change of facets does not affect has the same answer. -/
theorem apply_facets_modify {β : Type} (get : Facets → β) {F : Facets → Facets}
    (hF : ∀ fs, get (F fs) = get fs) (o o' : ObjectId) :
    get (({ g with objects := g.objects.modify o F } : Game).facets o') = get (g.facets o') := by
  simp only [facets, SortedMap.find?_modify]
  split
  · cases g.objects.find? o' with
    | none => rfl
    | some fs => exact hF fs
  · rfl

theorem sameStanding_modify {F : Facets → Facets} (howner : ∀ fs, (F fs).owner? = fs.owner?)
    (htoken : ∀ fs, (F fs).has .token = fs.has .token) (o : ObjectId) :
    SameStanding g { g with objects := g.objects.modify o F } where
  seats := rfl
  knows _ := rfl
  zone? _ := rfl
  contains _ := SortedMap.contains_modify _ _ _ _
  owner? := apply_facets_modify _ howner o
  token := apply_facets_modify (fun fs => fs.has .token) htoken o
  nextObject := rfl

/-- What an object is and whose it is does not change with its state on the battlefield. -/
theorem kind_ne_of_permanent {kind : FacetKind} (hkind : kind ∈ permanentFacets) :
    kind ≠ .owner ∧ kind ≠ .token := by
  constructor <;> rintro rfl <;> simp [permanentFacets] at hkind

theorem sameStanding_insert {f : Facet} (howner : f.kind ≠ .owner) (htoken : f.kind ≠ .token)
    (o : ObjectId) : SameStanding g { g with objects := g.objects.modify o (·.insert f) } :=
  sameStanding_modify (fun _ => Facets.owner?_insert howner) (fun _ => Facets.has_insert htoken) o

theorem sameStanding_eraseFacet {kind : FacetKind} (hkind : kind ∈ permanentFacets)
    (o : ObjectId) : SameStanding g (g.eraseFacet o kind) := by
  obtain ⟨howner, htoken⟩ := kind_ne_of_permanent hkind
  exact sameStanding_modify (fun _ => Facets.owner?_erase howner)
    (fun _ => Facets.has_erase htoken) o

theorem facets_modify_self {F : Facets → Facets} (hcontains : g.contains o = true) :
    ({ g with objects := g.objects.modify o F } : Game).facets o = F (g.facets o) := by
  obtain ⟨fs, hfs⟩ := SortedMap.contains_iff.mp hcontains
  simp [facets, hfs]

theorem facets_modify_of_ne {F : Facets → Facets} {o' : ObjectId} (hne : o ≠ o') :
    ({ g with objects := g.objects.modify o F } : Game).facets o' = g.facets o' := by
  simp [facets, Ne.symm hne]

/-- A change to what is known about one object changes it, or leaves it alone. -/
theorem facets_modify_cases (F : Facets → Facets) (o o' : ObjectId) :
    ({ g with objects := g.objects.modify o F } : Game).facets o' = g.facets o' ∨
      ({ g with objects := g.objects.modify o F } : Game).facets o' = F (g.facets o') := by
  simp only [facets, SortedMap.find?_modify]
  split
  · cases g.objects.find? o' with
    | none => exact Or.inl rfl
    | some fs => exact Or.inr rfl
  · exact Or.inl rfl

theorem setFacet_eq_ok {f : Facet} {u : Unit} (h : setFacet o f g = .ok u g') :
    g.contains o = true ∧ g' = { g with objects := g.objects.modify o (·.insert f) } := by
  unfold setFacet at h
  split at h
  · next hcontains =>
    cases h
    exact ⟨hcontains, rfl⟩
  · cases h

theorem setLife_eq_ok {s : Seat} {life : Int} {u : Unit} (h : setLife s life g = .ok u g') :
    ∃ poison, g' =
      { g with objects := g.objects.modify (.ofSeat s) (·.insert (.player life poison)) } := by
  unfold setLife at h
  split at h
  · next poison _ => exact ⟨poison, (setFacet_eq_ok h).2⟩
  · cases h

/-- A new life total leaves the poison counters as they are. -/
theorem player?_of_setLife {s : Seat} {life : Int} {u : Unit} (h : setLife s life g = .ok u g') :
    ∃ before poison, (g.facets (.ofSeat s)).player? = some (before, poison) ∧
      setFacet (.ofSeat s) (.player life poison) g = .ok u g' := by
  unfold setLife at h
  split at h
  · next before poison hplayer => exact ⟨before, poison, hplayer, h⟩
  · cases h

theorem enterBattlefield_eq_ok {controller : Seat} {u : Unit}
    (h : enterBattlefield o controller g = .ok u g') :
    g' = { g with
      nextTimestamp := g.nextTimestamp + 1
      objects := (g.objects.modify o (·.insert (.entered g.turn.number g.nextTimestamp))).modify o
        (·.insert (.controller controller)) } := by
  change EStateM.bind (setFacet o _) _ { g with nextTimestamp := g.nextTimestamp + 1 } = _ at h
  unfold EStateM.bind at h
  split at h
  · next u₁ g₁ hentered =>
    obtain ⟨-, rfl⟩ := setFacet_eq_ok hentered
    exact (setFacet_eq_ok h).2
  · cases h

theorem exists_enterBattlefield (controller : Seat) (hcontains : g.contains o = true) :
    ∃ g', enterBattlefield o controller g = .ok () g' := by
  refine ⟨{ g with
    nextTimestamp := g.nextTimestamp + 1
    objects := (g.objects.modify o (·.insert (.entered g.turn.number g.nextTimestamp))).modify o
      (·.insert (.controller controller)) }, ?_⟩
  change EStateM.bind (setFacet o _) _ { g with nextTimestamp := g.nextTimestamp + 1 } = _
  have hobjects : g.objects.contains o = true := hcontains
  simp [EStateM.bind, setFacet, contains, hobjects]

theorem sameStanding_enterBattlefield {controller : Seat} {u : Unit}
    (h : enterBattlefield o controller g = .ok u g') : SameStanding g g' := by
  rw [enterBattlefield_eq_ok h]
  have hentered : SameStanding g { g with
      objects := g.objects.modify o (·.insert (.entered g.turn.number g.nextTimestamp)) } :=
    sameStanding_insert (by simp [Facet.kind]) (by simp [Facet.kind]) o
  have hcontroller := hentered.trans (sameStanding_insert (f := .controller controller)
    (by simp [Facet.kind]) (by simp [Facet.kind]) o)
  exact hcontroller.trans (.of_eq rfl rfl rfl rfl)

theorem sameStanding_eraseFacets {kinds : List FacetKind}
    (hkinds : ∀ kind ∈ kinds, kind ∈ permanentFacets) (o : ObjectId) :
    SameStanding g (g.eraseFacets o kinds) := by
  induction kinds generalizing g with
  | nil => exact .refl g
  | cons kind rest ih =>
    have hfirst := sameStanding_eraseFacet (g := g) (hkinds kind List.mem_cons_self) o
    exact hfirst.trans (ih fun kind hkind => hkinds kind (List.mem_cons_of_mem _ hkind))

end Game

end CardGame
