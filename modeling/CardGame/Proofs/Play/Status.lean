import CardGame.Proofs.Play.Invariant

/-!
The status of permanents. What is known about an object fits where it is (`Facets.Fit`): a permanent
has entered the battlefield and has a controller, and nothing else has, or is tapped, damaged, in
combat, attached or under counters. The combat of a turn is scheduled from outside, so the games
considered here are those in which permanents may also be marked as part of it (`Game.Scheduled`).
-/

namespace CardGame

/-- The counters on a permanent are some, and at least one of each kind that there is. -/
structure Counters.Genuine (c : Counters) : Prop where
  nonempty : c.isEmpty = false
  positive : ∀ {kind : CounterKind} {n : Nat}, c.counts.find? kind = some n → n ≠ 0

namespace Facets

variable {fs : Facets} {there : Bool}

/-- Every facet is kept under its own kind. -/
def Sorted (fs : Facets) : Prop :=
  ∀ kind f, fs.byKind.find? kind = some f → f.kind = kind

/-- What is known about an object that is on the battlefield, or that is not. -/
structure Fit (there : Bool) (fs : Facets) : Prop where
  sorted : fs.Sorted
  entered : fs.has .entered = there
  controlled : fs.has .controller = there
  status : ∀ kind ∈ Game.statusFacets, fs.has kind = true → there = true
  counted : ∀ {c : Counters}, fs.counters? = some c → c.Genuine
  damaged : ∀ {n : Int}, fs.damage? = some n → 1 ≤ n
  token : fs.has .token = true → there = true

/-- What is known about an object with none of the facets of a permanent. -/
structure Bare (fs : Facets) : Prop where
  sorted : fs.Sorted
  lacks : ∀ kind ∈ Game.permanentFacets, fs.has kind = false

theorem Sorted.insert (h : fs.Sorted) (f : Facet) : (fs.insert f).Sorted := by
  intro kind f' hfind
  rw [Facets.insert, SortedMap.find?_insert] at hfind
  split at hfind
  · next hkind =>
    cases hfind
    exact hkind
  · exact h kind f' hfind

theorem Sorted.erase (h : fs.Sorted) (kind : FacetKind) : (fs.erase kind).Sorted := by
  intro kind' f hfind
  rw [Facets.erase, SortedMap.find?_erase] at hfind
  split at hfind
  · cases hfind
  · exact h kind' f hfind

theorem has_insert_self (f : Facet) : (fs.insert f).has f.kind = true := by
  simp [has, insert]

theorem has_erase_self (kind : FacetKind) : (fs.erase kind).has kind = false := by
  simp [has, erase]

/-- What has a kind of facet has the facet of that kind. -/
theorem Sorted.exists_facet (h : fs.Sorted) {kind : FacetKind} (hhas : fs.has kind = true) :
    ∃ f, fs.byKind.find? kind = some f ∧ f.kind = kind := by
  obtain ⟨f, hf⟩ := SortedMap.contains_iff.mp hhas
  exact ⟨f, hf, h kind f hf⟩

theorem bare_empty : Facets.empty.Bare := by
  constructor
  · intro kind f hfind
    cases hfind
  · intro kind _
    rfl

theorem Fit.bare (h : fs.Fit false) : fs.Bare where
  sorted := h.sorted
  lacks kind hkind := by
    by_cases hstatus : kind ∈ Game.statusFacets
    · rw [Bool.eq_false_iff]
      intro hhas
      cases h.status kind hstatus hhas
    · have hentry : kind = .entered ∨ kind = .controller := by
        cases kind <;> simp [Game.permanentFacets, Game.statusFacets] at hkind hstatus ⊢
      rcases hentry with rfl | rfl
      · exact h.entered
      · exact h.controlled

theorem Bare.counters? (h : fs.Bare) : fs.counters? = none := by
  have hnone : fs.has .counters = false := h.lacks .counters (by simp [Game.permanentFacets])
  rw [Facets.counters?, SortedMap.find?_eq_none hnone]

theorem Bare.damage? (h : fs.Bare) : fs.damage? = none := by
  have hnone : fs.has .damage = false := h.lacks .damage (by simp [Game.permanentFacets])
  rw [Facets.damage?, SortedMap.find?_eq_none hnone]

/-- Nothing that is no token need be on the battlefield to lack the facets of a permanent. -/
theorem Bare.fit (h : fs.Bare) (htoken : fs.has .token = false) : fs.Fit false where
  sorted := h.sorted
  entered := h.lacks .entered (by simp [Game.permanentFacets])
  controlled := h.lacks .controller (by simp [Game.permanentFacets])
  status kind hkind hhas := by
    rw [h.lacks kind (Game.mem_permanentFacets_of_status hkind)] at hhas
    exact hhas
  counted hc := by
    rw [h.counters?] at hc
    cases hc
  damaged hn := by
    rw [h.damage?] at hn
    cases hn
  token hhas := by
    rw [htoken] at hhas
    exact hhas

theorem counters?_insert {f : Facet} {c : Counters} (h : (fs.insert f).counters? = some c) :
    f = .counters c ∨ fs.counters? = some c := by
  rw [counters?, insert, SortedMap.find?_insert] at h
  by_cases hkind : f.kind = .counters
  · rw [if_pos hkind] at h
    refine Or.inl ?_
    cases f <;> cases hkind
    exact congrArg Facet.counters (Option.some.inj h)
  · rw [if_neg hkind] at h
    exact Or.inr h

theorem damage?_insert {f : Facet} {n : Int} (h : (fs.insert f).damage? = some n) :
    f = .damage n ∨ fs.damage? = some n := by
  rw [damage?, insert, SortedMap.find?_insert] at h
  by_cases hkind : f.kind = .damage
  · rw [if_pos hkind] at h
    refine Or.inl ?_
    cases f <;> cases hkind
    exact congrArg Facet.damage (Option.some.inj h)
  · rw [if_neg hkind] at h
    exact Or.inr h

/-- A facet may be recorded that fits where the object is, as long as counters and damage are
some. -/
theorem Fit.insert {f : Facet} (h : fs.Fit there)
    (hthere : f.kind ∈ Game.permanentFacets → there = true) (htoken : f.kind ≠ .token)
    (hcounted : ∀ c, f = .counters c → c.Genuine) (hdamaged : ∀ n, f = .damage n → 1 ≤ n) :
    (fs.insert f).Fit there := by
  have hmarked {kind : FacetKind} (hkind : kind ∈ Game.permanentFacets)
      (hhas : fs.has kind = there) : (fs.insert f).has kind = there := by
    by_cases hf : f.kind = kind
    · rw [← hf, has_insert_self]
      exact (hthere (hf ▸ hkind)).symm
    · rw [has_insert hf, hhas]
  constructor
  · exact h.sorted.insert f
  · exact hmarked (by simp [Game.permanentFacets]) h.entered
  · exact hmarked (by simp [Game.permanentFacets]) h.controlled
  · intro kind hkind hhas
    by_cases hf : f.kind = kind
    · exact hthere (hf ▸ Game.mem_permanentFacets_of_status hkind)
    · rw [has_insert hf] at hhas
      exact h.status kind hkind hhas
  · intro c hc
    rcases counters?_insert hc with hnew | hold
    · exact hcounted c hnew
    · exact h.counted hold
  · intro n hn
    rcases damage?_insert hn with hnew | hold
    · exact hdamaged n hnew
    · exact h.damaged hold
  · intro hhas
    rw [has_insert htoken] at hhas
    exact h.token hhas

/-- The status of a permanent may be forgotten. -/
theorem Fit.erase {kind : FacetKind} (h : fs.Fit there) (hkind : kind ∈ Game.statusFacets) :
    (fs.erase kind).Fit there := by
  have hentered : kind ≠ .entered := by
    rintro rfl
    simp [Game.statusFacets] at hkind
  have hcontroller : kind ≠ .controller := by
    rintro rfl
    simp [Game.statusFacets] at hkind
  have hold {kind' : FacetKind} {f : Facet} (hfind : (fs.erase kind).byKind.find? kind' = some f) :
      fs.byKind.find? kind' = some f := by
    rw [Facets.erase, SortedMap.find?_erase] at hfind
    split at hfind
    · cases hfind
    · exact hfind
  have hstill {kind' : FacetKind} (hhas : (fs.erase kind).has kind' = true) :
      fs.has kind' = true := by
    obtain ⟨f, hf⟩ := SortedMap.contains_iff.mp hhas
    exact SortedMap.contains_iff.mpr ⟨f, hold hf⟩
  constructor
  · exact h.sorted.erase kind
  · rw [has_erase hentered, h.entered]
  · rw [has_erase hcontroller, h.controlled]
  · intro kind' hkind' hhas
    exact h.status kind' hkind' (hstill hhas)
  · intro c hc
    refine h.counted (c := c) ?_
    rw [counters?, Facets.erase, SortedMap.find?_erase] at hc
    by_cases hcounters : kind = .counters
    · rw [if_pos hcounters] at hc
      cases hc
    · rw [if_neg hcounters] at hc
      exact hc
  · intro n hn
    refine h.damaged (n := n) ?_
    rw [damage?, Facets.erase, SortedMap.find?_erase] at hn
    by_cases hdamage : kind = .damage
    · rw [if_pos hdamage] at hn
      cases hn
    · rw [if_neg hdamage] at hn
      exact hn
  · intro hhas
    exact h.token (hstill hhas)

/-- Whatever enters the battlefield is there as a permanent. -/
theorem Bare.enter (h : fs.Bare) (turn timestamp : Nat) (controller : Seat) :
    ((fs.insert (.entered turn timestamp)).insert (.controller controller)).Fit true := by
  constructor
  · exact (h.sorted.insert _).insert _
  · rw [has_insert (by simp [Facet.kind])]
    exact has_insert_self (.entered turn timestamp)
  · exact has_insert_self (.controller controller)
  · intro kind _ _
    rfl
  · intro c hc
    rcases counters?_insert hc with hnew | hc
    · cases hnew
    · rcases counters?_insert hc with hnew | hold
      · cases hnew
      · rw [h.counters?] at hold
        cases hold
  · intro n hn
    rcases damage?_insert hn with hnew | hn
    · cases hnew
    · rcases damage?_insert hn with hnew | hold
      · cases hnew
      · rw [h.damage?] at hold
        cases hold
  · intro _
    rfl

end Facets

namespace Counters

variable {c : Counters} {kind : CounterKind} {n : Nat}

theorem genuine_add (h : ∀ {kind n}, c.counts.find? kind = some n → n ≠ 0) (hn : n ≠ 0) :
    (c.add kind n).Genuine := by
  constructor
  · have hfind : (c.add kind n).counts.find? kind = some (c.count kind + n) := by simp [add]
    exact SortedMap.isEmpty_eq_false hfind
  · intro kind' m hm
    rw [add, SortedMap.find?_insert] at hm
    split at hm
    · cases hm
      omega
    · exact h hm

theorem Genuine.take (h : c.Genuine) (hleft : (c.take kind n).2.isEmpty = false) :
    (c.take kind n).2.Genuine := by
  refine ⟨hleft, ?_⟩
  intro kind' m hm
  simp only [Counters.take] at hm
  split at hm
  · rw [SortedMap.find?_erase] at hm
    split at hm
    · cases hm
    · exact h.positive hm
  · next hsome =>
    rw [SortedMap.find?_insert] at hm
    split at hm
    · cases hm
      exact hsome
    · exact h.positive hm

end Counters

theorem saturate_pos {x : Int} (h : 1 ≤ x) : 1 ≤ saturate x := by
  simp only [saturate, minAmount, maxAmount]
  omega

/-- What a resolution records of a permanent fits. -/
theorem Facets.Fit.records {fs : Facets} {f : Facet} (h : fs.Fit true)
    (hrecords : Game.Records fs f) : (fs.insert f).Fit true := by
  refine h.insert (fun _ => rfl) ?_ ?_ ?_
  · cases hrecords <;> simp [Facet.kind]
  · intro c hc
    cases hrecords with
    | added kind hsome =>
      cases hc
      refine Counters.genuine_add (fun hfind => ?_) hsome
      cases hbefore : fs.counters? with
      | none =>
        rw [hbefore] at hfind
        cases hfind
      | some c =>
        rw [hbefore] at hfind
        exact (h.counted hbefore).positive hfind
    | left kind n hbefore hsome =>
      cases hc
      exact (h.counted hbefore).take hsome
    | _ => cases hc
  · intro n hn
    cases hrecords with
    | damaged hsome =>
      cases hn
      apply saturate_pos
      cases hbefore : fs.damage? with
      | none =>
        simp only [Option.getD_none]
        omega
      | some m =>
        have hmarked := h.damaged hbefore
        simp only [Option.getD_some]
        omega
    | _ => cases hn

namespace Game

variable {g g' : Game} {o : ObjectId}

/-- What is known about every object fits where it is. -/
def Fits (g : Game) : Prop := ∀ o, (g.facets o).Fit (g.onBattlefield o)

theorem Fits.of_eq (h : g.Fits) (hfacets : ∀ o, g'.facets o = g.facets o)
    (hthere : ∀ o, g'.onBattlefield o = g.onBattlefield o) : g'.Fits := by
  intro o
  rw [hfacets, hthere]
  exact h o

/-- Where one object and what is known about it changes, only that has to fit. -/
theorem Fits.update (h : g.Fits) (hself : (g'.facets o).Fit (g'.onBattlefield o))
    (hfacets : ∀ o', o ≠ o' → g'.facets o' = g.facets o')
    (hthere : ∀ o', o ≠ o' → g'.onBattlefield o' = g.onBattlefield o') : g'.Fits := by
  intro o'
  by_cases ho : o = o'
  · exact ho ▸ hself
  · rw [hfacets o' ho, hthere o' ho]
    exact h o'

/-- A mark on one object keeps what fits, where it fits the object. -/
theorem Fits.insert {f : Facet} (h : g.Fits)
    (hself : ((g.facets o).insert f).Fit (g.onBattlefield o)) :
    ({ g with objects := g.objects.modify o (·.insert f) } : Game).Fits := by
  cases hcontains : g.contains o with
  | true =>
    refine h.update (o := o) ?_ (fun o' hne => facets_modify_of_ne hne) fun _ _ => rfl
    rw [facets_modify_self hcontains]
    exact hself
  | false =>
    have hnone : g.objects.find? o = none := SortedMap.find?_eq_none hcontains
    refine h.of_eq (fun o' => ?_) fun _ => rfl
    by_cases ho : o = o'
    · subst ho
      simp [facets, hnone]
    · exact facets_modify_of_ne ho

theorem Fits.eraseFacet {kind : FacetKind} (h : g.Fits) (hkind : kind ∈ statusFacets)
    (o : ObjectId) : (g.eraseFacet o kind).Fits := by
  refine h.update (o := o) ?_ (fun o' hne => facets_modify_of_ne hne) fun _ _ => rfl
  rw [facets_eraseFacet_self]
  exact (h o).erase hkind

theorem Fits.eraseFacets {kinds : List FacetKind} (h : g.Fits)
    (hkinds : ∀ kind ∈ kinds, kind ∈ statusFacets) (o : ObjectId) :
    (g.eraseFacets o kinds).Fits := by
  induction kinds generalizing g with
  | nil => exact h
  | cons kind rest ih =>
    have hfirst := h.eraseFacet (hkinds kind List.mem_cons_self) o
    exact ih hfirst fun kind hkind => hkinds kind (List.mem_cons_of_mem _ hkind)

theorem facets_enterBattlefield_self {controller : Seat} {u : Unit}
    (hcontains : g.contains o = true) (h : enterBattlefield o controller g = .ok u g') :
    g'.facets o = ((g.facets o).insert (.entered g.turn.number g.nextTimestamp)).insert
      (.controller controller) := by
  obtain ⟨fs, hfs⟩ := SortedMap.contains_iff.mp hcontains
  rw [enterBattlefield_eq_ok h]
  simp [facets, hfs]

theorem onBattlefield_enterBattlefield {controller : Seat} {u : Unit}
    (h : enterBattlefield o controller g = .ok u g') (o' : ObjectId) :
    g'.onBattlefield o' = g.onBattlefield o' :=
  (sameStanding_enterBattlefield h).onBattlefield o'

/-- With none of the facets of a permanent left, only what the object is remains. -/
theorem bare_eraseFacets (h : (g.facets o).Sorted) :
    ((g.eraseFacets o permanentFacets).facets o).Bare := by
  have hfold (kinds : List FacetKind) {g : Game} (hsorted : (g.facets o).Sorted) :
      ((g.eraseFacets o kinds).facets o).Sorted ∧
        ∀ kind, ((g.eraseFacets o kinds).facets o).has kind = true →
          kind ∉ kinds ∧ (g.facets o).has kind = true := by
    induction kinds generalizing g with
    | nil => exact ⟨hsorted, fun kind hhas => ⟨List.not_mem_nil, hhas⟩⟩
    | cons first rest ih =>
      have hfirst : ((g.eraseFacet o first).facets o).Sorted := by
        rw [facets_eraseFacet_self]
        exact hsorted.erase first
      obtain ⟨hrest, hleft⟩ := ih hfirst
      refine ⟨hrest, fun kind hhas => ?_⟩
      obtain ⟨hnot, hbefore⟩ := hleft kind hhas
      rw [facets_eraseFacet_self] at hbefore
      by_cases hkind : first = kind
      · rw [← hkind, Facets.has_erase_self] at hbefore
        cases hbefore
      · rw [Facets.has_erase hkind] at hbefore
        refine ⟨?_, hbefore⟩
        rw [List.mem_cons, not_or]
        exact ⟨Ne.symm hkind, hnot⟩
  obtain ⟨hsorted, hleft⟩ := hfold permanentFacets h
  refine ⟨hsorted, fun kind hkind => ?_⟩
  rw [Bool.eq_false_iff]
  intro hhas
  exact (hleft kind hhas).1 hkind

theorem onBattlefield_of_zone? {z : Zone} (h : g.zone? o = some z) :
    g.onBattlefield o = decide (z.kind = .battlefield) := by
  simp only [onBattlefield, Zones.isIn, Game.zone?] at h ⊢
  rw [h]
  rfl

/-- What has left the battlefield fits: it has nothing left that only permanents have. -/
theorem fit_leaveBattlefield (h : (g.facets o).Fit true) (hgone : g.onBattlefield o = false) :
    ((g.leaveBattlefield o).facets o).Fit ((g.leaveBattlefield o).onBattlefield o) := by
  have hthere : (g.leaveBattlefield o).onBattlefield o = false := by
    rcases zones_leaveBattlefield (g := g) (o := o) with hkept | hremoved
    · rw [onBattlefield, hkept]
      exact hgone
    · rw [onBattlefield, hremoved, Zones.isIn, Zones.zone?_remove_eq, if_pos rfl]
      rfl
  rw [hthere, facets_leaveBattlefield_self]
  cases htoken : g.has o .token with
  | true => exact Facets.bare_empty.fit rfl
  | false =>
    refine (bare_eraseFacets h.sorted).fit ?_
    have hsame : SameStanding g (g.eraseFacets o permanentFacets) :=
      sameStanding_eraseFacets (fun _ hkind => hkind) o
    exact (hsame.token o).trans htoken

theorem Fits.move {target origin : Zone} {p : Position} {controller : Option Seat} (h : g.Fits)
    (hsound : g.Sound) (hmove : Game.move o target p controller g = .ok origin g') : g'.Fits := by
  obtain ⟨zones, hzones, hcases⟩ := move_eq_ok hmove
  have horigin : g.zone? o = some origin := Zones.zone?_of_move hzones
  have hbefore : (g.facets o).Fit (decide (origin.kind = .battlefield)) :=
    onBattlefield_of_zone? horigin ▸ h o
  have hmoved : ({ g with zones } : Game).onBattlefield o =
      decide (target.kind = .battlefield) := by
    rw [onBattlefield_relocate hzones, if_pos rfl]
  have hstay (o' : ObjectId) (hne : o ≠ o') : g'.onBattlefield o' = g.onBattlefield o' := by
    have hzone := zone?_move_of_ne hmove hne
    simp only [onBattlefield, Zones.isIn, Game.zone?] at hzone ⊢
    rw [hzone]
  rcases hcases with ⟨hfrom, hto, rfl⟩ | ⟨hiff, rfl⟩ | ⟨hfrom, hto, henter⟩
  · refine h.update (o := o) ?_ (fun o' hne => facets_leaveBattlefield_of_ne hne) hstay
    refine fit_leaveBattlefield (g := { g with zones }) ?_ ?_
    · rw [decide_eq_true hfrom] at hbefore
      exact hbefore
    · rw [hmoved, decide_eq_false hto]
  · refine h.update (o := o) ?_ (fun _ _ => rfl) hstay
    rw [hmoved, ← decide_eq_decide.mpr hiff]
    exact hbefore
  · have hothers (o' : ObjectId) (hne : o ≠ o') : g'.facets o' = g.facets o' :=
      facets_enterBattlefield_of_ne (g := { g with zones }) henter hne
    refine h.update (o := o) ?_ hothers hstay
    have hcontains : g.contains o = true := hsound.housed.contains_of_zone? horigin
    have hthere : g'.onBattlefield o = true := by
      rw [onBattlefield_enterBattlefield henter, hmoved]
      exact decide_eq_true hto
    rw [hthere, facets_enterBattlefield_self (g := { g with zones }) hcontains henter]
    rw [decide_eq_false hfrom] at hbefore
    exact hbefore.bare.enter _ _ _

theorem bare_newFacets (card : Card) (owner : Seat) (token : Bool) :
    (newFacets card owner token).Bare := by
  constructor
  · unfold newFacets
    cases token
    · exact (Facets.bare_empty.sorted.insert _).insert _
    · exact ((Facets.bare_empty.sorted.insert _).insert _).insert _
  · intro kind hkind
    cases token <;> cases kind <;> simp [permanentFacets] at hkind <;> rfl

/-- A card fits wherever it is brought in, and a token on the battlefield. -/
theorem Fits.spawn {card : Card} {owner : Seat} {kind : ZoneKind} {token : Bool} (h : g.Fits)
    (htoken : token = true → kind = .battlefield)
    (hspawn : Game.spawn card owner kind token g = .ok o g') : g'.Fits := by
  obtain ⟨rfl, zones, hadd, hcases⟩ := spawn_eq_ok hspawn
  have hzone (o' : ObjectId) : (g.arrival card owner token zones).zone? o' =
      if (⟨g.nextObject⟩ : ObjectId) = o' then some ⟨owner, kind⟩ else g.zone? o' :=
    Zones.zone?_add hadd o'
  have hthere : (g.arrival card owner token zones).onBattlefield ⟨g.nextObject⟩ =
      decide (kind = .battlefield) := onBattlefield_of_zone? (by rw [hzone, if_pos rfl])
  have hothers (o' : ObjectId) (hne : (⟨g.nextObject⟩ : ObjectId) ≠ o') :
      (g.arrival card owner token zones).onBattlefield o' = g.onBattlefield o' := by
    have hsame := hzone o'
    rw [if_neg hne] at hsame
    simp only [onBattlefield, Zones.isIn, Game.zone?] at hsame ⊢
    rw [hsame]
  have hfacets : (g.arrival card owner token zones).facets ⟨g.nextObject⟩ =
      newFacets card owner token := by rw [facets_arrival, if_pos rfl]
  have hbare := bare_newFacets card owner token
  rcases hcases with ⟨hkind, rfl⟩ | ⟨hkind, henter⟩
  · refine h.update (o := ⟨g.nextObject⟩) ?_ (fun o' hne => facets_spawn_of_ne hspawn hne) hothers
    rw [hfacets, hthere, decide_eq_false hkind]
    refine hbare.fit ?_
    rw [has_token_newFacets, Bool.eq_false_iff]
    exact fun htrue => hkind (htoken htrue)
  · refine h.update (o := ⟨g.nextObject⟩) ?_ (fun o' hne => facets_spawn_of_ne hspawn hne) ?_
    · have hcontains : (g.arrival card owner token zones).contains ⟨g.nextObject⟩ = true := by
        simp [contains_arrival]
      rw [onBattlefield_enterBattlefield henter, hthere, decide_eq_true hkind,
        facets_enterBattlefield_self hcontains henter, hfacets]
      exact hbare.enter _ _ _
    · intro o' hne
      rw [onBattlefield_enterBattlefield henter]
      exact hothers o' hne

theorem Fits.alter {lasting : Duration → Prop} (h : g.Fits) (hsound : g.Sound)
    (halter : Alter lasting g g') : g'.Fits := by
  cases halter with
  | move howner hmove => exact h.move hsound hmove
  | sink hzone hmove =>
    exact h.of_eq (fun _ => rfl) (sameStanding_sink hzone hmove).onBattlefield
  | shuffle s =>
    exact h.of_eq (fun _ => rfl) (hsound.housed.shuffleLibrary s).1.onBattlefield
  | @mark _ o f _ hrecords hthere hset =>
    obtain ⟨-, rfl⟩ := setFacet_eq_ok hset
    refine h.insert ?_
    have hbefore := h o
    rw [hthere] at hbefore ⊢
    exact hbefore.records hrecords
  | unmark o kinds hkinds => exact h.eraseFacets hkinds o
  | @life _ s life u hset =>
    obtain ⟨poison, rfl⟩ := setLife_eq_ok hset
    refine h.insert ((h _).insert ?_ ?_ ?_ ?_) <;> simp [Facet.kind, permanentFacets]
  | create hspawn => exact h.spawn (fun _ => rfl) hspawn
  | reorder hreorder =>
    obtain ⟨hknows, hperm, rfl⟩ := Zones.reorder_eq_ok hreorder
    exact h.of_eq (fun _ => rfl) (sameStanding_rearrange hknows).onBattlefield
  | _ => exact h.of_eq (fun _ => rfl) fun _ => rfl

theorem kept_fits : Kept Fits where
  alter hsound h halter := h.alter hsound halter
  suspend _ _ _ h := h.of_eq (fun _ => rfl) fun _ => rfl
  thin _ h := h.of_eq (fun _ => rfl) fun _ => rfl
  countDown h := h.of_eq (fun _ => rfl) fun _ => rfl
  schedule _ h := h.of_eq (fun _ => rfl) fun _ => rfl
  arrive _ h hspawn := h.spawn (fun htoken => Bool.noConfusion htoken) hspawn

theorem fits_start {s : TableSettings} (h : start s = .ok g) : g.Fits := by
  intro o
  have hthere : g.onBattlefield o = false := by
    obtain ⟨-, rfl⟩ := start_eq_ok h
    rfl
  have hempty : Facets.empty.Fit false := Facets.bare_empty.fit rfl
  rw [hthere]
  rcases facets_start h o with hnone | hplayer
  · rw [hnone]
    exact hempty
  · rw [hplayer]
    refine hempty.insert ?_ ?_ ?_ ?_ <;> simp [Facet.kind, permanentFacets]

/-- The facets that the scheduler of combat and of attachments records. -/
def combatFacets : List FacetKind := [.attacking, .blocking, .blocked, .attached]

/-- A game that comes up when permanents are also marked for combat or as attached, and these marks
taken off again. -/
inductive Scheduled : Game → Prop
  | start {s : TableSettings} {g : Game} (h : start s = .ok g) : Scheduled g
  | move {g : Game} (m : Move) (h : Scheduled g) (hseated : m.Seated g) : Scheduled (m.apply g)
  | mark {g g' : Game} {o : ObjectId} {f : Facet} {u : Unit} (h : Scheduled g)
      (hkind : f.kind ∈ combatFacets) (hthere : g.onBattlefield o = true)
      (hset : setFacet o f g = .ok u g') : Scheduled g'
  | clear {g : Game} (o : ObjectId) {kind : FacetKind} (h : Scheduled g)
      (hkind : kind ∈ combatFacets) : Scheduled (g.eraseFacet o kind)

theorem mem_statusFacets_of_combat {kind : FacetKind} (h : kind ∈ combatFacets) :
    kind ∈ statusFacets := by
  cases kind <;> simp [combatFacets, statusFacets] at h ⊢

/-- Every game with combat is sound and poised, and what is known about its objects fits. -/
theorem Scheduled.fits (h : g.Scheduled) : g.Sound ∧ g.Poised ∧ g.Fits := by
  induction h with
  | start h => exact ⟨sound_start h, poised_start h, fits_start h⟩
  | move m _ hseated ih =>
    obtain ⟨hsound, hpoised, hfits⟩ := ih
    obtain ⟨hsound', hpoised'⟩ := sound_poised_apply hsound hpoised m hseated
    exact ⟨hsound', hpoised', kept_fits.apply hsound hpoised hfits m hseated⟩
  | @mark g g' o f u _ hkind hthere hset ih =>
    obtain ⟨hsound, hpoised, hfits⟩ := ih
    have hstatus := mem_statusFacets_of_combat hkind
    obtain ⟨howner, htoken⟩ := kind_ne_of_permanent (mem_permanentFacets_of_status hstatus)
    obtain ⟨-, rfl⟩ := setFacet_eq_ok hset
    -- Marks of combat are no part of where an object is or whose it is.
    have hsame := sameStanding_insert (g := g) howner htoken o
    refine ⟨hsound.congr hsame hsound.housed.consistent rfl rfl,
      hpoised.congr ⟨rfl, rfl, rfl⟩ fun o z hzone => (hsame.zone? o).trans hzone, ?_⟩
    refine hfits.insert ((hfits o).insert (fun _ => hthere) htoken ?_ ?_)
    · rintro c rfl
      simp [combatFacets, Facet.kind] at hkind
    · rintro n rfl
      simp [combatFacets, Facet.kind] at hkind
  | @clear g o kind _ hkind ih =>
    obtain ⟨hsound, hpoised, hfits⟩ := ih
    have hstatus := mem_statusFacets_of_combat hkind
    have hsame := sameStanding_eraseFacet (g := g) (mem_permanentFacets_of_status hstatus) o
    exact ⟨hsound.congr hsame hsound.housed.consistent rfl rfl,
      hpoised.congr ⟨rfl, rfl, rfl⟩ fun o z hzone => (hsame.zone? o).trans hzone,
      hfits.eraseFacet hstatus o⟩

/-- Only what is on the battlefield has entered it, has a controller recorded or has the status of
a permanent. Counters and damage are never none, and tokens are nowhere else. -/
structure StatusInPlay (g : Game) : Prop where
  entered : ∀ o, g.has o .entered = true ↔ g.onBattlefield o = true
  controlled : ∀ o, g.has o .controller = true ↔ g.onBattlefield o = true
  status : ∀ o, ∀ kind ∈ statusFacets, g.has o kind = true → g.onBattlefield o = true
  counters : ∀ o, g.has o .counters = true → ∃ c, (g.facets o).counters? = some c ∧
    c.isEmpty = false ∧ ∀ kind n, c.counts.find? kind = some n → n ≠ 0
  damage : ∀ o, g.has o .damage = true → ∃ n, (g.facets o).damage? = some n ∧ 1 ≤ n
  token : ∀ o, g.has o .token = true → g.onBattlefield o = true

/-- In every game that comes up the status of permanents is a matter of the battlefield. -/
theorem Scheduled.statusInPlay (h : g.Scheduled) : g.StatusInPlay := by
  have hfits (o : ObjectId) : (g.facets o).Fit (g.onBattlefield o) := h.fits.2.2 o
  constructor
  · intro o
    rw [has, (hfits o).entered]
  · intro o
    rw [has, (hfits o).controlled]
  · intro o kind hkind hhas
    exact (hfits o).status kind hkind hhas
  · intro o hhas
    obtain ⟨f, hfind, hkind⟩ := (hfits o).sorted.exists_facet hhas
    cases f <;> cases hkind
    next c =>
      have hcounters : (g.facets o).counters? = some c := by rw [Facets.counters?, hfind]
      have hgenuine := (hfits o).counted hcounters
      exact ⟨c, hcounters, hgenuine.nonempty, fun kind n hn => hgenuine.positive hn⟩
  · intro o hhas
    obtain ⟨f, hfind, hkind⟩ := (hfits o).sorted.exists_facet hhas
    cases f <;> cases hkind
    next n =>
      have hdamage : (g.facets o).damage? = some n := by rw [Facets.damage?, hfind]
      exact ⟨n, hdamage, (hfits o).damaged hdamage⟩
  · intro o hhas
    exact (hfits o).token hhas

/-- A creature that was attacking, tapped, damaged and under counters is none of this in the
graveyard, while another that is attached to it stays as it is. -/
theorem statusInPlay_of_destroyed : ∃ g₀ g₁ g, start {} = .ok g₀ ∧
    g₁ = (Move.execute {} (.composite [.permanent (.tap (.target 0)),
        .permanent (.addCounters (.target 0) .charge (.fixed 2)),
        .damage (.deal (.target 0) (.fixed 1))]) { targets := [⟨2⟩] }).apply
      ((Move.spawn (.creature ⟨7⟩ "Bear" 2 2) ⟨1⟩ .battlefield).apply
        ((Move.spawn (.creature ⟨7⟩ "Bear" 2 2) ⟨0⟩ .battlefield).apply g₀)) ∧
    g = (Move.execute {} .destroyTarget { targets := [⟨2⟩] }).apply { g₁ with
      objects := (g₁.objects.modify ⟨2⟩ (·.insert (.attacking ⟨1⟩))).modify ⟨3⟩
        (·.insert (.attached ⟨2⟩)) } ∧
    (g₁.facets ⟨2⟩).kinds = [.card, .owner, .controller, .tapped, .entered, .counters, .damage] ∧
    (g.facets ⟨2⟩).kinds = [.card, .owner] ∧
    (g.facets ⟨3⟩).kinds = [.card, .owner, .controller, .entered, .attached] ∧ g.StatusInPlay := by
  have hspawned {g : Game} (s : Seat) (hs : s.index < g.seats) (h : g.Scheduled) :
      ((Move.spawn (.creature ⟨7⟩ "Bear" 2 2) s .battlefield).apply g).Scheduled := .move _ h hs
  have hmarked {g : Game} (h : g.Scheduled)
      (hthere : ∀ o : ObjectId, o ∈ [⟨2⟩, ⟨3⟩] → g.onBattlefield o = true) :
      ({ g with
        objects := (g.objects.modify ⟨2⟩ (·.insert (.attacking ⟨1⟩))).modify ⟨3⟩
          (·.insert (.attached ⟨2⟩)) } : Game).Scheduled := by
    have hplace {g : Game} {o : ObjectId} (h : g.Scheduled) (hon : g.onBattlefield o = true) :
        g.contains o = true := by
      obtain ⟨s, hzone⟩ := onBattlefield_iff.mp hon
      exact h.fits.1.housed.contains_of_zone? hzone
    have hattacker := hthere ⟨2⟩ (by simp)
    have hattacking := h.mark (f := .attacking ⟨1⟩) (by decide) hattacker
      (if_pos (hplace h hattacker))
    have hguard : Game.onBattlefield _ ⟨3⟩ = true := hthere ⟨3⟩ (by simp)
    exact hattacking.mark (by decide) hguard (if_pos (hplace hattacking hguard))
  have hbears := hspawned ⟨1⟩ Nat.one_lt_two
    (hspawned ⟨0⟩ Nat.zero_lt_two (Scheduled.start (s := {}) rfl))
  have hhurt := Scheduled.move (.execute {} (.composite [.permanent (.tap (.target 0)),
    .permanent (.addCounters (.target 0) .charge (.fixed 2)),
    .damage (.deal (.target 0) (.fixed 1))]) { targets := [⟨2⟩] }) hbears trivial
  refine ⟨_, _, _, rfl, rfl, rfl, by decide +kernel, by decide +kernel, by decide +kernel, ?_⟩
  exact Scheduled.statusInPlay (.move (.execute {} .destroyTarget { targets := [⟨2⟩] })
    (hmarked hhurt (by decide +kernel)) trivial)

end Game

end CardGame
