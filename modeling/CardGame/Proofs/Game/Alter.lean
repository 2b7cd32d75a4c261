import CardGame.Proofs.Game.Core
import CardGame.Proofs.Game.Sound

/-!
The elementary changes that resolving makes to a game. `Alter` lists them, each with what its
callers see to, and every one keeps the game sound, its suspended work, and all objects that are no
tokens.
-/

namespace CardGame

/-- An edit in two parts succeeds when both do. -/
theorem Edit.bind_eq_ok {α β σ : Type} {e : Edit σ α} {k : α → Edit σ β} {s s' : σ} {b : β}
    (h : (e >>= k) s = .ok b s') : ∃ a s₁, e s = .ok a s₁ ∧ k a s₁ = .ok b s' := by
  change EStateM.bind e k s = .ok b s' at h
  unfold EStateM.bind at h
  split at h
  · next a s₁ he => exact ⟨a, s₁, he, h⟩
  · cases h

namespace Game

variable {g g' : Game} {o : ObjectId} {target origin : Zone}

/-- Whether an object exists and is no token. -/
def isNontoken (g : Game) (o : ObjectId) : Bool := g.contains o && !g.has o .token

theorem SameStanding.isNontoken (h : SameStanding g g') (o : ObjectId) :
    g'.isNontoken o = g.isNontoken o := by
  rw [Game.isNontoken, Game.isNontoken, h.contains, h.token]

/-- A move that succeeds takes the object from zone to zone. It may then leave or enter the
battlefield. -/
theorem move_eq_ok {p : Position} {controller : Option Seat}
    (h : move o target p controller g = .ok origin g') :
    ∃ zones, Zones.move o target p g.zones = .ok origin zones ∧
      ((origin.kind = .battlefield ∧ target.kind ≠ .battlefield ∧
          g' = ({ g with zones } : Game).leaveBattlefield o) ∨
        ((origin.kind = .battlefield ↔ target.kind = .battlefield) ∧ g' = { g with zones }) ∨
        (origin.kind ≠ .battlefield ∧ target.kind = .battlefield ∧
          enterBattlefield o (controller.getD target.owner) { g with zones } = .ok () g')) := by
  unfold move at h
  obtain ⟨g₁, g₂, hget, h⟩ := Edit.bind_eq_ok h
  cases hget
  cases hzone : g.zone? o with
  | none =>
    rw [hzone] at h
    cases h
  | some origin' =>
    rw [hzone] at h
    obtain ⟨origin'', g₁, hmove, h⟩ := Edit.bind_eq_ok h
    unfold onZones at hmove
    split at hmove
    · next moved zones hzones =>
      cases hmove
      have hsame : origin'' = origin' :=
        Option.some.inj ((Zones.zone?_of_move hzones).symm.trans hzone)
      subst hsame
      split at h
      · next hfrom =>
        split at h
        · next hto =>
          cases h
          exact ⟨zones, hzones, Or.inl ⟨hfrom, hto, rfl⟩⟩
        · next hto =>
          cases h
          exact ⟨zones, hzones, Or.inr (Or.inl ⟨by simp_all, rfl⟩)⟩
      · next hfrom =>
        split at h
        · next hto =>
          obtain ⟨u, g₃, henter, h⟩ := Edit.bind_eq_ok h
          cases h
          exact ⟨zones, hzones, Or.inr (Or.inr ⟨hfrom, hto, henter⟩)⟩
        · next hto =>
          cases h
          exact ⟨zones, hzones, Or.inr (Or.inl ⟨by simp [hfrom, hto], rfl⟩)⟩
    · cases hmove

theorem Housed.relocate {p : Position} {zones : Zones} (h : g.Housed)
    (howner : origin.owner = target.owner)
    (hmove : Zones.move o target p g.zones = .ok origin zones) :
    ({ g with zones } : Game).Housed := by
  have horigin : g.zone? o = some origin := Zones.zone?_of_move hmove
  have hzone (o' : ObjectId) :
      zones.zone? o' = if o = o' then some target else g.zone? o' := Zones.zone?_move hmove o'
  refine { h with
    consistent := h.consistent.move hmove
    known := fun kind hs => (Zones.knows_move hmove _).trans (h.known kind hs)
    located := fun {o'} => ?_
    owned := fun {o' z} hz => ?_ }
  · change (∃ z, zones.zone? o' = some z) ↔ _
    rw [hzone]
    by_cases ho : o = o'
    · subst ho
      exact iff_of_true ⟨target, if_pos rfl⟩ (h.located.mp ⟨origin, horigin⟩)
    · rw [if_neg ho]
      exact h.located
  · change zones.zone? o' = some z at hz
    rw [hzone] at hz
    by_cases ho : o = o'
    · subst ho
      rw [if_pos rfl] at hz
      cases hz
      exact howner ▸ h.owned horigin
    · rw [if_neg ho] at hz
      exact h.owned hz

/-- Moving keeps permanents other than the moved object on the battlefield. -/
theorem onBattlefield_relocate {p : Position} {zones : Zones}
    (hmove : Zones.move o target p g.zones = .ok origin zones) (o' : ObjectId) :
    ({ g with zones } : Game).onBattlefield o' =
      if o = o' then decide (target.kind = .battlefield) else g.onBattlefield o' := by
  have hzone : zones.zone? o' = if o = o' then some target else g.zone? o' :=
    Zones.zone?_move hmove o'
  simp only [onBattlefield, Zones.isIn, hzone]
  split <;> rfl

/-- No object of a zone is a player. -/
theorem Housed.ne_ofSeat (h : g.Housed) (hseat : g.seat? o = none) {s : Seat}
    (hs : s.index < g.seats) : o ≠ .ofSeat s := by
  rintro rfl
  have hreserved := (ObjectId.seat?_eq_none_iff _ _).mp hseat
  have hseated := h.seated
  simp only [ObjectId.firstObject, ObjectId.ofSeat] at hreserved
  omega

/-- The game without a token that has ceased to exist. -/
private def withoutToken (g : Game) (o : ObjectId) : Game :=
  { g with zones := g.zones.remove o, objects := g.objects.erase o }

private theorem Housed.withoutToken (h : g.Housed) (hseat : g.seat? o = none) :
    (g.withoutToken o).Housed where
  consistent := h.consistent.remove_eq o
  seated := h.seated
  known kind hs := (Zones.knows_remove_eq _ _ _).trans (h.known kind hs)
  located {o'} := by
    change (∃ z, (g.zones.remove o).zone? o' = some z) ↔
      (g.objects.erase o).contains o' = true ∧ g.seat? o' = none
    rw [Zones.zone?_remove_eq, SortedMap.contains_erase]
    by_cases ho : o = o'
    · simp [ho]
    · rw [if_neg ho, decide_eq_true ho, Bool.true_and]
      exact h.located
  players {s} hs := by
    have hindex : s.index < g.seats := hs
    have hne : o ≠ .ofSeat s := h.ne_ofSeat hseat hindex
    have hcontains : g.objects.contains (.ofSeat s) = true := h.players hindex
    change (g.objects.erase o).contains (.ofSeat s) = true
    rw [SortedMap.contains_erase, hcontains]
    simpa using hne
  owned {o' z} hzone := by
    change (g.zones.remove o).zone? o' = some z at hzone
    rw [Zones.zone?_remove_eq] at hzone
    by_cases ho : o = o'
    · simp [ho] at hzone
    · rw [if_neg ho] at hzone
      have hsame : (g.withoutToken o).facets o' = g.facets o' := by
        simp [Game.withoutToken, facets, ho]
      rw [hsame]
      exact h.owned hzone
  fresh {o'} hcontains := by
    change (g.objects.erase o).contains o' = true at hcontains
    rw [SortedMap.contains_erase, Bool.and_eq_true] at hcontains
    exact h.fresh hcontains.2
  reserved := h.reserved

/-- The game after a permanent's facets are gone and floating effects have let go of it. -/
private def release (g : Game) (o : ObjectId) : Game :=
  { g.eraseFacets o permanentFacets with
    floating := (g.eraseFacets o permanentFacets).floating.filterMap (releaseFrom o) }

private theorem leaveBattlefield_eq (g : Game) (o : ObjectId) :
    g.leaveBattlefield o =
      if (g.release o).has o .token then (g.release o).withoutToken o else g.release o := by
  unfold leaveBattlefield release withoutToken
  generalize g.eraseFacets o permanentFacets = g₁
  rfl

theorem eraseFacets_frame (o : ObjectId) (kinds : List FacetKind) :
    g.eraseFacets o kinds = { g with objects := (g.eraseFacets o kinds).objects } := by
  induction kinds generalizing g with
  | nil => rfl
  | cons kind rest ih => exact ih (g := g.eraseFacet o kind)

private theorem sameStanding_release : SameStanding g (g.release o) := by
  have herased : SameStanding g (g.eraseFacets o permanentFacets) :=
    sameStanding_eraseFacets (fun _ hkind => hkind) o
  unfold release
  generalize g.eraseFacets o permanentFacets = g₁ at herased ⊢
  exact herased.trans (.of_eq rfl rfl rfl rfl)

private theorem release_frame :
    g.release o = { g with
      objects := (g.release o).objects
      floating := g.floating.filterMap (releaseFrom o) } := by
  unfold release
  rw [eraseFacets_frame]

theorem zones_leaveBattlefield :
    (g.leaveBattlefield o).zones = g.zones ∨
      (g.leaveBattlefield o).zones = g.zones.remove o := by
  rw [leaveBattlefield_eq, release_frame]
  split
  · exact Or.inr rfl
  · exact Or.inl rfl

theorem leaveBattlefield_frame :
    g.leaveBattlefield o = { g with
      zones := (g.leaveBattlefield o).zones
      objects := (g.leaveBattlefield o).objects
      floating := g.floating.filterMap (releaseFrom o) } := by
  rw [leaveBattlefield_eq, release_frame]
  split <;> rfl

theorem Housed.leaveBattlefield (h : g.Housed) (hseat : g.seat? o = none) :
    (g.leaveBattlefield o).Housed := by
  have hrelease : (g.release o).Housed := h.congr sameStanding_release (by
    rw [release_frame]
    exact h.consistent)
  rw [leaveBattlefield_eq]
  split
  · refine hrelease.withoutToken ?_
    rw [seat?, sameStanding_release.seats]
    exact hseat
  · exact hrelease

theorem isNontoken_leaveBattlefield (o' : ObjectId) :
    (g.leaveBattlefield o).isNontoken o' = g.isNontoken o' := by
  have hrelease := (sameStanding_release (g := g) (o := o)).isNontoken o'
  rw [leaveBattlefield_eq, ← hrelease]
  split
  · next htoken =>
    by_cases ho : o = o'
    · subst ho
      simp [isNontoken, contains, withoutToken, htoken]
    · simp [isNontoken, contains, has, facets, withoutToken, ho]
  · rfl

theorem facets_eraseFacet_self (kind : FacetKind) :
    (g.eraseFacet o kind).facets o = (g.facets o).erase kind := by
  cases hcontains : g.contains o with
  | true => exact facets_modify_self hcontains
  | false =>
    have hnone : g.objects.find? o = none := SortedMap.find?_eq_none hcontains
    simp only [facets, eraseFacet, SortedMap.find?_modify, if_true, hnone, Option.map_none,
      Option.getD_none]
    rfl

theorem facets_eraseFacets_self (kinds : List FacetKind) :
    (g.eraseFacets o kinds).facets o = kinds.foldl Facets.erase (g.facets o) := by
  induction kinds generalizing g with
  | nil => rfl
  | cons kind rest ih =>
    refine (ih (g := g.eraseFacet o kind)).trans ?_
    rw [facets_eraseFacet_self, List.foldl_cons]

theorem facets_eraseFacets_of_ne {o' : ObjectId} (kinds : List FacetKind) (hne : o ≠ o') :
    (g.eraseFacets o kinds).facets o' = g.facets o' := by
  induction kinds generalizing g with
  | nil => rfl
  | cons kind rest ih =>
    have hfirst : (g.eraseFacet o kind).facets o' = g.facets o' := by
      simp [facets, eraseFacet, Ne.symm hne]
    exact (ih (g := g.eraseFacet o kind)).trans hfirst

/-- Only what leaves the battlefield loses facets. -/
theorem facets_leaveBattlefield_of_ne {o' : ObjectId} (hne : o ≠ o') :
    (g.leaveBattlefield o).facets o' = g.facets o' := by
  have hrelease : (g.release o).facets o' = g.facets o' := by
    have hfloating (g₁ : Game) (floating : List FloatingEffect) :
        ({ g₁ with floating } : Game).facets o' = g₁.facets o' := rfl
    exact (hfloating (g.eraseFacets o permanentFacets) _).trans (facets_eraseFacets_of_ne _ hne)
  rw [leaveBattlefield_eq, ← hrelease]
  split
  · simp [facets, withoutToken, hne]
  · rfl

/-- What leaves the battlefield loses its permanent facets, and a token all it has. -/
theorem facets_leaveBattlefield_self :
    (g.leaveBattlefield o).facets o =
      if g.has o .token then .empty else (g.eraseFacets o permanentFacets).facets o := by
  have htoken : (g.release o).has o .token = g.has o .token := sameStanding_release.token o
  have hfloating (g₁ : Game) (floating : List FloatingEffect) :
      ({ g₁ with floating } : Game).facets o = g₁.facets o := rfl
  have hrelease : (g.release o).facets o = (g.eraseFacets o permanentFacets).facets o :=
    hfloating (g.eraseFacets o permanentFacets) _
  rw [leaveBattlefield_eq, htoken, ← hrelease]
  split
  · simp [facets, withoutToken]
  · rfl

/-- A token that leaves the battlefield exists no longer. -/
theorem contains_leaveBattlefield (o' : ObjectId) :
    (g.leaveBattlefield o).contains o' =
      if g.has o .token = true ∧ o = o' then false else g.contains o' := by
  have hrelease := sameStanding_release (g := g) (o := o)
  rw [leaveBattlefield_eq, hrelease.token]
  by_cases htoken : g.has o .token = true
  · rw [if_pos htoken]
    change ((g.release o).objects.erase o).contains o' = _
    rw [SortedMap.contains_erase]
    by_cases ho : o = o'
    · rw [if_pos ⟨htoken, ho⟩, decide_eq_false (not_not_intro ho), Bool.false_and]
    · simp only [ho, and_false, if_false, ne_eq, not_false_eq_true, decide_true, Bool.true_and]
      exact hrelease.contains o'
  · rw [if_neg htoken, if_neg fun h => htoken h.1]
    exact hrelease.contains o'

theorem zone?_leaveBattlefield (o' : ObjectId) :
    (g.leaveBattlefield o).zone? o' =
      if g.has o .token = true ∧ o = o' then none else g.zone? o' := by
  have hrelease := sameStanding_release (g := g) (o := o)
  rw [leaveBattlefield_eq, hrelease.token]
  by_cases htoken : g.has o .token = true
  · rw [if_pos htoken]
    change ((g.release o).zones.remove o).zone? o' = _
    rw [Zones.zone?_remove_eq]
    by_cases ho : o = o'
    · rw [if_pos ho, if_pos ⟨htoken, ho⟩]
    · rw [if_neg ho, if_neg fun h => ho h.2]
      exact hrelease.zone? o'
  · rw [if_neg htoken, if_neg fun h => htoken h.1]
    exact hrelease.zone? o'

/-- A move between zones of one owner keeps the game sound. -/
theorem Sound.move {p : Position} {controller : Option Seat} (h : g.Sound)
    (howner : origin.owner = target.owner)
    (hmove : Game.move o target p controller g = .ok origin g') : g'.Sound := by
  obtain ⟨zones, hzones, hcases⟩ := move_eq_ok hmove
  have hhoused := h.housed.relocate howner hzones
  have horigin : g.zone? o = some origin := Zones.zone?_of_move hzones
  have hbattlefield := onBattlefield_relocate hzones
  have hwas : g.onBattlefield o = decide (origin.kind = .battlefield) := by
    simp only [onBattlefield, Zones.isIn, Game.zone?] at horigin ⊢
    rw [horigin]
    rfl
  -- where permanents stay permanents, floating effects may stay as they are
  have horderly (hstays : origin.kind = .battlefield → target.kind = .battlefield) :
      Orderly ({ g with zones } : Game).onBattlefield g.nextFloating g.floating := by
    refine h.orderly.mono fun o' ho' => ?_
    rw [hbattlefield]
    by_cases ho : o = o'
    · subst ho
      rw [hwas] at ho'
      simpa using hstays (by simpa using ho')
    · rw [if_neg ho]
      exact ho'
  rcases hcases with ⟨-, -, rfl⟩ | ⟨hiff, rfl⟩ | ⟨hfrom, -, henter⟩
  · refine ⟨hhoused.leaveBattlefield (h.housed.seat?_of_zone? horigin), ?_⟩
    have hframe := leaveBattlefield_frame (g := { g with zones }) (o := o)
    rw [hframe]
    refine (h.orderly.release o).mono fun o' ho' => ?_
    obtain ⟨hne, hthere⟩ : o' ≠ o ∧ g.onBattlefield o' = true := by simpa using ho'
    have hmoved : ({ g with zones } : Game).onBattlefield o' = true := by
      rw [hbattlefield, if_neg (Ne.symm hne)]
      exact hthere
    rcases zones_leaveBattlefield (g := { g with zones }) (o := o) with hkept | hremoved
    · simpa [onBattlefield, hkept] using hmoved
    · simpa [onBattlefield, hremoved, Zones.isIn, Zones.zone?_remove_eq, Ne.symm hne] using hmoved
  · exact ⟨hhoused, horderly hiff.mp⟩
  · have hsame := sameStanding_enterBattlefield henter
    have heq := enterBattlefield_eq_ok henter
    refine Sound.congr ⟨hhoused, horderly fun h => absurd h hfrom⟩ hsame ?_ ?_ ?_ <;> rw [heq]
    exact hhoused.consistent

theorem isNontoken_move {p : Position} {controller : Option Seat}
    (hmove : Game.move o target p controller g = .ok origin g') (o' : ObjectId) :
    g'.isNontoken o' = g.isNontoken o' := by
  obtain ⟨zones, -, ⟨-, -, rfl⟩ | ⟨-, rfl⟩ | ⟨-, -, henter⟩⟩ := move_eq_ok hmove
  · exact isNontoken_leaveBattlefield o'
  · rfl
  · exact (sameStanding_enterBattlefield henter).isNontoken o'

/-- After a move the object is where it was moved, and everything else where it was. -/
theorem zone?_move_cases {p : Position} {controller : Option Seat} {o' : ObjectId} {z : Zone}
    (hmove : Game.move o target p controller g = .ok origin g') (hzone : g'.zone? o' = some z) :
    (o' = o ∧ z = target) ∨ g.zone? o' = some z := by
  obtain ⟨zones, hzones, hcases⟩ := move_eq_ok hmove
  have hmoved : ({ g with zones } : Game).zone? o' = some z := by
    rcases hcases with ⟨-, -, rfl⟩ | ⟨-, rfl⟩ | ⟨-, -, henter⟩
    · rcases zones_leaveBattlefield (g := { g with zones }) (o := o) with hkept | hremoved
      · rwa [Game.zone?, hkept] at hzone
      · rw [Game.zone?, hremoved, Zones.zone?_remove_eq] at hzone
        split at hzone
        · cases hzone
        · exact hzone
    · exact hzone
    · rwa [(sameStanding_enterBattlefield henter).zone?] at hzone
  have hrule : zones.zone? o' = if o = o' then some target else g.zone? o' :=
    Zones.zone?_move hzones o'
  rw [Game.zone?, hrule] at hmoved
  split at hmoved
  · next ho =>
    cases hmoved
    exact Or.inl ⟨ho.symm, rfl⟩
  · exact Or.inr hmoved

/-- Everything else is where it was before a move. -/
theorem zone?_move_of_ne {p : Position} {controller : Option Seat} {o' : ObjectId}
    (hmove : Game.move o target p controller g = .ok origin g') (hne : o ≠ o') :
    g'.zone? o' = g.zone? o' := by
  obtain ⟨zones, hzones, hcases⟩ := move_eq_ok hmove
  have hmoved : ({ g with zones } : Game).zone? o' = g.zone? o' := by
    rw [Game.zone?, Zones.zone?_move hzones, if_neg hne]
    rfl
  rw [← hmoved]
  rcases hcases with ⟨-, -, rfl⟩ | ⟨-, rfl⟩ | ⟨-, -, henter⟩
  · rcases zones_leaveBattlefield (g := { g with zones }) (o := o) with hkept | hremoved
    · rw [Game.zone?, hkept, Game.zone?]
    · rw [Game.zone?, hremoved, Zones.zone?_remove_eq, if_neg hne, Game.zone?]
  · rfl
  · exact (sameStanding_enterBattlefield henter).zone? o'

/-- What is moved onto the battlefield is there. -/
theorem zone?_move_self {p : Position} {controller : Option Seat}
    (hmove : Game.move o target p controller g = .ok origin g')
    (htarget : target.kind = .battlefield) : g'.zone? o = some target := by
  obtain ⟨zones, hzones, hcases⟩ := move_eq_ok hmove
  have hmoved : ({ g with zones } : Game).zone? o = some target := by
    rw [Game.zone?, Zones.zone?_move hzones, if_pos rfl]
  rcases hcases with ⟨-, hout, -⟩ | ⟨-, rfl⟩ | ⟨-, -, henter⟩
  · exact absurd htarget hout
  · exact hmoved
  · rw [(sameStanding_enterBattlefield henter).zone?]
    exact hmoved

/-- An object can be moved to every zone there is. -/
theorem Housed.exists_move (h : g.Housed) (hzone : g.zone? o = some origin)
    (hknows : g.zones.knows target = true) (p : Position) (controller : Option Seat) :
    ∃ g', Game.move o target p controller g = .ok origin g' := by
  obtain ⟨zones, hmove⟩ := Zones.exists_move hzone hknows p
  have hmoved : onZones (Zones.move o target p) g = .ok origin { g with zones } := by
    rw [onZones, hmove]
  have hget (k : Game → Edit Game Zone) : (get >>= k) g = k g g := rfl
  have hthen (k : Zone → Edit Game Zone) :
      (onZones (Zones.move o target p) >>= k) g = k origin { g with zones } := by
    change EStateM.bind _ _ _ = _
    rw [EStateM.bind, hmoved]
  unfold Game.move
  rw [hget, hzone]
  simp only [hthen]
  split
  · split
    · exact ⟨_, rfl⟩
    · exact ⟨_, rfl⟩
  · split
    · have hcontains : ({ g with zones } : Game).contains o = true := h.contains_of_zone? hzone
      obtain ⟨g', henter⟩ := exists_enterBattlefield (controller.getD target.owner) hcontains
      refine ⟨g', ?_⟩
      change EStateM.bind _ _ _ = _
      rw [EStateM.bind, henter]
      rfl
    · exact ⟨_, rfl⟩

variable {card : Card} {owner : Seat} {kind : ZoneKind} {token : Bool} {zones : Zones}

theorem owner?_newFacets : (newFacets card owner token).owner? = some owner := by
  unfold newFacets Facets.owner?
  cases token <;> simp [Facets.insert, Facet.kind]

theorem has_token_newFacets : (newFacets card owner token).has .token = token := by
  unfold newFacets Facets.has
  cases token
  · simp [Facets.insert, Facet.kind, Facets.empty]
    rfl
  · simp [Facets.insert, Facet.kind]

theorem facets_arrival (o : ObjectId) :
    (g.arrival card owner token zones).facets o =
      if ⟨g.nextObject⟩ = o then newFacets card owner token else g.facets o := by
  unfold facets arrival
  rw [SortedMap.find?_insert]
  split <;> rfl

theorem contains_arrival (o : ObjectId) :
    (g.arrival card owner token zones).contains o =
      (decide (⟨g.nextObject⟩ = o) || g.contains o) :=
  SortedMap.contains_insert _ _ _ _

theorem Housed.arrival (h : g.Housed)
    (hadd : g.zones.add ⟨g.nextObject⟩ ⟨owner, kind⟩ .top = .ok zones) :
    (g.arrival card owner token zones).Housed where
  consistent := h.consistent.add hadd
  seated := h.seated
  known kind' hs := (Zones.knows_add hadd _).trans (h.known kind' hs)
  located {o} := by
    change (∃ z, zones.zone? o = some z) ↔ _ ∧ g.seat? o = none
    rw [Zones.zone?_add hadd, contains_arrival]
    by_cases ho : (⟨g.nextObject⟩ : ObjectId) = o
    · subst ho
      have hseat : g.seat? ⟨g.nextObject⟩ = none :=
        (ObjectId.seat?_eq_none_iff _ _).mpr h.reserved
      simp [hseat]
    · rw [if_neg ho, decide_eq_false ho, Bool.false_or]
      exact h.located
  players hs := by
    rw [contains_arrival, h.players hs, Bool.or_true]
  owned {o z} hzone := by
    change zones.zone? o = some z at hzone
    rw [Zones.zone?_add hadd] at hzone
    rw [facets_arrival]
    split
    · next ho =>
      rw [if_pos ho] at hzone
      cases hzone
      exact owner?_newFacets
    · next ho =>
      rw [if_neg ho] at hzone
      exact h.owned hzone
  fresh {o} hcontains := by
    change o.val < g.nextObject + 1
    rw [contains_arrival] at hcontains
    rcases Bool.or_eq_true_iff.mp hcontains with hnew | hold
    · rw [← of_decide_eq_true hnew]
      exact Nat.lt_succ_self _
    · exact Nat.lt_succ_of_lt (h.fresh hold)
  reserved := Nat.le_succ_of_le h.reserved

theorem Sound.arrival (h : g.Sound)
    (hadd : g.zones.add ⟨g.nextObject⟩ ⟨owner, kind⟩ .top = .ok zones) :
    (g.arrival card owner token zones).Sound := by
  refine ⟨h.housed.arrival hadd, h.orderly.mono fun o ho => ?_⟩
  obtain ⟨s, hzone⟩ := onBattlefield_iff.mp ho
  exact onBattlefield_iff.mpr ⟨s, Zones.zone?_of_add hadd hzone⟩

theorem Housed.isNontoken_arrival (h : g.Housed) (o : ObjectId) :
    (g.arrival card owner true zones).isNontoken o = g.isNontoken o := by
  unfold isNontoken has
  rw [contains_arrival, facets_arrival]
  by_cases ho : (⟨g.nextObject⟩ : ObjectId) = o
  · subst ho
    simp [h.next_not_contained, has_token_newFacets]
  · simp [ho]

/-- A new object gets the next identity and arrives in its zone. If that is the battlefield it has
entered there. -/
theorem spawn_eq_ok (h : spawn card owner kind token g = .ok o g') :
    o = ⟨g.nextObject⟩ ∧ ∃ zones, g.zones.add ⟨g.nextObject⟩ ⟨owner, kind⟩ .top = .ok zones ∧
      ((kind ≠ .battlefield ∧ g' = g.arrival card owner token zones) ∨
        (kind = .battlefield ∧
          enterBattlefield ⟨g.nextObject⟩ owner (g.arrival card owner token zones) =
            .ok () g')) := by
  rw [spawn_eq] at h
  cases hadd : g.zones.add ⟨g.nextObject⟩ ⟨owner, kind⟩ .top with
  | error failure =>
    rw [hadd] at h
    cases h
  | ok zones =>
    rw [hadd] at h
    simp only at h
    split at h
    · next hkind =>
      obtain ⟨u, g₁, henter, h⟩ := Edit.bind_eq_ok h
      cases h
      exact ⟨rfl, zones, rfl, Or.inr ⟨hkind, henter⟩⟩
    · next hkind =>
      cases h
      exact ⟨rfl, zones, rfl, Or.inl ⟨hkind, rfl⟩⟩

theorem facets_enterBattlefield_of_ne {controller : Seat} {u : Unit} {o' : ObjectId}
    (h : Game.enterBattlefield o controller g = .ok u g') (hne : o ≠ o') :
    g'.facets o' = g.facets o' := by
  rw [enterBattlefield_eq_ok h]
  simp [facets, Ne.symm hne]

/-- A new object leaves the other objects as they are. -/
theorem facets_spawn_of_ne {o' : ObjectId} (h : spawn card owner kind token g = .ok o g')
    (hne : ⟨g.nextObject⟩ ≠ o') : g'.facets o' = g.facets o' := by
  obtain ⟨-, zones, -, ⟨-, rfl⟩ | ⟨-, henter⟩⟩ := spawn_eq_ok h
  · rw [facets_arrival, if_neg hne]
  · rw [facets_enterBattlefield_of_ne henter hne, facets_arrival, if_neg hne]

theorem spawn_frame (h : spawn card owner kind token g = .ok o g') :
    g'.seats = g.seats ∧ g'.floating = g.floating := by
  obtain ⟨-, zones, -, ⟨-, rfl⟩ | ⟨-, henter⟩⟩ := spawn_eq_ok h
  · exact ⟨rfl, rfl⟩
  · rw [enterBattlefield_eq_ok henter]
    exact ⟨rfl, rfl⟩

/-- A new permanent is on the battlefield. -/
theorem onBattlefield_of_spawn (h : spawn card owner .battlefield token g = .ok o g') :
    g'.onBattlefield o = true := by
  obtain ⟨ho, zones, hadd, hcases⟩ := spawn_eq_ok h
  have harrived : (g.arrival card owner token zones).onBattlefield o = true := by
    refine onBattlefield_iff.mpr ⟨owner, ?_⟩
    change zones.zone? o = some _
    rw [Zones.zone?_add hadd, if_pos ho.symm]
  rcases hcases with ⟨hnot, -⟩ | ⟨-, henter⟩
  · exact absurd rfl hnot
  · rw [(sameStanding_enterBattlefield henter).onBattlefield]
    exact harrived

theorem Sound.enterBattlefield {controller : Seat} {u : Unit} (h : g.Sound)
    (henter : Game.enterBattlefield o controller g = .ok u g') : g'.Sound := by
  refine h.congr (sameStanding_enterBattlefield henter) ?_ ?_ ?_ <;>
    rw [enterBattlefield_eq_ok henter]
  exact h.housed.consistent

theorem Sound.spawn (h : g.Sound) (hspawn : Game.spawn card owner kind token g = .ok o g') :
    g'.Sound := by
  obtain ⟨-, zones, hadd, ⟨-, rfl⟩ | ⟨-, henter⟩⟩ := spawn_eq_ok hspawn
  · exact h.arrival hadd
  · exact (h.arrival hadd).enterBattlefield henter

/-- A card can be put into any zone of a player at the table. -/
theorem Housed.exists_spawn (h : g.Housed) (card : Card) (kind : ZoneKind) (token : Bool)
    (hseat : owner.index < g.seats) :
    ∃ o g', Game.spawn card owner kind token g = .ok o g' := by
  have hnone : g.zones.zone? ⟨g.nextObject⟩ = none := h.zone?_eq_none h.next_not_contained
  obtain ⟨zones, hadd⟩ := Zones.exists_add hnone (h.known kind hseat) .top
  rw [spawn_eq, hadd]
  by_cases hkind : kind = .battlefield
  · have hcontains : (g.arrival card owner token zones).contains ⟨g.nextObject⟩ = true := by
      simp [contains_arrival]
    obtain ⟨g', henter⟩ := exists_enterBattlefield owner hcontains
    refine ⟨⟨g.nextObject⟩, g', ?_⟩
    simp only [hkind, if_true]
    change EStateM.bind _ _ _ = _
    rw [EStateM.bind, henter]
    rfl
  · exact ⟨⟨g.nextObject⟩, _, by simp only [hkind, if_false]; rfl⟩

/-- The facets of a permanent that come and go while it stays on the battlefield. -/
def statusFacets : List FacetKind :=
  [.tapped, .attacking, .blocking, .blocked, .counters, .damage, .attached]

/-- What a resolution may record of a permanent about which so much is known: counters only if there
are any, and damage only on top of the damage marked before. -/
inductive Records (fs : Facets) : Facet → Prop
  | tapped : Records fs .tapped
  | controller (s : Seat) : Records fs (.controller s)
  | added (kind : CounterKind) {n : Nat} (hsome : n ≠ 0) :
      Records fs (.counters ((fs.counters?.getD {}).add kind n))
  | left {c : Counters} (kind : CounterKind) (n : Nat) (hbefore : fs.counters? = some c)
      (hsome : (c.take kind n).2.isEmpty = false) : Records fs (.counters (c.take kind n).2)
  | damaged {n : Int} (hsome : 0 < n) :
      Records fs (.damage (saturate (fs.damage?.getD 0 + n)))

theorem mem_permanentFacets_of_status {kind : FacetKind} (h : kind ∈ statusFacets) :
    kind ∈ permanentFacets := by
  cases kind <;> simp [statusFacets, permanentFacets] at h ⊢

theorem Records.kind_mem {fs : Facets} {f : Facet} (h : Records fs f) :
    f.kind ∈ permanentFacets := by
  cases h <;> simp [Facet.kind, permanentFacets]

/-- The elementary changes of a resolution whose floating effects last as allowed. Objects move
between zones of one owner, only what is on the battlefield is marked, and only that is affected by
new floating effects, each applied at the stage where it belongs. -/
inductive Alter (lasting : Duration → Prop) : Game → Game → Prop
  | move {g g' : Game} {o : ObjectId} {target origin : Zone} {p : Position}
      {controller : Option Seat} (howner : origin.owner = target.owner)
      (h : Game.move o target p controller g = .ok origin g') : Alter lasting g g'
  | sink {g : Game} {o : ObjectId} {s : Seat} {origin : Zone} {zones : Zones}
      (hzone : g.zone? o = some (.library s))
      (h : Zones.move o (.library s) .bottom g.zones = .ok origin zones) :
      Alter lasting g { g with zones }
  | reorder {g : Game} {z : Zone} {order : List ObjectId} {zones : Zones}
      (h : g.zones.reorder z order = .ok zones) : Alter lasting g { g with zones }
  | shuffle (g : Game) (s : Seat) : Alter lasting g (g.shuffleLibrary s)
  | random (g : Game) (random : Random) : Alter lasting g { g with random }
  | mark {g g' : Game} {o : ObjectId} {f : Facet} {u : Unit} (hrecords : Records (g.facets o) f)
      (hthere : g.onBattlefield o = true) (h : setFacet o f g = .ok u g') : Alter lasting g g'
  | unmark (g : Game) (o : ObjectId) (kinds : List FacetKind)
      (hkinds : ∀ kind ∈ kinds, kind ∈ statusFacets) : Alter lasting g (g.eraseFacets o kinds)
  | life {g g' : Game} {s : Seat} {life : Int} {u : Unit}
      (h : setLife s (saturate life) g = .ok u g') : Alter lasting g g'
  | float (g : Game) {change : Modification} {affected : SortedSet ObjectId}
      {duration : Duration} (source : Option ObjectId) (controller : Seat)
      (hlasting : lasting duration) (haffecting : affected.isEmpty = false)
      (hpresent : ∀ o, affected.contains o = true → g.onBattlefield o = true)
      (hshield : change = .regenerationShield → duration = .endOfTurn)
      (hsingle : change = .regenerationShield → ∃ o, affected = .singleton o) :
      Alter lasting g (g.addFloating change.placed affected duration source controller).2
  | unfloat (g : Game) (id : FloatingId) : Alter lasting g (g.removeFloating id)
  | create {g g' : Game} {card : Card} {s : Seat} {o : ObjectId}
      (h : spawn card s .battlefield true g = .ok o g') : Alter lasting g g'

theorem zones_shuffleLibrary (s : Seat) :
    (g.shuffleLibrary s).zones = (g.zones.shuffle (.library s) g.random).1 := rfl

/-- Rearranging a zone leaves every object where it is. -/
theorem sameStanding_rearrange {z : Zone} {order : List ObjectId}
    (hknows : g.zones.knows z = true) :
    SameStanding g { g with zones := g.zones.rearrange z order } where
  seats := rfl
  knows := Zones.knows_rearrange hknows
  zone? _ := rfl
  contains _ := rfl
  owner? _ := rfl
  token _ := rfl
  nextObject := rfl

theorem sameStanding_sink {s : Seat} (hzone : g.zone? o = some (.library s))
    (h : Zones.move o (.library s) .bottom g.zones = .ok origin zones) :
    SameStanding g { g with zones } where
  seats := rfl
  knows := Zones.knows_move h
  zone? o' := by
    rw [Game.zone?, Zones.zone?_move h]
    split
    · next ho => exact ho ▸ hzone.symm
    · rfl
  contains _ := rfl
  owner? _ := rfl
  token _ := rfl
  nextObject := rfl

theorem Housed.shuffleLibrary (h : g.Housed) (s : Seat) :
    SameStanding g (g.shuffleLibrary s) ∧ (g.shuffleLibrary s).zones.Consistent := by
  rcases Zones.shuffle_cases g.zones (.library s) g.random with
    hsame | ⟨order, r, hknows, hperm, hshuffle⟩
  · have hzones : (g.shuffleLibrary s).zones = g.zones := by rw [zones_shuffleLibrary, hsame]
    exact ⟨.of_eq rfl rfl hzones rfl, hzones ▸ h.consistent⟩
  · have hzones : (g.shuffleLibrary s).zones = g.zones.rearrange (.library s) order := by
      rw [zones_shuffleLibrary, hshuffle]
    refine ⟨(sameStanding_rearrange hknows).trans (.of_eq rfl rfl hzones rfl), ?_⟩
    rw [hzones]
    exact h.consistent.rearrange hperm

namespace Alter

variable {lasting : Duration → Prop}

theorem sound (h : Alter lasting g g') (hsound : g.Sound) : g'.Sound := by
  have hhoused := hsound.housed
  cases h with
  | move howner h => exact hsound.move howner h
  | sink hzone h =>
    exact hsound.congr (sameStanding_sink hzone h) (hhoused.consistent.move h) rfl rfl
  | reorder h =>
    obtain ⟨hknows, hperm, rfl⟩ := Zones.reorder_eq_ok h
    exact hsound.congr (sameStanding_rearrange hknows) (hhoused.consistent.rearrange hperm) rfl rfl
  | shuffle s =>
    obtain ⟨hsame, hconsistent⟩ := hhoused.shuffleLibrary s
    exact hsound.congr hsame hconsistent rfl rfl
  | random r => exact hsound.congr (.of_eq rfl rfl rfl rfl) hhoused.consistent rfl rfl
  | mark hrecords hthere h =>
    obtain ⟨howner, htoken⟩ := kind_ne_of_permanent hrecords.kind_mem
    obtain ⟨-, rfl⟩ := setFacet_eq_ok h
    exact hsound.congr (sameStanding_insert howner htoken _) hhoused.consistent rfl rfl
  | unmark o kinds hkinds =>
    have hpermanent : ∀ kind ∈ kinds, kind ∈ permanentFacets := fun kind hkind =>
      mem_permanentFacets_of_status (hkinds kind hkind)
    have hsame : SameStanding g (g.eraseFacets o kinds) := sameStanding_eraseFacets hpermanent o
    refine hsound.congr hsame ?_ ?_ ?_ <;> rw [eraseFacets_frame]
    exact hhoused.consistent
  | life h =>
    obtain ⟨poison, rfl⟩ := setLife_eq_ok h
    exact hsound.congr (sameStanding_insert (by simp [Facet.kind]) (by simp [Facet.kind]) _)
      hhoused.consistent rfl rfl
  | float source controller hlasting haffecting hpresent hshield hsingle =>
    exact ⟨hhoused.congr (.of_eq rfl rfl rfl rfl) hhoused.consistent,
      hsound.orderly.append rfl haffecting hpresent hshield hsingle⟩
  | unfloat id => exact hsound.sublist List.eraseP_sublist
  | create h => exact hsound.spawn h

/-- Cards and players neither appear nor disappear. -/
theorem isNontoken (h : Alter lasting g g') (hsound : g.Sound) (o : ObjectId) :
    g'.isNontoken o = g.isNontoken o := by
  cases h with
  | move howner h => exact isNontoken_move h o
  | sink hzone h => rfl
  | reorder h => rfl
  | shuffle s => rfl
  | random r => rfl
  | mark hrecords hthere h =>
    obtain ⟨howner, htoken⟩ := kind_ne_of_permanent hrecords.kind_mem
    obtain ⟨-, rfl⟩ := setFacet_eq_ok h
    exact (sameStanding_insert howner htoken _).isNontoken o
  | unmark o' kinds hkinds =>
    have hpermanent : ∀ kind ∈ kinds, kind ∈ permanentFacets := fun kind hkind =>
      mem_permanentFacets_of_status (hkinds kind hkind)
    exact (sameStanding_eraseFacets hpermanent o').isNontoken o
  | life h =>
    obtain ⟨poison, rfl⟩ := setLife_eq_ok h
    exact (sameStanding_insert (by simp [Facet.kind]) (by simp [Facet.kind]) _).isNontoken o
  | float => rfl
  | unfloat => rfl
  | create h =>
    obtain ⟨-, zones, hadd, ⟨-, rfl⟩ | ⟨-, henter⟩⟩ := spawn_eq_ok h
    · exact hsound.housed.isNontoken_arrival o
    · rw [(sameStanding_enterBattlefield henter).isNontoken]
      exact hsound.housed.isNontoken_arrival o

end Alter

/-- Two games with the same suspended work and the same pending decision. -/
structure SameControl (g g' : Game) : Prop where
  stack : g'.stack = g.stack
  pending : g'.pending = g.pending
  nextDecision : g'.nextDecision = g.nextDecision

/-- Every floating effect lasts as allowed. -/
def Lasting (lasting : Duration → Prop) (g : Game) : Prop := ∀ e ∈ g.floating, lasting e.duration

theorem SameControl.refl (g : Game) : SameControl g g := ⟨rfl, rfl, rfl⟩

theorem SameControl.trans {g'' : Game} (h : SameControl g g') (h' : SameControl g' g'') :
    SameControl g g'' :=
  ⟨h'.stack.trans h.stack, h'.pending.trans h.pending, h'.nextDecision.trans h.nextDecision⟩

theorem sameControl_move {p : Position} {controller : Option Seat}
    (h : Game.move o target p controller g = .ok origin g') : SameControl g g' := by
  obtain ⟨zones, -, ⟨-, -, rfl⟩ | ⟨-, rfl⟩ | ⟨-, -, henter⟩⟩ := move_eq_ok h
  · rw [leaveBattlefield_frame]
    exact ⟨rfl, rfl, rfl⟩
  · exact ⟨rfl, rfl, rfl⟩
  · rw [enterBattlefield_eq_ok henter]
    exact ⟨rfl, rfl, rfl⟩

namespace Alter

variable {lasting : Duration → Prop}

/-- Suspended work and the pending decision are left alone. -/
theorem sameControl (h : Alter lasting g g') : SameControl g g' := by
  cases h with
  | move howner h => exact sameControl_move h
  | mark hrecords hthere h =>
    obtain ⟨-, rfl⟩ := setFacet_eq_ok h
    exact ⟨rfl, rfl, rfl⟩
  | life h =>
    obtain ⟨poison, rfl⟩ := setLife_eq_ok h
    exact ⟨rfl, rfl, rfl⟩
  | create h =>
    obtain ⟨-, zones, hadd, ⟨-, rfl⟩ | ⟨-, henter⟩⟩ := spawn_eq_ok h
    · exact ⟨rfl, rfl, rfl⟩
    · rw [enterBattlefield_eq_ok henter]
      exact ⟨rfl, rfl, rfl⟩
  | unmark o kinds hkinds =>
    rw [eraseFacets_frame]
    exact ⟨rfl, rfl, rfl⟩
  | _ => exact ⟨rfl, rfl, rfl⟩

/-- Resolving takes place within a turn. -/
theorem turn (h : Alter lasting g g') : g'.turn = g.turn := by
  cases h with
  | move howner h =>
    obtain ⟨zones, -, ⟨-, -, rfl⟩ | ⟨-, rfl⟩ | ⟨-, -, henter⟩⟩ := move_eq_ok h
    · rw [leaveBattlefield_frame]
    · rfl
    · rw [enterBattlefield_eq_ok henter]
  | mark hrecords hthere h =>
    obtain ⟨-, rfl⟩ := setFacet_eq_ok h
    rfl
  | life h =>
    obtain ⟨poison, rfl⟩ := setLife_eq_ok h
    rfl
  | create h =>
    obtain ⟨-, zones, hadd, ⟨-, rfl⟩ | ⟨-, henter⟩⟩ := spawn_eq_ok h
    · rfl
    · rw [enterBattlefield_eq_ok henter]
      rfl
  | unmark o kinds hkinds => rw [eraseFacets_frame]
  | _ => rfl

theorem lasts (h : Alter lasting g g') (hlasting : g.Lasting lasting) : g'.Lasting lasting := by
  cases h with
  | move howner h =>
    obtain ⟨zones, -, ⟨-, -, rfl⟩ | ⟨-, rfl⟩ | ⟨-, -, henter⟩⟩ := move_eq_ok h
    · rw [leaveBattlefield_frame]
      intro e' he'
      obtain ⟨e, he, hrelease⟩ := List.mem_filterMap.mp he'
      rw [(of_releaseFrom hrelease).2.2.1]
      exact hlasting e he
    · exact hlasting
    · rw [enterBattlefield_eq_ok henter]
      exact hlasting
  | mark hrecords hthere h =>
    obtain ⟨-, rfl⟩ := setFacet_eq_ok h
    exact hlasting
  | life h =>
    obtain ⟨poison, rfl⟩ := setLife_eq_ok h
    exact hlasting
  | float source controller hduration haffecting hpresent hshield =>
    intro e he
    rcases List.mem_append.mp he with hold | hnew
    · exact hlasting e hold
    · rw [List.mem_singleton.mp hnew]
      exact hduration
  | unfloat id => exact fun e he => hlasting e (List.eraseP_sublist.subset he)
  | create h =>
    obtain ⟨-, zones, hadd, ⟨-, rfl⟩ | ⟨-, henter⟩⟩ := spawn_eq_ok h
    · exact hlasting
    · rw [enterBattlefield_eq_ok henter]
      exact hlasting
  | unmark o kinds hkinds =>
    rw [eraseFacets_frame]
    exact hlasting
  | _ => exact hlasting

end Alter

end Game

end CardGame
