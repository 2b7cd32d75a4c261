import CardGame.Proofs.Game.Alter

/-!
What becomes of a permanent that leaves the battlefield. A token is gone. A card keeps what is
recorded of it apart from its permanent facets, which do not include that it is face down. No
floating effect affects the object any longer, and everything else is as it was.
-/

namespace CardGame

namespace FloatingEffect

variable {e : FloatingEffect} {o : ObjectId}

/-- An effect without one of the objects that it affects. -/
def forgetting (o : ObjectId) (e : FloatingEffect) : FloatingEffect :=
  { e with affected := e.affected.erase o }

theorem forgetting_of_unaffected (h : e.affected.contains o = false) : e.forgetting o = e := by
  rw [forgetting, SortedSet.erase_of_not_contains h]

theorem affected_forgetting (e : FloatingEffect) (o : ObjectId) :
    (e.forgetting o).affected.contains o = false := by
  simp [forgetting]

/-- A set from which nothing but a member can be erased has no other member. -/
private theorem eq_singleton_iff {s : SortedSet ObjectId} :
    s = .singleton o ↔ s.contains o = true ∧ (s.erase o).isEmpty = true := by
  constructor
  · rintro rfl
    refine ⟨by simp, SortedSet.isEmpty_iff.mpr fun o' => ?_⟩
    by_cases ho : o = o' <;> simp [ho]
  · rintro ⟨hmem, hempty⟩
    refine SortedSet.ext_contains fun o' => ?_
    rw [SortedSet.contains_singleton]
    by_cases ho : o = o'
    · simp [← ho, hmem]
    · simpa [ho] using SortedSet.isEmpty_iff.mp hempty o'

/-- An effect that an object leaves ends if it affected nothing else. -/
theorem releaseFrom_eq_ite (e : FloatingEffect) (o : ObjectId) :
    Game.releaseFrom o e = if e.affected = .singleton o then none else some (e.forgetting o) := by
  unfold Game.releaseFrom
  cases hmem : e.affected.contains o with
  | false =>
    have hne : e.affected ≠ .singleton o := by
      rintro heq
      rw [heq] at hmem
      simp at hmem
    rw [if_neg hne, forgetting_of_unaffected hmem]
    rfl
  | true =>
    rw [if_pos rfl]
    by_cases hempty : (e.affected.erase o).isEmpty = true
    · rw [if_pos hempty, if_pos (eq_singleton_iff.mpr ⟨hmem, hempty⟩)]
    · rw [if_neg hempty, if_neg fun heq => hempty (eq_singleton_iff.mp heq).2]
      rfl

theorem filterMap_releaseFrom (es : List FloatingEffect) (o : ObjectId) :
    es.filterMap (Game.releaseFrom o) =
      (es.filter (·.affected ≠ .singleton o)).map (·.forgetting o) := by
  induction es with
  | nil => rfl
  | cons e rest ih =>
    rw [List.filterMap_cons, releaseFrom_eq_ite, ih]
    by_cases honly : e.affected = .singleton o
    · simp [honly]
    · simp [honly]

/-- Effects on other objects only stay as they are, in their order. -/
theorem sublist_filterMap_releaseFrom (es : List FloatingEffect) (o : ObjectId) :
    (es.filter (fun e => !e.affected.contains o)).Sublist (es.filterMap (Game.releaseFrom o)) := by
  induction es with
  | nil => exact List.Sublist.refl _
  | cons e rest ih =>
    rw [List.filterMap_cons, releaseFrom_eq_ite]
    cases hmem : e.affected.contains o with
    | false =>
      have hne : e.affected ≠ .singleton o := by
        rintro heq
        rw [heq] at hmem
        simp at hmem
      rw [List.filter_cons_of_pos (by simp [hmem]), if_neg hne, forgetting_of_unaffected hmem]
      exact ih.cons_cons e
    | true =>
      rw [List.filter_cons_of_neg (by simp [hmem])]
      split
      · exact ih
      · next heq => exact ih.cons _

end FloatingEffect

namespace Game

variable {g g' : Game} {o : ObjectId} {target origin : Zone}

/-- What becomes of a game when a permanent leaves the battlefield for a zone. -/
structure Departed (g : Game) (o : ObjectId) (target : Zone) (g' : Game) : Prop where
  frame : g' = { g with zones := g'.zones, objects := g'.objects, floating := g'.floating }
  consistent : g'.zones.check = .ok ()
  token : g.has o .token = true →
    g'.contains o = false ∧ g'.zone? o = none ∧ ∀ z, o ∉ g'.zones.objects z
  card : g.has o .token = false → g'.contains o = g.contains o ∧ g'.zone? o = some target ∧
    ∀ kind, (g'.facets o).byKind.find? kind =
      if kind ∈ permanentFacets then none else (g.facets o).byKind.find? kind
  others : ∀ o', o' ≠ o →
    g'.contains o' = g.contains o' ∧ g'.facets o' = g.facets o' ∧ g'.zone? o' = g.zone? o'
  floating : g'.floating = (g.floating.filter (·.affected ≠ .singleton o)).map (·.forgetting o)
  unaffected : ∀ e ∈ g'.floating, e.affected.contains o = false
  undisturbed : (g.floating.filter (fun e => !e.affected.contains o)).Sublist g'.floating

/-- What is left of a card that was no player: the card, its owner, and that it is face down. -/
theorem Departed.has_iff (h : g.Departed o target g') (htoken : g.has o .token = false)
    (hplayer : g.has o .player = false) (kind : FacetKind) :
    g'.has o kind = true ↔
      (kind = .card ∨ kind = .owner ∨ kind = .faceDown) ∧ g.has o kind = true := by
  have hfind := (h.card htoken).2.2 kind
  unfold has Facets.has SortedMap.contains at htoken hplayer ⊢
  rw [hfind]
  cases kind <;> simp [permanentFacets, htoken, hplayer]

theorem departed_leaveBattlefield (hconsistent : g.zones.Consistent)
    (hzone : g.zone? o = some target) : g.Departed o target (g.leaveBattlefield o) := by
  have hfloating : (g.leaveBattlefield o).floating = g.floating.filterMap (releaseFrom o) := by
    rw [leaveBattlefield_frame]
  have hkept : (g.leaveBattlefield o).zones.Consistent := by
    rcases zones_leaveBattlefield (g := g) (o := o) with hsame | hremoved
    · exact hsame ▸ hconsistent
    · exact hremoved ▸ hconsistent.remove_eq o
  refine
    { frame := leaveBattlefield_frame.trans (by rw [hfloating])
      consistent := hkept.check_eq_ok
      token := fun htoken => ?_
      card := fun htoken => ?_
      others := fun o' hne => ?_
      floating := hfloating.trans (FloatingEffect.filterMap_releaseFrom _ _)
      unaffected := fun e he => ?_
      undisturbed := hfloating ▸ FloatingEffect.sublist_filterMap_releaseFrom _ _ }
  · have hnowhere : (g.leaveBattlefield o).zone? o = none := by
      rw [zone?_leaveBattlefield, if_pos ⟨htoken, rfl⟩]
    refine ⟨by rw [contains_leaveBattlefield, if_pos ⟨htoken, rfl⟩], hnowhere, fun z hmem => ?_⟩
    cases hnowhere.symm.trans (hkept.located hmem)
  · have hcard : ¬ (g.has o .token = true ∧ o = o) := by simp [htoken]
    refine ⟨by rw [contains_leaveBattlefield, if_neg hcard],
      by rw [zone?_leaveBattlefield, if_neg hcard, hzone], fun kind => ?_⟩
    rw [facets_leaveBattlefield_self, htoken, if_neg Bool.false_ne_true, facets_eraseFacets_self]
    exact Facets.find?_foldl_erase _ _ kind
  · have hother : ¬ (g.has o .token = true ∧ o = o') := fun h => hne h.2.symm
    exact ⟨by rw [contains_leaveBattlefield, if_neg hother],
      facets_leaveBattlefield_of_ne (Ne.symm hne),
      by rw [zone?_leaveBattlefield, if_neg hother]⟩
  · rw [hfloating, FloatingEffect.filterMap_releaseFrom] at he
    obtain ⟨e₀, -, rfl⟩ := List.mem_map.mp he
    exact e₀.affected_forgetting o

/-- A permanent that is moved off the battlefield departs. Apart from being face down, a card keeps
nothing that it had as a permanent. -/
theorem departed_of_move {p : Position} {controller : Option Seat}
    (hcheck : g.zones.check = .ok ()) (hthere : g.onBattlefield o = true)
    (htarget : target.kind ≠ .battlefield)
    (h : Game.move o target p controller g = .ok origin g') :
    g.Departed o target g' ∧
      (g.has o .token = false → g.has o .player = false → ∀ kind, g'.has o kind = true ↔
        (kind = .card ∨ kind = .owner ∨ kind = .faceDown) ∧ g.has o kind = true) := by
  have hconsistent := Zones.consistent_of_check hcheck
  obtain ⟨zones, hzones, hcases⟩ := move_eq_ok h
  have hfrom : origin.kind = .battlefield := by
    obtain ⟨s, hzone⟩ := onBattlefield_iff.mp hthere
    have horigin : g.zone? o = some origin := Zones.zone?_of_move hzones
    rw [Option.some.inj (horigin.symm.trans hzone)]
  have hdeparted : g.Departed o target g' := by
    rcases hcases with ⟨-, -, rfl⟩ | ⟨hiff, -⟩ | ⟨hnot, -⟩
    · have hmoved (o' : ObjectId) : ({ g with zones } : Game).zone? o' =
          if o = o' then some target else g.zone? o' := Zones.zone?_move hzones o'
      have hleft := departed_leaveBattlefield (g := { g with zones })
        (hconsistent.move hzones) ((hmoved o).trans (if_pos rfl))
      refine { hleft with others := fun o' hne => ?_ }
      obtain ⟨hcontains, hfacets, hzone⟩ := hleft.others o' hne
      exact ⟨hcontains, hfacets, hzone.trans ((hmoved o').trans (if_neg (Ne.symm hne)))⟩
    · exact absurd (hiff.mp hfrom) htarget
    · exact absurd hfrom hnot
  exact ⟨hdeparted, hdeparted.has_iff⟩

/-- A game with a bonus for good on each of some sets of objects. -/
def withBonusOn (g : Game) (affected : List (SortedSet ObjectId)) : Game :=
  affected.foldl (fun g os =>
    (g.addFloating (Modification.modify 1 1).placed os .permanent none ⟨0⟩).2) g

/-- A tapped creature with an effect on it alone, and one on it and another, goes to the
graveyard. -/
theorem departed_of_tapped_creature : ∃ g₀ g₁ g₂ g g' : Game, start {} = .ok g₀ ∧
    spawnCard (.creature ⟨7⟩ "Bear" 3 3) ⟨0⟩ .battlefield g₀ = .ok ⟨2⟩ g₁ ∧
    spawnCard (.creature ⟨7⟩ "Bear" 3 3) ⟨0⟩ .battlefield g₁ = .ok ⟨3⟩ g₂ ∧
    setFacet ⟨2⟩ .tapped (g₂.withBonusOn [.singleton ⟨2⟩, .ofList [⟨2⟩, ⟨3⟩]]) = .ok () g ∧
    g.zones.check = .ok () ∧ g.onBattlefield ⟨2⟩ = true ∧
    Game.move ⟨2⟩ (.graveyard ⟨0⟩) .top none g = .ok (.battlefield ⟨0⟩) g' ∧
    g.Departed ⟨2⟩ (.graveyard ⟨0⟩) g' ∧ g'.has ⟨2⟩ .tapped = false ∧
    g'.floating.map (·.affected) = [.singleton ⟨3⟩] := by
  have hleaves : ∃ g₀ g₁ g₂ g g' : Game, start {} = .ok g₀ ∧
      spawnCard (.creature ⟨7⟩ "Bear" 3 3) ⟨0⟩ .battlefield g₀ = .ok ⟨2⟩ g₁ ∧
      spawnCard (.creature ⟨7⟩ "Bear" 3 3) ⟨0⟩ .battlefield g₁ = .ok ⟨3⟩ g₂ ∧
      setFacet ⟨2⟩ .tapped (g₂.withBonusOn [.singleton ⟨2⟩, .ofList [⟨2⟩, ⟨3⟩]]) = .ok () g ∧
      Game.move ⟨2⟩ (.graveyard ⟨0⟩) .top none g = .ok (.battlefield ⟨0⟩) g' ∧
      g.zones.check = .ok () ∧ g.onBattlefield ⟨2⟩ = true ∧ g'.has ⟨2⟩ .tapped = false ∧
      g'.floating.map (·.affected) = [.singleton ⟨3⟩] := by
    refine ⟨_, _, _, _, _, rfl, rfl, rfl, rfl, rfl, ?_, ?_, ?_, ?_⟩ <;> decide +kernel
  obtain ⟨g₀, g₁, g₂, g, g', hstart, hfirst, hsecond, htap, hmove, hcheck, hthere, hbare, hleft⟩ :=
    hleaves
  exact ⟨g₀, g₁, g₂, g, g', hstart, hfirst, hsecond, htap, hcheck, hthere, hmove,
    (departed_of_move hcheck hthere (by decide) hmove).1, hbare, hleft⟩

/-- A card that leaves the battlefield may keep more than its card and its owner. -/
theorem not_bare_of_departed : ¬ ∀ (g : Game) (o : ObjectId) (target : Zone) (p : Position)
    (controller : Option Seat) (origin : Zone) (g' : Game), g.zones.check = .ok () →
    g.onBattlefield o = true → g.has o .token = false → g.has o .player = false →
    target.kind ≠ .battlefield → Game.move o target p controller g = .ok origin g' →
    ∀ kind, g'.has o kind = true → kind = .card ∨ kind = .owner := by
  intro h
  have hleaves : ∃ g₀ g₁ g g' : Game, start {} = .ok g₀ ∧
      spawnCard (.creature ⟨7⟩ "Bear" 3 3) ⟨0⟩ .battlefield g₀ = .ok ⟨2⟩ g₁ ∧
      setFacet ⟨2⟩ .faceDown g₁ = .ok () g ∧ g.zones.check = .ok () ∧
      g.onBattlefield ⟨2⟩ = true ∧ g.has ⟨2⟩ .token = false ∧ g.has ⟨2⟩ .player = false ∧
      Game.move ⟨2⟩ (.graveyard ⟨0⟩) .top none g = .ok (.battlefield ⟨0⟩) g' ∧
      g'.has ⟨2⟩ .faceDown = true := by
    refine ⟨_, _, _, _, rfl, rfl, rfl, ?_, ?_, ?_, ?_, rfl, ?_⟩ <;> decide +kernel
  obtain ⟨-, -, g, g', -, -, -, hcheck, hthere, htoken, hplayer, hmove, hfaceDown⟩ := hleaves
  rcases h _ _ _ _ _ _ _ hcheck hthere htoken hplayer (by decide) hmove _ hfaceDown with
    hcard | howner
  · cases hcard
  · cases howner

end Game

end CardGame
