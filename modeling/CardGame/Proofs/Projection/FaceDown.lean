import CardGame.Proofs.Game.Sound
import CardGame.Proofs.Projection.Alike
import CardGame.Proofs.Projection.Control

/-!
What a projection shows of face-down cards. Name, types, colors, keywords, power and toughness of
the card stay hidden, but its static abilities work as if it was face up: the projection depends on
the hidden card through these abilities, and through nothing else
(`Game.SameFaceUp.project_eq_of_sameAbilities`).
-/

namespace CardGame

theorem Facets.card?_insert_card (fs : Facets) (c : Card) :
    (fs.insert (.card c)).card? = some c := by
  simp [card?, insert, Facet.kind]

/-- Whether a static ability of an object works where the object is. -/
def Game.works (g : Game) (o : ObjectId) (a : StaticAbility) : Bool :=
  a.isDefining || g.onBattlefield o

/-- The same games but for the cards of some face-down objects. -/
structure Game.SameFaceUp (g h : Game) : Prop where
  frame : h = { g with objects := h.objects }
  objects : h.objects.keys = g.objects.keys
  facets : ∀ o, h.facets o = g.facets o ∨ (g.has o .faceDown = true ∧
    ∃ c c', (g.facets o).card? = some c ∧ h.facets o = (g.facets o).insert (.card c'))

/-- The cards of face-down objects have the same working static abilities. -/
def Game.SameAbilities (g h : Game) : Prop :=
  ∀ o c c', g.has o .faceDown = true → (g.facets o).card? = some c →
    (h.facets o).card? = some c' → c'.abilities.filter (g.works o) = c.abilities.filter (g.works o)

namespace LayerItem

variable {g h : Game}

theorem ofObject_eq (g : Game) (o : ObjectId) (fs : Facets) :
    ofObject g o fs = (((fs.card?.map (·.abilities)).getD []).filter (g.works o)).map fun a =>
      ⟨a.stage, a.isDefining, (fs.entered?.map (·.2)).getD 0, .ability o a⟩ := by
  unfold ofObject
  cases fs.card? <;> rfl

/-- The static abilities of all objects, object by object. -/
theorem flatMap_entries (g : Game) :
    (g.objects.entries.flatMap fun p => ofObject g p.1 p.2) =
      g.objects.keys.flatMap fun o => ofObject g o (g.facets o) := by
  rw [SortedMap.keys, List.flatMap_map]
  refine List.flatMap_congr fun p hp => ?_
  have hfacets : g.facets p.1 = p.2 := by
    rw [Game.facets, SortedMap.mem_entries_iff.mp hp, Option.getD_some]
  rw [hfacets]

end LayerItem

namespace Game.SameFaceUp

variable {g h : Game}

theorem facet (hsame : g.SameFaceUp h) (o : ObjectId) (kind : FacetKind) (hkind : kind ≠ .card) :
    (h.facets o).byKind.find? kind = (g.facets o).byKind.find? kind := by
  rcases hsame.facets o with hfacets | ⟨-, c, c', -, hfacets⟩
  · rw [hfacets]
  · have hother : (Facet.card c').kind ≠ kind := hkind.symm
    rw [hfacets, Facets.insert, SortedMap.find?_insert, if_neg hother]

theorem base? (hsame : g.SameFaceUp h) (o : ObjectId) :
    Characteristics.base? h o = Characteristics.base? g o := by
  have hseats : h.seats = g.seats := by rw [hsame.frame]
  rcases hsame.facets o with hfacets | ⟨hdown, c, c', hcard, hfacets⟩
  · exact Characteristics.base?_congr hseats hfacets
  -- the card is not looked at, only that there is one
  have hfaceDown : h.has o .faceDown = true := by
    unfold Game.has Facets.has SortedMap.contains at hdown ⊢
    rwa [hsame.facet o .faceDown (by decide)]
  have howner : h.owner? o = g.owner? o := by
    unfold Game.owner? Game.seat? Facets.owner?
    rw [hseats, hsame.facet o .owner (by decide)]
  have hcontroller : h.baseController? o = g.baseController? o := by
    unfold Game.baseController? Facets.controller?
    rw [howner, hsame.facet o .controller (by decide)]
  have hcard' : (h.facets o).card? = some c' := by rw [hfacets, Facets.card?_insert_card]
  simp [Characteristics.base?, hcard, hcard', hdown, hfaceDown, howner, hcontroller]

/-- Games that differ in hidden cards only look alike. -/
theorem alike (hsame : g.SameFaceUp h) : h.Alike g where
  seats := by rw [hsame.frame]
  zones := by rw [hsame.frame]
  turn := by rw [hsame.frame]
  facet := hsame.facet
  base? := hsame.base?

/-- The same changes are on offer if the static abilities are the same. -/
theorem all_eq (hsame : g.SameFaceUp h) (rules : Rules)
    (habilities : rules.staticAbilities = false ∨ g.SameAbilities h) :
    LayerItem.all rules h = LayerItem.all rules g := by
  have hfloating : h.floating = g.floating := by rw [hsame.frame]
  unfold LayerItem.all
  rw [hfloating]
  congr 1
  rcases habilities with hoff | habilities
  · rw [hoff]
    rfl
  have hobject (o : ObjectId) :
      LayerItem.ofObject h o (h.facets o) = LayerItem.ofObject g o (g.facets o) := by
    have hworks : h.works o = g.works o := by
      unfold Game.works
      rw [hsame.alike.onBattlefield]
    rw [LayerItem.ofObject_eq, LayerItem.ofObject_eq, hsame.alike.entered?, hworks]
    rcases hsame.facets o with hfacets | ⟨hdown, c, c', hcard, hfacets⟩
    · rw [hfacets]
    · have hcard' : (h.facets o).card? = some c' := by rw [hfacets, Facets.card?_insert_card]
      rw [hcard, hcard']
      exact congrArg _ (habilities o c c' hdown hcard hcard')
  rw [LayerItem.flatMap_entries, LayerItem.flatMap_entries, hsame.objects]
  simp only [hobject]

/-- Whatever the hidden cards are, the projection is the same as long as the static abilities are or
static abilities are left out. -/
theorem project_eq_of_sameAbilities (hsame : g.SameFaceUp h) (rules : Rules)
    (habilities : rules.staticAbilities = false ∨ g.SameAbilities h) :
    rules.project h = rules.project g := by
  have hbase : Projection.base h = Projection.base g := by
    apply SortedMap.ext_find?
    intro o
    rw [Projection.find?_base, Projection.find?_base, hsame.base?]
  unfold Rules.project
  rw [hsame.alike.applyStage, hsame.all_eq rules habilities, hbase]

end Game.SameFaceUp

/-- The game with an object turned face down and the given card under it. -/
def Game.hide (g : Game) (o : ObjectId) (c : Card) : Game :=
  { g with objects := g.objects.modify o fun fs => (fs.insert .faceDown).insert (.card c) }

section

variable {g : Game} {o : ObjectId}

theorem Game.facets_hide_self (hthere : g.contains o = true) (c : Card) :
    (g.hide o c).facets o = ((g.facets o).insert .faceDown).insert (.card c) :=
  facets_modify_self hthere

theorem Game.facets_hide_of_ne {o' : ObjectId} (hne : o ≠ o') (c : Card) :
    (g.hide o c).facets o' = g.facets o' := facets_modify_of_ne hne

theorem Game.sameFaceUp_hide (hthere : g.contains o = true) (c c' : Card) :
    (g.hide o c).SameFaceUp (g.hide o c') where
  frame := rfl
  objects := by rw [hide, hide, SortedMap.keys_modify, SortedMap.keys_modify]
  facets o' := by
    by_cases ho : o = o'
    · subst ho
      rw [Game.has, facets_hide_self hthere, facets_hide_self hthere]
      refine .inr ⟨?_, c, c', Facets.card?_insert_card _ c, ?_⟩
      · simp [Facets.has, Facets.insert, Facet.kind]
      · rw [Facets.insert_insert (show (Facet.card c).kind = (Facet.card c').kind from rfl)]
    · rw [facets_hide_of_ne ho, facets_hide_of_ne ho]
      exact .inl rfl

theorem Game.sameAbilities_hide (hthere : g.contains o = true) {c c' : Card}
    (habilities : c'.abilities = c.abilities) : (g.hide o c).SameAbilities (g.hide o c') := by
  intro o' d d' hdown hd hd'
  by_cases ho : o = o'
  · subst ho
    rw [facets_hide_self hthere, Facets.card?_insert_card] at hd hd'
    cases hd
    cases hd'
    rw [habilities]
  · rw [facets_hide_of_ne ho] at hd hd'
    rw [hd] at hd'
    cases hd'
    rfl

end

/-- Under its back a dragon is no more than a bear. -/
theorem Game.SameFaceUp.project_eq_under_back : ∃ g₀ g, start {} = .ok g₀ ∧
    spawnCard (.creature ⟨7⟩ "Bear" 2 2) ⟨0⟩ .battlefield g₀ = .ok ⟨2⟩ g ∧
    Rules.project {} (g.hide ⟨2⟩ (CardDefinition.creature ⟨8⟩ "Dragon" 6 6).toCard) =
      Rules.project {} (g.hide ⟨2⟩ (CardDefinition.creature ⟨7⟩ "Bear" 2 2).toCard) := by
  refine ⟨_, _, rfl, rfl, ?_⟩
  exact Game.SameFaceUp.project_eq_of_sameAbilities (sameFaceUp_hide (by decide +kernel) _ _) {}
    (.inr (sameAbilities_hide (by decide +kernel) rfl))

/-- A card that defines its own power and toughness shows through its back. -/
theorem Game.SameFaceUp.not_project_eq_of_defining : ¬ ∀ (g h : Game) (rules : Rules),
    g.SameFaceUp h → rules.project h = rules.project g := by
  intro h
  let bear : CardDefinition := .creature ⟨7⟩ "Bear" 2 2
  let wall := bear.withAbility (.definePowerToughness (.fixed 5) (.fixed 5))
  have hdiffer : ∃ g₀ g, start {} = .ok g₀ ∧ spawnCard bear ⟨0⟩ .battlefield g₀ = .ok ⟨2⟩ g ∧
      g.contains ⟨2⟩ = true ∧
      Rules.project {} (g.hide ⟨2⟩ wall.toCard) ≠ Rules.project {} (g.hide ⟨2⟩ bear.toCard) :=
    ⟨_, _, rfl, rfl, by decide +kernel, by decide +kernel⟩
  obtain ⟨g₀, g, -, -, hthere, hdiffer⟩ := hdiffer
  exact hdiffer (h _ _ {} (sameFaceUp_hide hthere _ _))

end CardGame
