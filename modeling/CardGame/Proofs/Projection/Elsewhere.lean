import CardGame.Proofs.Play.Reachable
import CardGame.Proofs.Projection.ClosedForm
import CardGame.Proofs.Projection.Stages

/-!
What a projection shows of objects that are not on the battlefield. Floating effects affect
permanents only, static abilities look for permanents, and only permanents get the bonus of their
counters. Elsewhere an object has the characteristics of its card, unless the card defines its own
power and toughness: that works in every zone.
-/

namespace CardGame

/-- The same characteristics, but perhaps of another size. -/
def Characteristics.SameButSize (c d : Characteristics) : Prop :=
  d = { c with power := d.power, toughness := d.toughness }

/-- Characteristics without a size. -/
def Characteristics.unsized (c : Characteristics) : Characteristics :=
  { c with power := none, toughness := none }

theorem Characteristics.sameButSize_of_unsized {c d : Characteristics}
    (h : d.unsized = c.unsized) : c.SameButSize d := by
  cases c
  cases d
  simp only [unsized, mk.injEq] at h
  simp [SameButSize, h]

variable {rules : Rules} {g : Game} {p : Projection} {o : ObjectId}

/-- Whether the card of an object defines its own size, and static abilities work. -/
def Game.DefinesSize (rules : Rules) (g : Game) (o : ObjectId) : Prop :=
  rules.staticAbilities = true ∧ ∃ c, (g.facets o).card? = some c ∧
    ∃ a ∈ c.abilities, a.isDefining = true

namespace Game.Sound

theorem not_mem_battlefield (h : g.Sound) (haway : g.onBattlefield o = false) :
    o ∉ g.battlefield := by
  intro hmem
  rw [h.housed.onBattlefield_of_mem hmem] at haway
  cases haway

/-- Only permanents get the bonus of their counters. -/
theorem find?_applyCounters_elsewhere (h : g.Sound) (haway : g.onBattlefield o = false) :
    SortedMap.find? (p.applyCounters g) o = SortedMap.find? p o := by
  have hnone : g.counterBonus? o = none := if_neg (h.not_mem_battlefield haway)
  rw [Projection.find?_applyCounters (h.housed.nodup_allOf .battlefield), hnone]
  exact congrFun Option.map_id _

/-- No filter finds an object among the permanents that is none. -/
theorem find?_applyAll_permanents (h : g.Sound) (haway : g.onBattlefield o = false) {v : View}
    (hgame : v.game = g) (f : ObjectFilter) (ctx : FilterContext) (m : Modification) :
    SortedMap.find? (p.applyAll (v.permanents f ctx) m) o = SortedMap.find? p o := by
  have hout : o ∉ v.permanents f ctx := by
    intro hmem
    refine h.not_mem_battlefield haway ?_
    rw [← hgame]
    exact (List.mem_filter.mp hmem).1
  have hnodup : (v.permanents f ctx).Nodup := by
    refine List.Nodup.filter _ ?_
    rw [hgame]
    exact h.housed.nodup_allOf .battlefield
  rw [Projection.find?_applyAll hnodup, if_neg hout]

/-- A static ability changes nothing off the battlefield, unless it is the object's own and defines
its size. -/
theorem find?_applyAbility (h : g.Sound) (haway : g.onBattlefield o = false) (source : ObjectId)
    (a : StaticAbility) :
    SortedMap.find? (LayerItem.applyAbility g p source a) o = SortedMap.find? p o ∨
      (source = o ∧ a.isDefining = true) ∧
        ∃ n m, SortedMap.find? (LayerItem.applyAbility g p source a) o =
          (SortedMap.find? p o).map (·.apply (.setBase n m)) := by
  unfold LayerItem.applyAbility
  split
  · exact Or.inl rfl
  · cases a with
    | definePowerToughness power toughness =>
      rw [Projection.find?_apply]
      split
      · next ho => exact Or.inr ⟨⟨ho.symm, rfl⟩, _, _, rfl⟩
      · exact Or.inl rfl
    | _ => exact Or.inl (h.find?_applyAll_permanents haway rfl _ _ _)

/-- No change of the layer system reaches an object off the battlefield, unless the object's card
defines its own size. -/
theorem find?_apply (h : g.Sound) (haway : g.onBattlefield o = false) {item : LayerItem}
    (hitem : item ∈ LayerItem.all rules g) :
    SortedMap.find? (LayerItem.apply g p item) o = SortedMap.find? p o ∨
      g.DefinesSize rules o ∧ ∃ n m, SortedMap.find? (LayerItem.apply g p item) o =
        (SortedMap.find? p o).map (·.apply (.setBase n m)) := by
  have hoffered := LayerItem.offered_of_mem_all hitem
  unfold LayerItem.apply
  generalize item.source = source at hoffered
  cases hoffered with
  | floating e he =>
    refine Or.inl ?_
    dsimp only
    split
    · have haffected : o ∉ e.affected.toList := by
        rw [SortedSet.mem_toList_iff]
        intro hmem
        rw [h.orderly.present e he o hmem] at haway
        cases haway
      have hnodup : e.affected.toList.Nodup := SortedMap.keys_nodup _
      rw [Projection.find?_applyAll hnodup, if_neg haffected]
    · rfl
  | ability source c a hrules hcard ha =>
    rcases h.find?_applyAbility haway source a with hsame | ⟨⟨ho, hdefining⟩, hsize⟩
    · exact Or.inl hsame
    · exact Or.inr ⟨⟨hrules, c, ho ▸ hcard, a, ha, hdefining⟩, hsize⟩

/-- What no change of the layer system does to an object off the battlefield, the projection does
not do. -/
theorem find?_project {α : Type} {F : Option Characteristics → α} (h : g.Sound)
    (haway : g.onBattlefield o = false)
    (hstep : ∀ item ∈ LayerItem.all rules g, ∀ p : Projection,
      F (SortedMap.find? (LayerItem.apply g p item) o) = F (SortedMap.find? p o)) :
    F (SortedMap.find? (rules.project g) o) = F (Characteristics.base? g o) :=
  Rules.find?_project hstep fun p => by rw [h.find?_applyCounters_elsewhere haway]

end Game.Sound

/-- Off the battlefield the characteristics of an object are those of its card. Only a card that
defines its own size, while static abilities work, may have another size than is printed on it. -/
theorem Game.Reachable.project_elsewhere (h : g.Reachable) (rules : Rules)
    (haway : g.onBattlefield o = false) :
    Option.Rel Characteristics.SameButSize (Characteristics.base? g o)
        (SortedMap.find? (rules.project g) o) ∧
      (¬ g.DefinesSize rules o →
        SortedMap.find? (rules.project g) o = Characteristics.base? g o) := by
  constructor
  · have hunsized : (SortedMap.find? (rules.project g) o).map Characteristics.unsized =
        (Characteristics.base? g o).map Characteristics.unsized := by
      refine h.sound.find?_project (F := Option.map Characteristics.unsized) haway
        fun item hitem p => ?_
      rcases h.sound.find?_apply haway hitem with hsame | ⟨-, n, m, hsize⟩
      · rw [hsame]
      · rw [hsize, Option.map_map]
        rfl
    cases hbase : Characteristics.base? g o <;>
      cases hproject : SortedMap.find? (rules.project g) o <;> rw [hbase, hproject] at hunsized
    · exact .none
    · cases hunsized
    · cases hunsized
    · exact .some (Characteristics.sameButSize_of_unsized (Option.some.inj hunsized))
  · intro hfixed
    refine h.sound.find?_project (F := id) haway fun item hitem p => ?_
    rcases h.sound.find?_apply haway hitem with hsame | ⟨hdefines, -⟩
    · exact hsame
    · exact absurd hdefines hfixed

/-- A banner strengthens the creatures on the battlefield. A bear in hand is as it is printed, and a
giant in hand only has the size that its card defines. -/
theorem Game.project_elsewhere_of_banner : ∃ g₀ g, start {} = .ok g₀ ∧
    let bear : CardDefinition := .creature ⟨7⟩ "Bear" 2 2
    let giant := (CardDefinition.creature ⟨8⟩ "Giant" 0 0).withAbility
      (.definePowerToughness (.fixed 5) (.fixed 6))
    let banner := (CardDefinition.creature ⟨9⟩ "Banner" 1 1).withAbility
      (.modifyGroup .creature 1 1)
    g = (Move.spawn bear ⟨0⟩ .hand).apply ((Move.spawn giant ⟨0⟩ .hand).apply
      ((Move.spawn banner ⟨0⟩ .battlefield).apply g₀)) ∧
    (Rules.project {} g).power? ⟨2⟩ = some 2 ∧
    SortedMap.find? (Rules.project {} g) ⟨4⟩ = Characteristics.base? g ⟨4⟩ ∧
    (Rules.project {} g).power? ⟨3⟩ = some 5 ∧
    Option.Rel Characteristics.SameButSize (Characteristics.base? g ⟨3⟩)
      (SortedMap.find? (Rules.project {} g) ⟨3⟩) := by
  have hspawned {g : Game} (card : CardDefinition) (kind : ZoneKind) (hs : 0 < g.seats)
      (h : g.Reachable) : ((Move.spawn card ⟨0⟩ kind).apply g).Reachable := .move _ h hs
  refine ⟨_, _, rfl, rfl, by decide +kernel, ?_, by decide +kernel, ?_⟩
  · refine (Reachable.project_elsewhere (hspawned _ .hand Nat.zero_lt_two (hspawned _ .hand
      Nat.zero_lt_two (hspawned _ .battlefield Nat.zero_lt_two (.start (s := {}) rfl)))) {}
      (by decide +kernel)).2 ?_
    rintro ⟨-, c, hcard, a, ha, -⟩
    cases hcard
    cases ha
  · exact (Reachable.project_elsewhere (hspawned _ .hand Nat.zero_lt_two (hspawned _ .hand
      Nat.zero_lt_two (hspawned _ .battlefield Nat.zero_lt_two (.start (s := {}) rfl)))) {}
      (by decide +kernel)).1

end CardGame
