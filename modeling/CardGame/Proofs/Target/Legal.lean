import CardGame.Proofs.Play.Answering

/-!
Which objects are offered as targets. Shroud, hexproof and protection keep a permanent out of the
legal targets of every requirement but one: a card in a zone may be a permanent where the zone is
the battlefield, and that requirement goes by its filter alone (`Game.Furnished.offered_iff`).
-/

namespace CardGame

namespace Requirement

/-- What is required, whatever is left out of it. -/
def core : Requirement → Requirement
  | .otherThan r _ => r.core
  | r => r

/-- What is left out. -/
def excluded : Requirement → List Reference
  | .otherThan r x => x :: r.excluded
  | _ => []

theorem core_ne_otherThan (r r' : Requirement) (x : Reference) : r.core ≠ .otherThan r' x := by
  induction r with
  | otherThan r _ ih => exact ih
  | _ => simp [core]

end Requirement

/-- Protection is from colors. -/
theorem Characteristics.isProtectedFrom_iff {c : Characteristics} {colors : ColorSet} :
    c.isProtectedFrom colors = true ↔
      ∃ color, c.hasKeyword (.protectionFrom color) = true ∧ colors.contains color = true := by
  rw [isProtectedFrom, List.any_eq_true]
  constructor
  · rintro ⟨k, hk, hcolor⟩
    cases k with
    | protectionFrom color => exact ⟨color, SortedSet.mem_toList_iff.mp hk, hcolor⟩
    | _ => cases hcolor
  · rintro ⟨color, hk, hcolor⟩
    exact ⟨.protectionFrom color, SortedSet.mem_toList_iff.mpr hk, hcolor⟩

namespace View

variable {v : View} {ctx : Context} {o : ObjectId} {f : ObjectFilter}

/-- A candidate is one of what is required and not among what is left out. -/
theorem mem_candidates_iff {r : Requirement} : o ∈ v.candidates ctx r ↔
    o ∈ v.candidates ctx r.core ∧ ∀ x ∈ r.excluded, object? ctx x ≠ some o := by
  induction r with
  | otherThan r x ih =>
    simp only [candidates, Requirement.core, Requirement.excluded, List.mem_filter, ih,
      List.forall_mem_cons, decide_eq_true_eq, ne_eq, eq_comm (a := some o)]
    tauto
  | _ => simp [Requirement.core, Requirement.excluded]

theorem mem_legalTargets_iff {r : Requirement} :
    o ∈ v.legalTargets ctx r ↔ o ∈ v.candidates ctx r := by
  rw [legalTargets, SortedSet.mem_toList_iff, SortedSet.contains_ofList, decide_eq_true_eq]

/-- What keeps an object from being targeted: shroud, hexproof if someone else controls it, and
protection from a color of the source. -/
inductive Warded (v : View) (ctx : Context) (o : ObjectId) : Prop where
  | shroud {c : Characteristics} (hc : v.projected? o = some c)
      (hshroud : c.hasKeyword .shroud = true)
  | hexproof {c : Characteristics} (hc : v.projected? o = some c)
      (hhexproof : c.hasKeyword .hexproof = true) (hother : c.controller ≠ some ctx.controller)
  | protection {c source : Characteristics} {color : Color} (hc : v.projected? o = some c)
      (hsource : ctx.source.bind v.characteristics? = some source)
      (hprotection : c.hasKeyword (.protectionFrom color) = true)
      (hcolor : source.colors.contains color = true)

/-- What is warded, and nothing else, may not be targeted. -/
theorem isTargetable_eq_false_iff : v.isTargetable ctx o = false ↔ v.Warded ctx o := by
  unfold isTargetable
  constructor
  · intro h
    cases hc : v.projected? o with
    | none => simp [hc] at h
    | some c =>
      simp only [hc, Bool.and_eq_false_iff, Bool.not_eq_false', Bool.and_eq_true,
        decide_eq_true_eq] at h
      rcases h with (hshroud | ⟨hhexproof, hother⟩) | hprotected
      · exact .shroud hc hshroud
      · exact .hexproof hc hhexproof hother
      · cases hsource : ctx.source.bind v.characteristics? with
        | none => simp [hsource] at hprotected
        | some source =>
          simp only [hsource, Bool.not_eq_false'] at hprotected
          obtain ⟨color, hprotection, hcolor⟩ :=
            Characteristics.isProtectedFrom_iff.mp hprotected
          exact .protection hc hsource hprotection hcolor
  · intro h
    cases h with
    | shroud hc hshroud => simp [hc, hshroud]
    | hexproof hc hhexproof hother => simp [hc, hhexproof, hother]
    | protection hc hsource hprotection hcolor =>
      have hprotected := Characteristics.isProtectedFrom_iff.mpr ⟨_, hprotection, hcolor⟩
      simp [hc, hsource, hprotected]

theorem Warded.not_mem_targetablePermanents (h : v.Warded ctx o) :
    o ∉ v.targetablePermanents ctx f := by
  intro hmem
  have htargetable := (List.mem_filter.mp hmem).2
  rw [isTargetable_eq_false_iff.mpr h] at htargetable
  cases htargetable

/-- Cards and tokens are not players. -/
theorem not_mem_playersFor {z : Zone} {you : Seat} {who : PlayerFilter} (h : v.game.Housed)
    (hzone : v.game.zone? o = some z) : o ∉ v.playersFor you who := by
  intro hmem
  obtain ⟨s, hs, heq⟩ := List.mem_map.mp hmem
  have hseated := (Seat.mem_all_iff h.seated).mp (List.mem_filter.mp hs).1
  exact h.ne_ofSeat (h.seat?_of_zone? hzone) hseated heq.symm

/-- The cards in the zones of a kind are what a filter accepts there, without any ward. -/
theorem mem_candidates_cardInZone_iff {kind : ZoneKind} (h : v.game.Furnished) :
    o ∈ v.candidates ctx (.cardInZone kind f) ↔
      (∃ s, v.game.zone? o = some ⟨s, kind⟩) ∧ v.accepts f ctx.forFilter o = true := by
  simp only [candidates, select, List.mem_flatMap, List.mem_filter]
  constructor
  · rintro ⟨s, -, hlisted, haccepts⟩
    exact ⟨⟨s, h.sound.housed.consistent.located hlisted⟩, haccepts⟩
  · rintro ⟨⟨s, hzone⟩, haccepts⟩
    have hlisted := h.sound.housed.consistent.mem_objects_iff.mpr hzone
    have hseat := (Seat.mem_all_iff h.sound.housed.seated).mpr (h.owner_seated hzone)
    exact ⟨s, hseat, hlisted, haccepts⟩

end View

namespace Game

variable {g : Game} {o : ObjectId}

/-- A warded permanent is offered only where a card on the battlefield is asked for. There the
filter decides alone, and what the requirement leaves out. -/
theorem Furnished.offered_iff (h : g.Furnished) (rules : Rules) (ctx : Context)
    (hpermanent : g.onBattlefield o = true) (hwarded : (rules.view g).Warded ctx o)
    (r : Requirement) : o ∈ rules.legalTargets g ctx r ↔
      ∃ f, r.core = .cardInZone .battlefield f ∧
        (rules.view g).accepts f ctx.forFilter o = true ∧
        ∀ x ∈ r.excluded, View.object? ctx x ≠ some o := by
  obtain ⟨s, hzone⟩ := onBattlefield_iff.mp hpermanent
  have hplayer {who : PlayerFilter} : o ∉ (rules.view g).playersFor ctx.controller who :=
    View.not_mem_playersFor h.sound.housed hzone
  have hpermanents {f : ObjectFilter} : o ∉ (rules.view g).targetablePermanents ctx f :=
    hwarded.not_mem_targetablePermanents
  rw [Rules.legalTargets, View.mem_legalTargets_iff, View.mem_candidates_iff]
  cases hcore : r.core with
  | creature f => simp [View.candidates, hpermanents]
  | permanent f => simp [View.candidates, hpermanents]
  | player who => simp [View.candidates, hplayer]
  | anyTarget => simp [View.candidates, hpermanents, hplayer]
  | spell f => simp [View.candidates, View.isTargetable_eq_false_iff.mpr hwarded]
  | cardInZone kind f =>
    rw [View.mem_candidates_cardInZone_iff (v := rules.view g) h]
    constructor
    · rintro ⟨⟨⟨s', hkind⟩, haccepts⟩, hleft⟩
      cases hzone.symm.trans hkind
      exact ⟨f, rfl, haccepts, hleft⟩
    · rintro ⟨f', heq, haccepts, hleft⟩
      cases heq
      exact ⟨⟨⟨s, hzone⟩, haccepts⟩, hleft⟩
  | otherThan r' x => exact absurd hcore (r.core_ne_otherThan r' x)

/-- A permanent with shroud is no legal permanent to target, but it is a legal card on the
battlefield, also where the source is left out. -/
theorem offered_iff_of_shroud : ∃ g₀, start {} = .ok g₀ ∧
    let shrouded := (CardDefinition.creature ⟨7⟩ "Bear" 2 2).withKeyword .shroud
    let g := (Move.spawn shrouded ⟨0⟩ .battlefield).apply g₀
    g.Furnished ∧ g.onBattlefield ⟨2⟩ = true ∧ (Rules.view {} g).Warded {} ⟨2⟩ ∧
    ⟨2⟩ ∉ Rules.legalTargets {} g {} (.permanent {}) ∧
    ⟨2⟩ ∈ Rules.legalTargets {} g {}
      (Requirement.cardInZone .battlefield {}).otherThanSource := by
  have hreachable := Reachable.move
    (.spawn ((CardDefinition.creature ⟨7⟩ "Bear" 2 2).withKeyword .shroud) ⟨0⟩ .battlefield)
    (.start (s := {}) rfl) Nat.zero_lt_two
  have hoffered := hreachable.furnished.offered_iff {} {} (o := ⟨2⟩) (by decide +kernel)
    (View.isTargetable_eq_false_iff.mp (by decide +kernel))
  refine ⟨_, rfl, hreachable.furnished, by decide +kernel,
    View.isTargetable_eq_false_iff.mp (by decide +kernel), ?_, ?_⟩
  · intro hlegal
    obtain ⟨f, hcore, -⟩ := (hoffered (.permanent {})).mp hlegal
    cases hcore
  · exact (hoffered _).mpr ⟨{}, rfl, by decide +kernel, by decide +kernel⟩

/-- Not every permanent with shroud, hexproof or protection is kept out of the legal targets. -/
theorem not_warded_never_offered : ¬ ∀ (g : Game) (rules : Rules) (ctx : Context)
    (r : Requirement) (o : ObjectId), g.Reachable → g.onBattlefield o = true →
    (rules.view g).Warded ctx o → o ∉ rules.legalTargets g ctx r := by
  intro h
  have hreachable := Reachable.move
    (.spawn ((CardDefinition.creature ⟨7⟩ "Bear" 2 2).withKeyword .shroud) ⟨0⟩ .battlefield)
    (.start (s := {}) rfl) Nat.zero_lt_two
  have hnever := h _ {} {} (.cardInZone .battlefield {}) ⟨2⟩ hreachable (by decide +kernel)
    (View.isTargetable_eq_false_iff.mp (by decide +kernel))
  revert hnever
  decide +kernel

end Game

end CardGame
