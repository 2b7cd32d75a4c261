import CardGame.Proofs.Machine.Reading
import CardGame.Proofs.Projection.Shields

/-!
The layer system on a machine. `Checked.project` goes through the stages as the projection does, and
works out what counters add up to, the number of regeneration shields and the amounts of static
abilities within their ranges. Shields are counted one for each floating effect at most, and there
are no more floating effects than identities for them, so a projection never stops.
-/

namespace CardGame

namespace Checked

/-- The characteristics after a change. -/
def change (c : Characteristics) : Modification → Checked Characteristics
  | .regenerationShield => do
    return { c with regenerationShields := ← add maxWord c.regenerationShields 1 }
  | m => return c.apply m

/-- Changes the characteristics of one object. -/
def apply (p : Projection) (o : ObjectId) (m : Modification) : Checked Projection :=
  match SortedMap.find? p o with
  | none => return p
  | some c => do
    let changed ← change c m
    return SortedMap.modify p o fun _ => changed

/-- Changes the characteristics of some objects. -/
def applyAll (p : Projection) (objects : List ObjectId) (m : Modification) : Checked Projection :=
  objects.foldlM (fun p o => apply p o m) p

/-- What the +1/+1 and −1/−1 counters on a permanent add up to. -/
def counterBonus (c : Counters) : Checked Int :=
  minus (countAsAmount (c.count .plusOnePlusOne)) (countAsAmount (c.count .minusOneMinusOne))

/-- Applies the counters on permanents. -/
def applyCounters (g : Game) (p : Projection) : Checked Projection :=
  g.battlefield.foldlM (fun p o =>
    match (g.facets o).counters? with
    | some c => do
      let bonus ← counterBonus c
      apply p o (.modify bonus bonus)
    | none => return p) p

/-- Applies a static ability, as the projection so far shows the game. -/
def applyAbility (g : Game) (p : Projection) (source : ObjectId) (a : StaticAbility) :
    Checked Projection :=
  match (p.controller? source).or (g.owner? source) with
  | none => return p
  | some controller =>
    let v : View := { game := g, projection := some p }
    let ctx := LayerItem.contextOf source controller
    match a with
    | .definePowerToughness power toughness => do
      let power ← evaluate v ctx power
      let toughness ← evaluate v ctx toughness
      apply p source (.setBase power toughness)
    | .modifyGroup f power toughness =>
      applyAll p (v.permanents f ctx.forFilter) (.modify power toughness)
    | .grantKeyword f keyword => applyAll p (v.permanents f ctx.forFilter) (.grantKeyword keyword)
    | .addCardType f t => applyAll p (v.permanents f ctx.forFilter) (.addTypes (.singleton t))

/-- Applies a change. -/
def applyItem (g : Game) (p : Projection) (item : LayerItem) : Checked Projection :=
  match item.source with
  | .floating e =>
    if g.isActive e then applyAll p e.affected.toList e.modification.change else return p
  | .ability source a => applyAbility g p source a

/-- Goes through one stage. -/
def applyStage (g : Game) (items : List LayerItem) (p : Projection) (stage : Stage) :
    Checked Projection := do
  let p ← (LayerItem.inOrder (items.filter (·.stage = stage))).foldlM (applyItem g) p
  if stage = .counters then applyCounters g p else return p

/-- The characteristics of all objects after continuous effects. -/
def project (rules : Rules) (g : Game) : Checked Projection :=
  Stage.all.foldlM (applyStage g (LayerItem.all rules g)) (Projection.base g)

/-- The view of a game after continuous effects. -/
def view (rules : Rules) (g : Game) : Checked View := do
  return { game := g, projection := some (← project rules g) }

/-- The legal targets of a requirement in a game. -/
def legalTargets (rules : Rules) (g : Game) (ctx : Context) (r : Requirement) :
    Checked (List ObjectId) := do
  return (← view rules g).legalTargets ctx r

end Checked

theorem Modification.shields_le (m : Modification) : m.shields ≤ 1 := by
  cases m <;> simp [shields]

namespace Characteristics

variable {c : Characteristics} {m : Modification}

theorem Typed.apply (h : c.Typed) (hm : m.Typed) : (c.apply m).Typed := by
  have hsaturated {n : Option Int} {x : Int} :
      ∀ y ∈ n.map (fun y => saturate (y + x)), IsAmount y := by
    intro y hy
    obtain ⟨z, -, rfl⟩ := Option.map_eq_some_iff.mp hy
    exact isAmount_saturate _
  cases m with
  | changeController s =>
    refine ⟨h.power, h.toughness, ?_⟩
    rintro t ⟨⟩
    exact hm
  | setBase power toughness =>
    obtain ⟨hpower, htoughness⟩ := hm
    refine ⟨?_, ?_, h.controller⟩
    · rintro n ⟨⟩
      exact hpower
    · rintro n ⟨⟩
      exact htoughness
  | modify power toughness => exact ⟨hsaturated, hsaturated, h.controller⟩
  | _ => exact ⟨h.power, h.toughness, h.controller⟩

theorem checked_change (h : c.regenerationShields + m.shields ≤ maxWord) :
    Checked.change c m = .ok (c.apply m) := by
  cases m with
  | regenerationShield =>
    have hadd : Checked.add maxWord c.regenerationShields 1 =
        .ok (c.regenerationShields + 1) := Checked.add_eq h
    simp only [Checked.change, hadd]
    rfl
  | _ => rfl

end Characteristics

namespace Projection

variable {p : Projection} {m : Modification} {n k : Nat}

/-- All characteristics can be held, with so many regeneration shields at most. -/
def Typed (n : Nat) (p : Projection) : Prop :=
  ∀ o c, SortedMap.find? p o = some c → c.Typed ∧ c.regenerationShields ≤ n

theorem Typed.mono (h : p.Typed n) (hle : n ≤ k) : p.Typed k := by
  intro o c hc
  obtain ⟨htyped, hshields⟩ := h o c hc
  exact ⟨htyped, Nat.le_trans hshields hle⟩

theorem checked_apply {o : ObjectId}
    (h : ∀ c, SortedMap.find? p o = some c → c.regenerationShields + m.shields ≤ maxWord) :
    Checked.apply p o m = .ok (p.apply o m) := by
  unfold Checked.apply
  cases hfind : SortedMap.find? p o with
  | none =>
    have hsame : p.apply o m = p := by
      apply SortedMap.ext_find?
      intro o'
      rw [find?_apply]
      split
      · next ho => rw [ho, hfind, Option.map_none]
      · rfl
    rw [hsame]
    rfl
  | some c =>
    have hsame : SortedMap.modify p o (fun _ => c.apply m) = p.apply o m := by
      apply SortedMap.ext_find?
      intro o'
      rw [find?_apply, SortedMap.find?_modify]
      split
      · next ho => rw [ho, hfind, Option.map_some, Option.map_some]
      · rfl
    simp only [Characteristics.checked_change (h c hfind), Checked.ok_bind, hsame]
    rfl

/-- Different objects each get the shields of one change. -/
theorem checked_applyAll {os : List ObjectId} (hp : p.Typed n) (hm : m.Typed) (hnodup : os.Nodup)
    (hroom : n + m.shields ≤ maxWord) :
    Checked.applyAll p os m = .ok (p.applyAll os m) ∧ (p.applyAll os m).Typed (n + m.shields) := by
  -- the objects still to come have the shields that they had before
  let I (rest : List ObjectId) (p : Projection) : Prop := rest.Nodup ∧
    p.Typed (n + m.shields) ∧
      ∀ o ∈ rest, ∀ c, SortedMap.find? p o = some c → c.regenerationShields ≤ n
  have hI : I os p := by
    refine ⟨hnodup, hp.mono (Nat.le_add_right _ _), ?_⟩
    intro o _ c hc
    exact (hp o c hc).2
  obtain ⟨heq, -, htyped, -⟩ := Checked.foldlM_eq (I := I) (g := fun p o => p.apply o m) hI (by
    rintro o rest p ⟨hnodup, htyped, hcome⟩
    obtain ⟨hnot, hrest⟩ := List.nodup_cons.mp hnodup
    have hbefore (c : Characteristics) (hc : SortedMap.find? p o = some c) :
        c.regenerationShields ≤ n := hcome o List.mem_cons_self c hc
    refine ⟨?_, hrest, ?_, ?_⟩
    · apply checked_apply
      intro c hc
      have hshields := hbefore c hc
      omega
    · intro o' c' hc'
      rw [find?_apply] at hc'
      split at hc'
      · next ho =>
        rw [ho] at hc'
        obtain ⟨c, hc, rfl⟩ := Option.map_eq_some_iff.mp hc'
        have hshields := hbefore c hc
        refine ⟨(htyped o c hc).1.apply hm, ?_⟩
        rw [Characteristics.shields_apply]
        omega
      · exact htyped o' c' hc'
    · intro o' ho' c' hc'
      have hne : o' ≠ o := fun heq => hnot (heq ▸ ho')
      rw [find?_apply, if_neg hne] at hc'
      exact hcome o' (List.mem_cons_of_mem _ ho') c' hc')
  exact ⟨heq, htyped⟩

theorem checked_applyOne {o : ObjectId} (hp : p.Typed n) (hm : m.Typed)
    (hroom : n + m.shields ≤ maxWord) :
    Checked.apply p o m = .ok (p.apply o m) ∧ (p.apply o m).Typed (n + m.shields) := by
  obtain ⟨heq, htyped⟩ := checked_applyAll hp hm (List.nodup_singleton o) hroom
  refine ⟨?_, htyped⟩
  apply checked_apply
  intro c hc
  have hshields := (hp o c hc).2
  omega

theorem typed_base {g : Game} (h : g.Typed) : (base g).Typed 0 := by
  intro o c hc
  unfold base at hc
  rw [SortedMap.find?_choose] at hc
  obtain ⟨fs, -, hbase⟩ := Option.bind_eq_some_iff.mp hc
  refine ⟨h.base? hbase, ?_⟩
  obtain ⟨card, -, rfl⟩ := Option.map_eq_some_iff.mp hbase
  split <;> exact Nat.le_refl _

/-- Counters differ by an amount, whatever their numbers. -/
theorem checked_counterBonus (c : Counters) :
    Checked.counterBonus c = .ok (counterBonus c) := by
  have hcount (n : Nat) : 0 ≤ countAsAmount n ∧ countAsAmount n ≤ maxAmount := by
    unfold countAsAmount maxAmount
    omega
  exact Checked.minus_eq (hcount _) (hcount _)

theorem checked_applyCounters {g : Game} (hp : p.Typed n) (hroom : n ≤ maxWord) :
    Checked.applyCounters g p = .ok (p.applyCounters g) ∧ (p.applyCounters g).Typed n := by
  refine Checked.foldlM_eq (I := fun _ p => Projection.Typed n p) hp ?_
  intro o rest p hp
  cases (g.facets o).counters? with
  | none => exact ⟨rfl, hp⟩
  | some c =>
    obtain ⟨heq, htyped⟩ := checked_applyOne (o := o)
      (m := .modify (counterBonus c) (counterBonus c)) hp trivial hroom
    simp only [checked_counterBonus, Checked.ok_bind]
    exact ⟨heq, htyped⟩

end Projection

namespace LayerItem

variable {g : Game} {p : Projection} {n : Nat}

/-- The change of an item can be held. -/
def Typed (item : LayerItem) : Prop :=
  match item.source with
  | .floating e => e.modification.change.Typed
  | .ability _ a => a.Typed

/-- The shields that an item may add to each object. -/
def shields (item : LayerItem) : Nat :=
  match item.source with
  | .floating _ => 1
  | .ability _ _ => 0

/-- The shields that the items of a stage may add to each object. -/
def shieldsAt (items : List LayerItem) (stage : Stage) : Nat :=
  ((items.filter (·.stage = stage)).map shields).sum

theorem typed_of_mem_all (rules : Rules) (h : g.Typed) {item : LayerItem}
    (hitem : item ∈ all rules g) : item.Typed := by
  rcases List.mem_append.mp hitem with hfloating | hability
  · obtain ⟨e, he, rfl⟩ := List.mem_map.mp hfloating
    exact h.floating e he
  · split at hability
    · obtain ⟨⟨o, fs⟩, hentry, hitem⟩ := List.mem_flatMap.mp hability
      have hfacets : fs.Typed := by
        have hfind : g.objects.find? o = some fs := SortedMap.mem_entries_iff.mp hentry
        have hknown := h.facets o
        rwa [Game.facets, hfind] at hknown
      unfold ofObject at hitem
      split at hitem
      · cases hitem
      · next card hcard =>
        obtain ⟨a, ha, rfl⟩ := List.mem_map.mp hitem
        exact (hfacets.card hcard).abilities a (List.mem_of_mem_filter ha)
    · cases hability

/-- Abilities bring no shields. -/
theorem shields_of_mem_ofObject {o : ObjectId} {fs : Facets} {item : LayerItem}
    (h : item ∈ ofObject g o fs) : item.shields = 0 := by
  unfold ofObject at h
  split at h
  · cases h
  · obtain ⟨a, -, rfl⟩ := List.mem_map.mp h
    rfl

/-- Only floating effects bring shields. -/
theorem sum_shields_all (rules : Rules) (g : Game) :
    ((all rules g).map shields).sum = g.floating.length := by
  have hability (entries : List (ObjectId × Facets)) :
      ((entries.flatMap fun p => ofObject g p.1 p.2).map shields).sum = 0 := by
    refine List.sum_eq_zero_iff_forall_eq_nat.mpr fun n hn => ?_
    obtain ⟨item, hitem, rfl⟩ := List.mem_map.mp hn
    obtain ⟨p, -, hability⟩ := List.mem_flatMap.mp hitem
    exact shields_of_mem_ofObject hability
  have hfloating : ((g.floating.map ofFloating).map shields).sum = g.floating.length := by
    have hone : shields ∘ ofFloating = fun _ => 1 := rfl
    rw [List.map_map, hone, List.map_const', List.sum_replicate_nat, Nat.mul_one]
  unfold all
  rw [List.map_append, List.sum_append, hfloating]
  split
  · rw [hability]
    rfl
  · rfl

theorem checked_applyAbility (hsound : g.Sound) (htyped : g.Typed) (hp : p.Typed n)
    (hroom : n ≤ maxWord) (source : ObjectId) {a : StaticAbility} (ha : a.Typed) :
    Checked.applyAbility g p source a = .ok (applyAbility g p source a) ∧
      (applyAbility g p source a).Typed n := by
  unfold Checked.applyAbility applyAbility
  cases hcontroller : (p.controller? source).or (g.owner? source) with
  | none => exact ⟨rfl, hp⟩
  | some controller =>
    have hseat : controller.Typed := by
      rcases Option.or_eq_some_iff.mp hcontroller with hprojected | ⟨-, howner⟩
      · obtain ⟨c, hc, hs⟩ := Option.bind_eq_some_iff.mp hprojected
        exact (hp source c hc).1.controller controller hs
      · exact htyped.owner? howner
    have hctx : (contextOf source controller).Typed := by
      refine ⟨hseat, ?_, ?_, isAmount_zero, ?_⟩
      · rintro s ⟨⟩
      · rintro s ⟨⟩
      · rintro x ⟨⟩
    have hview : View.Typed { game := g, projection := some p } := by
      refine ⟨hsound, htyped, ?_, isAmount_zero⟩
      rintro q ⟨⟩ o c hc
      exact (hp o c hc).1
    have hnodup (v : View) (hv : v.game = g) (f : ObjectFilter) (ctx : FilterContext) :
        (v.permanents f ctx).Nodup := by
      subst hv
      exact (hsound.housed.nodup_allOf _).filter _
    cases a with
    | definePowerToughness power toughness =>
      have hpower := View.isAmount_evaluate hview hctx ha.1
      have htoughness := View.isAmount_evaluate hview hctx ha.2
      simp only [View.checked_evaluate hview hctx, Checked.ok_bind]
      exact Projection.checked_applyOne hp ⟨hpower, htoughness⟩ hroom
    | modifyGroup f power toughness =>
      exact Projection.checked_applyAll hp trivial (hnodup _ rfl f _) hroom
    | grantKeyword f keyword =>
      exact Projection.checked_applyAll hp trivial (hnodup _ rfl f _) hroom
    | addCardType f t => exact Projection.checked_applyAll hp trivial (hnodup _ rfl f _) hroom

theorem checked_applyItem (hsound : g.Sound) (htyped : g.Typed) (hp : p.Typed n)
    {item : LayerItem} (hitem : item.Typed) (hroom : n + item.shields ≤ maxWord) :
    Checked.applyItem g p item = .ok (item.apply g p) ∧
      (item.apply g p).Typed (n + item.shields) := by
  unfold Checked.applyItem apply
  unfold Typed at hitem
  unfold shields at hroom ⊢
  split at hitem
  · next e hsource =>
    have hone := e.modification.change.shields_le
    simp only [hsource] at hroom ⊢
    split
    · obtain ⟨heq, happlied⟩ := Projection.checked_applyAll hp hitem
        (SortedMap.keys_nodup e.affected.members) (by omega)
      exact ⟨heq, happlied.mono (by omega)⟩
    · exact ⟨rfl, hp.mono (Nat.le_add_right _ _)⟩
  · next source a hsource =>
    simp only [hsource] at hroom ⊢
    exact checked_applyAbility hsound htyped hp hroom source hitem

end LayerItem

namespace Projection

variable {g : Game} {p : Projection} {n : Nat}

theorem checked_applyStage (hsound : g.Sound) (htyped : g.Typed) (hp : p.Typed n)
    {items : List LayerItem} (hitems : ∀ item ∈ items, item.Typed) (stage : Stage)
    (hroom : n + LayerItem.shieldsAt items stage ≤ maxWord) :
    Checked.applyStage g items p stage = .ok (p.applyStage g items stage) ∧
      (p.applyStage g items stage).Typed (n + LayerItem.shieldsAt items stage) := by
  unfold LayerItem.shieldsAt at hroom ⊢
  have hperm := LayerItem.inOrder_perm (items.filter (·.stage = stage))
  have hsum := (hperm.map LayerItem.shields).sum_nat
  rw [← hsum] at hroom ⊢
  let k := n + ((LayerItem.inOrder (items.filter (·.stage = stage))).map LayerItem.shields).sum
  -- what the items to come may add is still free
  let I (rest : List LayerItem) (p : Projection) : Prop := (∀ item ∈ rest, item.Typed) ∧
    ∃ m, p.Typed m ∧ m + (rest.map LayerItem.shields).sum = k
  have hI : I (LayerItem.inOrder (items.filter (·.stage = stage))) p := by
    refine ⟨?_, n, hp, rfl⟩
    intro item hitem
    exact hitems item (List.mem_of_mem_filter (hperm.mem_iff.mp hitem))
  obtain ⟨heq, -, m, hm, hk⟩ := Checked.foldlM_eq (I := I) (g := LayerItem.apply g) hI (by
    rintro item rest p ⟨hrest, m, hm, hk⟩
    rw [List.map_cons, List.sum_cons] at hk
    obtain ⟨heq, happlied⟩ := LayerItem.checked_applyItem hsound htyped hm
      (hrest item List.mem_cons_self) (by omega)
    refine ⟨heq, fun item hitem => hrest item (List.mem_cons_of_mem _ hitem), _, happlied, ?_⟩
    omega)
  have hdone : Projection.Typed k _ := hm.mono (Nat.le_of_eq hk)
  unfold Checked.applyStage applyStage
  simp only [heq, Checked.ok_bind]
  split
  · exact checked_applyCounters hdone hroom
  · exact ⟨rfl, hdone⟩

end Projection

namespace LayerItem

/-- Items of different stages are counted once. -/
theorem sum_stages_le (stages : List Stage) (hnodup : stages.Nodup) (items : List LayerItem) :
    (stages.map (shieldsAt items)).sum ≤ (items.map shields).sum := by
  have hsum : (stages.map (shieldsAt items)).sum =
      ((items.filter (·.stage ∈ stages)).map shields).sum :=
    sum_map_classes hnodup stage shields items
  rw [hsum]
  exact (List.filter_sublist.map shields).sum_le_sum fun _ _ => Nat.zero_le _

end LayerItem

namespace Game

variable {g : Game}

/-- There are no more floating effects than identities for them. -/
theorem Sound.length_floating_le (h : g.Sound) : g.floating.length ≤ g.nextFloating := by
  have hnodup : (g.floating.map (·.id.val)).Nodup :=
    List.pairwise_map.mpr (h.orderly.numbered.imp fun hlt => Nat.ne_of_lt hlt)
  have hsubset : g.floating.map (·.id.val) ⊆ List.range g.nextFloating := by
    intro n hn
    obtain ⟨e, he, rfl⟩ := List.mem_map.mp hn
    exact List.mem_range.mpr (h.orderly.issued e he)
  have hlength := (hnodup.subperm hsubset).length_le
  simpa using hlength

end Game

namespace Rules

variable {g : Game}

/-- A game that can be held is projected without fail, to characteristics that can be held. -/
theorem checked_project (rules : Rules) (hsound : g.Sound) (htyped : g.Typed) :
    Checked.project rules g = .ok (rules.project g) ∧ (rules.project g).Typed maxWord := by
  have hstages := LayerItem.sum_stages_le Stage.all (by decide) (LayerItem.all rules g)
  have hall : (Stage.all.map (LayerItem.shieldsAt (LayerItem.all rules g))).sum ≤ maxWord := by
    have hfloating := LayerItem.sum_shields_all rules g
    have hlength := hsound.length_floating_le
    have hnext := htyped.nextFloating
    omega
  -- what the stages to come may add is still free
  let I (rest : List Stage) (p : Projection) : Prop :=
    ∃ n, p.Typed n ∧ n + (rest.map (LayerItem.shieldsAt (LayerItem.all rules g))).sum ≤ maxWord
  have hI : I Stage.all (Projection.base g) :=
    ⟨0, Projection.typed_base htyped, by rwa [Nat.zero_add]⟩
  obtain ⟨heq, n, hn, hle⟩ := Checked.foldlM_eq (I := I)
    (g := Projection.applyStage g (LayerItem.all rules g)) hI (by
    rintro stage rest p ⟨n, hn, hle⟩
    rw [List.map_cons, List.sum_cons] at hle
    obtain ⟨heq, happlied⟩ := Projection.checked_applyStage hsound htyped hn
      (fun item hitem => LayerItem.typed_of_mem_all rules htyped hitem) stage (by omega)
    exact ⟨heq, _, happlied, by omega⟩)
  exact ⟨heq, hn.mono (by omega)⟩

theorem checked_view (rules : Rules) (hsound : g.Sound) (htyped : g.Typed) :
    Checked.view rules g = .ok (rules.view g) := by
  unfold Checked.view
  rw [(rules.checked_project hsound htyped).1]
  rfl

theorem typed_view (rules : Rules) (hsound : g.Sound) (htyped : g.Typed) :
    (rules.view g).Typed := by
  refine ⟨hsound, htyped, ?_, isAmount_zero⟩
  rintro p ⟨⟩ o c hc
  exact ((rules.checked_project hsound htyped).2 o c hc).1

theorem checked_legalTargets (rules : Rules) (hsound : g.Sound) (htyped : g.Typed)
    (ctx : Context) (r : Requirement) :
    Checked.legalTargets rules g ctx r = .ok (rules.legalTargets g ctx r) := by
  unfold Checked.legalTargets
  rw [rules.checked_view hsound htyped]
  rfl

end Rules

end CardGame
