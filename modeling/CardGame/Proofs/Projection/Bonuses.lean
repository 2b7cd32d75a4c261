import CardGame.Proofs.Projection.ClosedForm
import CardGame.Proofs.Projection.Stages
import Mathlib.Data.List.Perm.Basic

/-!
Bonuses and keywords in any order. The newest floating effects apply last at their stage, so if all
they do is to give bonuses and keywords, nothing but their own order can tell two games apart in
which the same effects started one after the other. Keywords come to the same in any order, and so
do bonuses that can be added in full (`Rules.hasRoom`).
-/

namespace CardGame

/-- Whether a change gives a keyword or a bonus. -/
def Modification.isPump : Modification → Bool
  | .grantKeyword _ | .modify _ _ => true
  | _ => false

namespace Characteristics

variable {c : Characteristics} {ms ns : List Modification}

/-- Whether a bonus can be added in full: no sum leaves the range of amounts. -/
def hasRoom (c : Characteristics) : Modification → Bool
  | .modify power toughness =>
    c.power.all (fun n => saturate (n + power) = n + power) &&
      c.toughness.all fun n => saturate (n + toughness) = n + toughness
  | _ => true

/-- Whether some changes, one after the other, add their bonuses in full. -/
def hasRoomAll (c : Characteristics) : List Modification → Bool
  | [] => true
  | m :: ms => c.hasRoom m && (c.apply m).hasRoomAll ms

/-- The characteristics with a bonus added in full. -/
def grown (c : Characteristics) (bonus : Int × Int) : Characteristics :=
  { c with power := c.power.map (· + bonus.1), toughness := c.toughness.map (· + bonus.2) }

theorem grown_grown_comm (c : Characteristics) (a b : Int × Int) :
    (c.grown a).grown b = (c.grown b).grown a := by
  simp [grown, Function.comp_def, Int.add_right_comm]

theorem apply_modify (power toughness : Int)
    (hroom : c.hasRoom (.modify power toughness) = true) :
    c.apply (.modify power toughness) = c.grown (power, toughness) := by
  unfold hasRoom at hroom
  cases hpower : c.power <;> cases htoughness : c.toughness <;>
    simp_all [apply, grown]

/-- Bonuses that have room are added in full, one after the other. -/
theorem foldl_bonuses (hms : ∀ m ∈ ms, m.stage = .modify) (hroom : c.hasRoomAll ms = true) :
    ms.foldl apply c = (ms.filterMap Modification.bonus?).foldl grown c := by
  induction ms generalizing c with
  | nil => rfl
  | cons m rest ih =>
    obtain ⟨hfirst, hrest⟩ := Bool.and_eq_true_iff.mp hroom
    have hstage := hms m List.mem_cons_self
    cases m <;> cases hstage
    next power toughness =>
      rw [List.foldl_cons, ih (fun m hm => hms m (List.mem_cons_of_mem _ hm)) hrest,
        apply_modify power toughness hfirst]
      rfl

theorem foldl_bonuses_perm (hperm : ns.Perm ms) (hms : ∀ m ∈ ms, m.stage = .modify)
    (hroom : c.hasRoomAll ms = true) (hroom' : c.hasRoomAll ns = true) :
    ns.foldl apply c = ms.foldl apply c := by
  rw [foldl_bonuses hms hroom, foldl_bonuses (fun m hm => hms m (hperm.subset hm)) hroom']
  exact (hperm.filterMap _).foldl_eq' (fun a _ b _ c => grown_grown_comm c a b) c

theorem foldl_keywords_perm (hperm : ns.Perm ms) (hms : ∀ m ∈ ms, ∃ k, m = .grantKeyword k) :
    ns.foldl apply c = ms.foldl apply c := by
  refine hperm.foldl_eq' (fun m hm n hn c => ?_) c
  obtain ⟨k, rfl⟩ := hms m (hperm.subset hm)
  obtain ⟨k', rfl⟩ := hms n (hperm.subset hn)
  simp only [apply, mk.injEq, true_and, and_true]
  apply SortedSet.ext_contains
  intro k''
  simp only [SortedSet.contains_insert]
  exact Bool.or_left_comm _ _ _

/-- The pumps of one stage come to the same in any order, if the bonuses among them can be added in
full. -/
theorem foldl_pumps_perm (hperm : ns.Perm ms) {s : Stage}
    (hms : ∀ m ∈ ms, m.isPump = true ∧ m.stage = s)
    (hroom : s = .modify → c.hasRoomAll ms = true ∧ c.hasRoomAll ns = true) :
    ns.foldl apply c = ms.foldl apply c := by
  by_cases hs : s = .modify
  · subst hs
    obtain ⟨hroom, hroom'⟩ := hroom rfl
    exact foldl_bonuses_perm hperm (fun m hm => (hms m hm).2) hroom hroom'
  · refine foldl_keywords_perm hperm fun m hm => ?_
    obtain ⟨hpump, hstage⟩ := hms m hm
    cases m with
    | grantKeyword k => exact ⟨k, rfl⟩
    | modify power toughness => exact absurd hstage.symm hs
    | _ => cases hpump

end Characteristics

variable {rules : Rules} {g g' : Game} {p : Projection} {o : ObjectId}
  {es fs olds news : List FloatingEffect}

/-- What a floating effect does, and to which objects. -/
def FloatingEffect.deed (e : FloatingEffect) : SortedSet ObjectId × PlacedModification :=
  (e.affected, e.modification)

/-- Whether a floating effect adds its bonus in full to everything that it affects. -/
def LayerItem.hasRoom (p : Projection) (item : LayerItem) : Bool :=
  match item.source with
  | .floating e => e.affected.toList.all fun o =>
    (SortedMap.find? p o).all (·.hasRoom e.modification.change)
  | .ability _ _ => true

/-- Whether all floating effects among some changes, one after the other, add their bonuses in
full. -/
def Projection.hasRoom (g : Game) (p : Projection) : List LayerItem → Bool
  | [] => true
  | item :: items => item.hasRoom p && Projection.hasRoom g (LayerItem.apply g p item) items

/-- The stages before the one at which bonuses are added. -/
def Stage.beforeModify : List Stage := [.control, .cardType, .color, .ability, .setBase]

/-- Whether floating effects add their bonuses in full as a game is projected: no sum that comes up
leaves the range of amounts. -/
def Rules.hasRoom (rules : Rules) (g : Game) : Bool :=
  Projection.hasRoom g
    (Stage.beforeModify.foldl (Projection.applyStage g (LayerItem.all rules g)) (.base g))
    (LayerItem.inOrder ((LayerItem.all rules g).filter (·.stage = .modify)))

theorem Projection.hasRoom_append (xs ys : List LayerItem) :
    p.hasRoom g (xs ++ ys) =
      (p.hasRoom g xs && (xs.foldl (LayerItem.apply g) p).hasRoom g ys) := by
  induction xs generalizing p with
  | nil => exact (Bool.true_and _).symm
  | cons x rest ih => rw [List.cons_append, hasRoom, hasRoom, ih, List.foldl_cons, Bool.and_assoc]

theorem Game.Alike.hasRoom (halike : g.Alike g') :
    Projection.hasRoom g = Projection.hasRoom g' := by
  funext p items
  induction items generalizing p with
  | nil => rfl
  | cons item rest ih => rw [Projection.hasRoom, Projection.hasRoom, ih, halike.apply]

/-- Where there is room for some floating effects, there is for what they do to one object. -/
theorem Projection.hasRoomAll_changesOf {c : Characteristics}
    (hroom : p.hasRoom g (es.map LayerItem.ofFloating) = true)
    (hc : SortedMap.find? p o = some c) : c.hasRoomAll (g.changesOf o es) = true := by
  induction es generalizing p c with
  | nil => rfl
  | cons e rest ih =>
    obtain ⟨hfirst, hrest⟩ := Bool.and_eq_true_iff.mp hroom
    have hfind := find?_foldl_floating (g := g) (p := p) (o := o) [e]
    change SortedMap.find? (LayerItem.apply g p (.ofFloating e)) o = _ at hfind
    rw [hc, Option.map_some] at hfind
    have hlater := ih hrest hfind
    unfold Game.changesOf at hlater ⊢
    cases hkeep : g.isActive e && e.affected.contains o with
    | false =>
      rw [List.filter_cons_of_neg (by simp [hkeep])]
      rwa [List.filter_cons_of_neg (by simp [hkeep])] at hlater
    | true =>
      rw [List.filter_cons_of_pos (by simp [hkeep])] at hlater ⊢
      refine Bool.and_eq_true_iff.mpr ⟨?_, hlater⟩
      have haffected := SortedSet.mem_toList_iff.mpr (Bool.and_eq_true_iff.mp hkeep).2
      have hthere := List.all_eq_true.mp hfirst o haffected
      rwa [hc] at hthere

/-- What floating effects that all work do to an object depends on their deeds only. -/
theorem Game.changesOf_eq (hactive : ∀ e ∈ es, g.isActive e = true) :
    g.changesOf o es = ((es.map (·.deed)).filter (·.1.contains o)).map (·.2.change) := by
  rw [changesOf, List.filter_map, List.map_map]
  refine congrArg (List.map _) (List.filter_congr fun e he => ?_)
  rw [hactive e he, Bool.true_and]
  rfl

/-- Floating effects that give bonuses and keywords at one stage come to the same in any order. -/
theorem Projection.foldl_pumps_perm (hes : ∀ e ∈ es, g.isActive e = true)
    (hfs : ∀ e ∈ fs, g.isActive e = true) (hperm : (fs.map (·.deed)).Perm (es.map (·.deed)))
    {s : Stage}
    (hpump : ∀ e ∈ es, e.modification.change.isPump = true ∧ e.modification.change.stage = s)
    (hroom : s = .modify → p.hasRoom g (es.map LayerItem.ofFloating) = true ∧
      p.hasRoom g (fs.map LayerItem.ofFloating) = true) :
    (fs.map LayerItem.ofFloating).foldl (LayerItem.apply g) p =
      (es.map LayerItem.ofFloating).foldl (LayerItem.apply g) p := by
  apply SortedMap.ext_find?
  intro o
  rw [find?_foldl_floating, find?_foldl_floating]
  cases hc : SortedMap.find? p o with
  | none => rfl
  | some c =>
    have hchanges : (g.changesOf o fs).Perm (g.changesOf o es) := by
      rw [Game.changesOf_eq hes, Game.changesOf_eq hfs]
      exact (hperm.filter _).map _
    refine congrArg some (Characteristics.foldl_pumps_perm hchanges (s := s) (fun m hm => ?_)
      fun hs => ?_)
    · obtain ⟨e, he, rfl⟩ := List.mem_map.mp hm
      exact hpump e (List.mem_filter.mp he).1
    · exact ⟨hasRoomAll_changesOf (hroom hs).1 hc, hasRoomAll_changesOf (hroom hs).2 hc⟩

/-- Games that differ in nothing but floating effects and the counters of what has been handed
out. -/
structure Game.SameBoard (g g' : Game) : Prop where
  seats : g'.seats = g.seats
  objects : g'.objects = g.objects
  zones : g'.zones = g.zones
  turn : g'.turn = g.turn

theorem Game.SameBoard.alike (h : g.SameBoard g') : g'.Alike g where
  seats := h.seats
  zones := h.zones
  turn := h.turn
  facet o kind _ := by rw [facets, facets, h.objects]
  base? o := Characteristics.base?_congr h.seats (by rw [facets, facets, h.objects])

/-- The changes that static abilities have to offer. -/
def LayerItem.abilities (rules : Rules) (g : Game) : List LayerItem :=
  if rules.staticAbilities then g.objects.entries.flatMap fun p => ofObject g p.1 p.2 else []

theorem Game.SameBoard.abilities (h : g.SameBoard g') (rules : Rules) :
    LayerItem.abilities rules g' = LayerItem.abilities rules g := by
  have hobject : LayerItem.ofObject g' = LayerItem.ofObject g := by
    funext o fs
    unfold LayerItem.ofObject
    rw [h.alike.onBattlefield]
  rw [LayerItem.abilities, LayerItem.abilities, hobject, h.objects]

/-- The floating effects of a game are some older ones and then some that are newer than whatever
there is, work, and give bonuses and keywords. -/
structure Game.Topped (g : Game) (olds news : List FloatingEffect) : Prop where
  floating : g.floating = olds ++ news
  older : ∀ e ∈ olds, ∀ f ∈ news, e.timestamp ≤ f.timestamp
  ascending : news.Pairwise fun e f => e.timestamp ≤ f.timestamp
  entered : ∀ o, g.onBattlefield o = true → ∀ f ∈ news,
    ((g.facets o).entered?.map (·.2)).getD 0 < f.timestamp
  working : ∀ f ∈ news, g.isActive f = true
  placed : ∀ f ∈ news, f.modification.stage = f.modification.change.stage
  pumps : ∀ f ∈ news, f.modification.change.isPump = true

namespace LayerItem

/-- An ability comes before the newest floating effects: it defines a characteristic, or its object
entered the battlefield before they started. -/
theorem le_ofFloating_of_mem_abilities (h : g.Topped olds news) {e : FloatingEffect}
    (he : e ∈ news) {item : LayerItem} (hitem : item ∈ abilities rules g) :
    (ofFloating e).le item = false := by
  unfold abilities at hitem
  split at hitem
  · rw [flatMap_entries] at hitem
    obtain ⟨o, -, hobject⟩ := List.mem_flatMap.mp hitem
    rw [ofObject_eq] at hobject
    obtain ⟨a, ha, rfl⟩ := List.mem_map.mp hobject
    have hworks : g.works o a = true := (List.mem_filter.mp ha).2
    unfold Game.works at hworks
    cases hdefining : a.isDefining with
    | true => rfl
    | false =>
      rw [hdefining, Bool.false_or] at hworks
      exact decide_eq_false (Nat.not_le_of_lt (h.entered o hworks e he))
  · cases hitem

/-- The changes of one stage by the older floating effects and by static abilities. -/
def older (rules : Rules) (g : Game) (olds : List FloatingEffect) (s : Stage) : List LayerItem :=
  inOrder ((olds.map ofFloating ++ abilities rules g).filter (·.stage = s))

/-- The changes of one stage by the newest floating effects. -/
def newest (news : List FloatingEffect) (s : Stage) : List LayerItem :=
  (news.filter (·.modification.stage = s)).map ofFloating

/-- The newest floating effects come last at every stage. -/
theorem inOrder_all (h : g.Topped olds news) (rules : Rules) (s : Stage) :
    inOrder ((all rules g).filter (·.stage = s)) = older rules g olds s ++ newest news s := by
  have hall : all rules g = olds.map ofFloating ++ (news.map ofFloating ++ abilities rules g) := by
    rw [all, h.floating, List.map_append, List.append_assoc]
    rfl
  have hnews : (news.map ofFloating).filter (·.stage = s) = newest news s := by
    rw [List.filter_map]
    rfl
  have hmem {item : LayerItem} (hitem : item ∈ newest news s) :
      ∃ f ∈ news, item = ofFloating f := by
    obtain ⟨f, hf, rfl⟩ := List.mem_map.mp hitem
    exact ⟨f, (List.mem_filter.mp hf).1, rfl⟩
  rw [hall, older, List.filter_append, List.filter_append, hnews, List.filter_append]
  apply inOrder_newest
  · intro item hitem item' hitem'
    obtain ⟨e, he, rfl⟩ := List.mem_map.mp (List.mem_filter.mp hitem).1
    obtain ⟨f, hf, rfl⟩ := hmem hitem'
    exact decide_eq_true (h.older e he f hf)
  · refine List.pairwise_map.mpr ((h.ascending.filter _).imp fun hle => ?_)
    exact decide_eq_true hle
  · intro item hitem item' hitem'
    obtain ⟨f, hf, rfl⟩ := hmem hitem
    exact le_ofFloating_of_mem_abilities h hf (List.mem_filter.mp hitem').1

end LayerItem

theorem Game.SameBoard.older (h : g.SameBoard g') (rules : Rules) (s : Stage) :
    LayerItem.older rules g' olds s = LayerItem.older rules g olds s := by
  rw [LayerItem.older, h.abilities, LayerItem.older]

namespace Rules

variable {g₁ g₂ : Game} {news₁ news₂ : List FloatingEffect}

/-- Where a game has room for its bonuses, it has room for the newest ones after all others. -/
theorem hasRoom_newest (h : g.Topped olds news) (hroom : rules.hasRoom g = true) :
    ((LayerItem.older rules g olds .modify).foldl (LayerItem.apply g)
      (Stage.beforeModify.foldl (Projection.applyStage g (LayerItem.all rules g))
        (.base g))).hasRoom g (LayerItem.newest news .modify) = true := by
  rw [hasRoom, LayerItem.inOrder_all h, Projection.hasRoom_append] at hroom
  exact (Bool.and_eq_true_iff.mp hroom).2

/-- What the same newest floating effects make of one stage, started in two orders. -/
theorem applyStage_topped (hsame : g₁.SameBoard g₂) (h₁ : g₁.Topped olds news₁)
    (h₂ : g₂.Topped olds news₂) (hperm : (news₂.map (·.deed)).Perm (news₁.map (·.deed)))
    {s : Stage} {q : Projection}
    (hq : (LayerItem.older rules g₁ olds s).foldl (LayerItem.apply g₁) p = q)
    (hroom : s = .modify → q.hasRoom g₁ (LayerItem.newest news₁ s) = true ∧
      q.hasRoom g₁ (LayerItem.newest news₂ s) = true) :
    p.applyStage g₂ (LayerItem.all rules g₂) s = p.applyStage g₁ (LayerItem.all rules g₁) s := by
  have hdeeds (news : List FloatingEffect) :
      (news.filter (·.modification.stage = s)).map (·.deed) =
        (news.map (·.deed)).filter (·.2.stage = s) := by
    rw [List.filter_map]
    rfl
  have hpumps : (LayerItem.newest news₂ s).foldl (LayerItem.apply g₁) q =
      (LayerItem.newest news₁ s).foldl (LayerItem.apply g₁) q := by
    refine Projection.foldl_pumps_perm (s := s) ?_ ?_ ?_ ?_ hroom
    · exact fun e he => h₁.working e (List.mem_filter.mp he).1
    · intro e he
      rw [← hsame.alike.isActive]
      exact h₂.working e (List.mem_filter.mp he).1
    · rw [hdeeds, hdeeds]
      exact hperm.filter _
    · intro e he
      obtain ⟨hnew, hstage⟩ := List.mem_filter.mp he
      exact ⟨h₁.pumps e hnew, (h₁.placed e hnew).symm.trans (of_decide_eq_true hstage)⟩
  rw [hsame.alike.applyStage]
  unfold Projection.applyStage
  rw [LayerItem.inOrder_all h₁, LayerItem.inOrder_all h₂, hsame.older,
    List.foldl_append, List.foldl_append, hq, hpumps]

/-- Two games in which the same bonuses and keywords came last, in whatever order, have the same
projection if in both of them all bonuses can be added in full. -/
theorem project_eq_of_perm (hsame : g₁.SameBoard g₂) (h₁ : g₁.Topped olds news₁)
    (h₂ : g₂.Topped olds news₂) (hperm : (news₂.map (·.deed)).Perm (news₁.map (·.deed)))
    (hroom₁ : rules.hasRoom g₁ = true) (hroom₂ : rules.hasRoom g₂ = true) :
    rules.project g₂ = rules.project g₁ := by
  have hbase : Projection.base g₂ = .base g₁ := by
    apply SortedMap.ext_find?
    intro o
    rw [Projection.find?_base, Projection.find?_base, hsame.alike.base?]
  have hother {s : Stage} (hs : s ≠ .modify) (p : Projection) :
      p.applyStage g₂ (LayerItem.all rules g₂) s = p.applyStage g₁ (LayerItem.all rules g₁) s :=
    applyStage_topped hsame h₁ h₂ hperm rfl fun heq => absurd heq hs
  have hbefore : Stage.beforeModify.foldl (Projection.applyStage g₂ (LayerItem.all rules g₂))
      (.base g₂) = Stage.beforeModify.foldl (Projection.applyStage g₁ (LayerItem.all rules g₁))
        (.base g₁) := by
    rw [hbase]
    refine List.foldl_ext _ _ _ fun p s hs => hother ?_ p
    rintro rfl
    revert hs
    decide
  have hnewest₁ := hasRoom_newest h₁ hroom₁
  have hnewest₂ := hasRoom_newest h₂ hroom₂
  rw [hsame.alike.hasRoom, hsame.alike.apply, hsame.older, hbefore] at hnewest₂
  have hmodify := applyStage_topped hsame h₁ h₂ hperm rfl fun _ => ⟨hnewest₁, hnewest₂⟩
  have hstages : Stage.all = Stage.beforeModify ++ [.modify, .counters, .marker] := rfl
  unfold project
  rw [hstages, List.foldl_append, List.foldl_append, hbefore]
  simp only [List.foldl_cons, List.foldl_nil]
  rw [hmodify, hother (by decide), hother (by decide)]

end Rules

end CardGame
