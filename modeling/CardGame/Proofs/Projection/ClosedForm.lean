import CardGame.Proofs.Projection.Control
import CardGame.Proofs.Zone.Consistency

/-!
What the layer system comes to when static abilities are left out. The projection goes through eight
stages with all floating effects and all objects; seen from one object and one characteristic there
is a closed form (`Characteristics.ClosedForm`): the latest change counts, or all changes add up.
-/

namespace CardGame

namespace Modification

/-- The controller that a change gives. -/
def claim? : Modification → Option Seat
  | .changeController s => some s
  | _ => none

/-- Whether a change gives a keyword or takes it away, if it does either. -/
def keyword? (k : Keyword) : Modification → Option Bool
  | .grantKeyword k' => if k = k' then some true else none
  | .removeKeyword k' => if k = k' then some false else none
  | _ => none

/-- Whether a change gives a card type or takes it away, if it does either. -/
def type? (t : CardType) : Modification → Option Bool
  | .addTypes ts => if ts.contains t then some true else none
  | .removeTypes ts => if ts.contains t then some false else none
  | _ => none

def addsSubtype (s : CardSubtype) : Modification → Bool
  | .addSubtypes ss => ss.contains s
  | _ => false

/-- The colors that a change sets. -/
def paint? : Modification → Option ColorSet
  | .setColors cs => some cs
  | _ => none

/-- The colors that a change adds. -/
def tint? : Modification → Option ColorSet
  | .addColors cs => some cs
  | _ => none

/-- The power and toughness that a change sets. -/
def size? : Modification → Option (Int × Int)
  | .setBase power toughness => some (power, toughness)
  | _ => none

/-- The bonus to power and toughness that a change gives. -/
def bonus? : Modification → Option (Int × Int)
  | .modify power toughness => some (power, toughness)
  | _ => none

end Modification

/-- A power or a toughness with some bonuses, one after the other. -/
def withBonuses (n : Int) (bonuses : List Int) : Int :=
  bonuses.foldl (fun n bonus => saturate (n + bonus)) n

/-- The characteristics `d` that come of characteristics `c` by changes in the given order. The
counters of a permanent give one more bonus. -/
structure Characteristics.ClosedForm (changes : List Modification) (counters : Option Int)
    (c d : Characteristics) : Prop where
  name : d.name = c.name
  owner : d.owner = c.owner
  manaValue : d.manaValue = c.manaValue
  supertypes : d.supertypes = c.supertypes
  /-- The latest claim counts. -/
  controller : d.controller = (changes.filterMap Modification.claim?).getLast?.or c.controller
  keywords : ∀ k, d.hasKeyword k =
    (changes.filterMap (Modification.keyword? k)).getLast?.getD (c.hasKeyword k)
  types : ∀ t, d.hasType t = (changes.filterMap (Modification.type? t)).getLast?.getD (c.hasType t)
  subtypes : ∀ s, d.subtypes.contains s =
    (c.subtypes.contains s || changes.any (Modification.addsSubtype s))
  /-- Colors set hide all earlier ones, and those added later come on top. -/
  painted : ∀ before cs later, changes = before ++ .setColors cs :: later →
    later.filterMap Modification.paint? = [] →
    d.colors = (later.filterMap Modification.tint?).foldl ColorSet.union cs
  unpainted : changes.filterMap Modification.paint? = [] →
    d.colors = (changes.filterMap Modification.tint?).foldl ColorSet.union c.colors
  /-- The latest size counts, and then every bonus, also an earlier one. -/
  power : d.power =
    (((changes.filterMap Modification.size?).getLast?.map (·.1)).or c.power).map fun n =>
      withBonuses n ((changes.filterMap Modification.bonus?).map (·.1) ++ counters.toList)
  toughness : d.toughness =
    (((changes.filterMap Modification.size?).getLast?.map (·.2)).or c.toughness).map fun n =>
      withBonuses n ((changes.filterMap Modification.bonus?).map (·.2) ++ counters.toList)
  exileOnDeath : d.exileOnDeath = changes.any (· = .exileOnDeath)
  regenerationShields : d.regenerationShields = changes.count .regenerationShield

section

variable {α β : Type}

/-- Where every change either sets a value or leaves it, the latest one that sets it counts. -/
theorem foldl_latest (f : α → Option β) (xs : List α) (b : β) :
    xs.foldl (fun b a => (f a).getD b) b = (xs.filterMap f).getLast?.getD b := by
  induction xs generalizing b with
  | nil => rfl
  | cons a rest ih =>
    rw [List.foldl_cons, ih]
    cases ha : f a with
    | none => rw [List.filterMap_cons_none ha, Option.getD_none]
    | some b' => rw [List.filterMap_cons_some ha, List.getLast?_cons, Option.getD_some,
        Option.getD_some]

theorem foldl_latest? (f : α → Option β) (xs : List α) (b : Option β) :
    xs.foldl (fun b a => (f a).or b) b = (xs.filterMap f).getLast?.or b := by
  induction xs generalizing b with
  | nil => rfl
  | cons a rest ih =>
    rw [List.foldl_cons, ih]
    cases ha : f a with
    | none => rw [List.filterMap_cons_none ha, Option.none_or]
    | some b' =>
      rw [List.filterMap_cons_some ha, List.getLast?_cons, Option.some_or, Option.some_or]
      cases (rest.filterMap f).getLast? <;> rfl

theorem foldl_or (q : α → Bool) (xs : List α) (b : Bool) :
    xs.foldl (fun b a => b || q a) b = (b || xs.any q) := by
  induction xs generalizing b with
  | nil => simp
  | cons a rest ih => rw [List.foldl_cons, ih, List.any_cons, Bool.or_assoc]

theorem foldl_count [DecidableEq α] (x : α) (xs : List α) (n : Nat) :
    xs.foldl (fun n a => if a = x then n + 1 else n) n = n + xs.count x := by
  induction xs generalizing n with
  | nil => rfl
  | cons a rest ih =>
    rw [List.foldl_cons, ih, List.count_cons]
    by_cases ha : a = x <;> simp [ha]; omega

/-- Changes that change nothing can be left out. -/
theorem foldl_filter_of_id {f : β → α → β} {keep : α → Bool}
    (hid : ∀ a b, keep a = false → f b a = b) (xs : List α) (b : β) :
    (xs.filter keep).foldl f b = xs.foldl f b := by
  induction xs generalizing b with
  | nil => rfl
  | cons a rest ih =>
    cases hkeep : keep a with
    | true => rw [List.filter_cons_of_pos hkeep, List.foldl_cons, List.foldl_cons, ih]
    | false =>
      rw [List.filter_cons_of_neg (by simp [hkeep]), List.foldl_cons, hid a b hkeep, ih]

end

namespace Characteristics

/-- A characteristic that no change touches. -/
theorem foldl_apply_of_same {α : Type} {F : Characteristics → α}
    (h : ∀ c m, F (c.apply m) = F c) (ms : List Modification) (c : Characteristics) :
    F (ms.foldl apply c) = F c := by
  induction ms generalizing c with
  | nil => rfl
  | cons m rest ih => rw [List.foldl_cons, ih, h]

/-- A characteristic of which every change makes something of its own. -/
theorem foldl_apply {α : Type} {F : Characteristics → α} {f : α → Modification → α}
    (h : ∀ c m, F (c.apply m) = f (F c) m) (ms : List Modification) (c : Characteristics) :
    F (ms.foldl apply c) = ms.foldl f (F c) := by
  induction ms generalizing c with
  | nil => rfl
  | cons m rest ih => rw [List.foldl_cons, ih, h, List.foldl_cons]

end Characteristics

/-- The changes to an object at one stage. The counters of a permanent have a stage of their own. -/
def changesAt (changes : List Modification) (counters : Option Int) (s : Stage) :
    List Modification :=
  changes.filter (·.stage = s) ++
    if s = .counters then (counters.map fun n => .modify n n).toList else []

/-- The changes to an object, stage by stage. -/
def staged (changes : List Modification) (counters : Option Int) : List Modification :=
  Stage.all.flatMap (changesAt changes counters)

section

variable {changes : List Modification} {counters : Option Int}

/-- What is done at a stage is that of the changes that belongs there, apart from bonuses. -/
theorem filter_staged {s : Stage} (hs : s ∈ [Stage.control, .cardType, .color, .ability, .marker]) :
    (staged changes counters).filter (·.stage = s) = changes.filter (·.stage = s) := by
  have hmodify : Stage.modify ≠ s := by
    rintro rfl
    revert hs
    decide
  have hcounters (s' : Stage) : (if s' = Stage.counters then
      (counters.map fun n => Modification.modify n n).toList
    else []).filter (·.stage = s) = [] := by
    rw [List.filter_eq_nil_iff]
    intro m hm
    split at hm
    · obtain ⟨n, -, rfl⟩ := Option.map_eq_some_iff.mp (Option.mem_toList.mp hm)
      exact fun hstage => hmodify (of_decide_eq_true hstage)
    · cases hm
  have hstages (s' : Stage) : (changesAt changes counters s').filter (·.stage = s) =
      if s' = s then changes.filter (·.stage = s) else [] := by
    rw [changesAt, List.filter_append, hcounters s', List.append_nil, List.filter_filter]
    split
    · next heq =>
      subst heq
      simp
    · next hne =>
      rw [List.filter_eq_nil_iff]
      intro m _ hm
      simp only [Bool.and_eq_true, decide_eq_true_eq] at hm
      exact hne (hm.2.symm.trans hm.1)
  rw [staged, List.filter_flatMap, List.flatMap_congr fun s' _ => hstages s']
  simp only [List.mem_cons, List.not_mem_nil, or_false] at hs
  rcases hs with rfl | rfl | rfl | rfl | rfl <;>
    simp [Stage.all, Stage.control, Stage.cardType, Stage.color, Stage.ability, Stage.setBase,
      Stage.modify, Stage.counters, Stage.marker]

/-- A characteristic that changes at one stage only is changed by what belongs there. -/
theorem apply_staged {α : Type} {F : Characteristics → α} {f : α → Modification → α}
    (h : ∀ c m, F (c.apply m) = f (F c) m) {s : Stage}
    (hs : s ∈ [Stage.control, .cardType, .color, .ability, .marker])
    (hid : ∀ m a, m.stage ≠ s → f a m = a) (c : Characteristics) :
    F ((staged changes counters).foldl Characteristics.apply c) = changes.foldl f (F c) := by
  have hskip (m : Modification) (a : α) (hm : decide (m.stage = s) = false) : f a m = a :=
    hid m a (of_decide_eq_false hm)
  rw [Characteristics.foldl_apply h, ← foldl_filter_of_id hskip, filter_staged hs,
    foldl_filter_of_id hskip]

/-- What a change makes of a power or a toughness. -/
def Modification.adjust (part : Int × Int → Int) (n : Option Int) (m : Modification) :
    Option Int :=
  ((m.size?.map part).or n).map fun n => withBonuses n (m.bonus?.map part).toList

theorem Characteristics.power_apply (c : Characteristics) (m : Modification) :
    (c.apply m).power = Modification.adjust Prod.fst c.power m := by
  cases m <;> cases hpower : c.power <;>
    simp [apply, Modification.adjust, Modification.size?, Modification.bonus?, withBonuses, hpower]

theorem Characteristics.toughness_apply (c : Characteristics) (m : Modification) :
    (c.apply m).toughness = Modification.adjust Prod.snd c.toughness m := by
  cases m <;> cases htoughness : c.toughness <;>
    simp [apply, Modification.adjust, Modification.size?, Modification.bonus?, withBonuses,
      htoughness]

section

variable (part : Int × Int → Int)

theorem foldl_sizes (n : Option Int) :
    (changes.filter (·.stage = .setBase)).foldl (Modification.adjust part) n =
      ((changes.filterMap Modification.size?).getLast?.map part).or n := by
  have hsize (n : Option Int) (m : Modification)
      (hm : m ∈ changes.filter (·.stage = .setBase)) :
      Modification.adjust part n m = (m.size?.map part).or n := by
    have hstage : m.stage = .setBase := by simpa using (List.mem_filter.mp hm).2
    cases m <;> cases hstage
    simp [Modification.adjust, Modification.size?, Modification.bonus?, withBonuses]
  rw [List.foldl_ext _ _ n hsize, foldl_filter_of_id, foldl_latest?, ← List.getLast?_map,
    List.map_filterMap]
  intro m n hm
  cases m <;> first | rfl | cases hm

theorem foldl_bonuses (n : Option Int) :
    (changes.filter (·.stage = .modify)).foldl (Modification.adjust part) n =
      n.map fun n => withBonuses n ((changes.filterMap Modification.bonus?).map part) := by
  induction changes generalizing n with
  | nil => simp [withBonuses]
  | cons m rest ih =>
    by_cases hm : m.stage = .modify
    · rw [List.filter_cons_of_pos (by simpa using hm), List.foldl_cons, ih]
      cases m <;> cases hm
      simp [Modification.adjust, Modification.size?, Modification.bonus?, withBonuses,
        Function.comp_def]
    · have hnone : m.bonus? = none := by
        cases m <;> first | rfl | exact absurd rfl hm
      rw [List.filter_cons_of_neg (by simpa using hm), List.filterMap_cons_none hnone, ih]

/-- A power or a toughness is first set and then gets its bonuses. -/
theorem adjust_staged (hpart : ∀ n, part (n, n) = n) (n : Option Int) :
    (staged changes counters).foldl (Modification.adjust part) n =
      (((changes.filterMap Modification.size?).getLast?.map part).or n).map fun n =>
        withBonuses n ((changes.filterMap Modification.bonus?).map part ++ counters.toList) := by
  have hother {s : Stage} (n : Option Int) (hset : s ≠ .setBase) (hmodify : s ≠ .modify) :
      (changes.filter (·.stage = s)).foldl (Modification.adjust part) n = n := by
    have hleaves (n : Option Int) (m : Modification) (hm : m ∈ changes.filter (·.stage = s)) :
        Modification.adjust part n m = n := by
      have hstage : m.stage = s := by simpa using (List.mem_filter.mp hm).2
      cases m with
      | setBase power toughness => exact absurd hstage.symm hset
      | modify power toughness => exact absurd hstage.symm hmodify
      | _ => simp [Modification.adjust, Modification.size?, Modification.bonus?, withBonuses]
    rw [List.foldl_ext _ (fun n _ => n) n hleaves, List.foldl_fixed]
  have hskip (s : Stage) (n : Option Int) (hset : s ≠ .setBase) (hmodify : s ≠ .modify)
      (hs : s ≠ .counters) :
      (changesAt changes counters s).foldl (Modification.adjust part) n = n := by
    rw [changesAt, if_neg hs, List.append_nil, hother n hset hmodify]
  have hsizes (n : Option Int) :
      (changesAt changes counters .setBase).foldl (Modification.adjust part) n =
        ((changes.filterMap Modification.size?).getLast?.map part).or n := by
    rw [changesAt, if_neg (by decide), List.append_nil, foldl_sizes]
  have hbonuses (n : Option Int) :
      (changesAt changes counters .modify).foldl (Modification.adjust part) n =
        n.map fun n => withBonuses n ((changes.filterMap Modification.bonus?).map part) := by
    rw [changesAt, if_neg (by decide), List.append_nil, foldl_bonuses]
  have hcounters (n : Option Int) :
      (changesAt changes counters .counters).foldl (Modification.adjust part) n =
        n.map fun n => withBonuses n counters.toList := by
    rw [changesAt, if_pos rfl, List.foldl_append, hother n (by decide) (by decide)]
    cases counters <;>
      simp [Modification.adjust, Modification.size?, Modification.bonus?, withBonuses, hpart]
  simp only [staged, Stage.all, List.flatMap_cons, List.flatMap_nil, List.append_nil,
    List.foldl_append]
  rw [hskip .control _ (by decide) (by decide) (by decide),
    hskip .cardType _ (by decide) (by decide) (by decide),
    hskip .color _ (by decide) (by decide) (by decide),
    hskip .ability _ (by decide) (by decide) (by decide), hsizes, hbonuses, hcounters,
    hskip .marker _ (by decide) (by decide) (by decide), Option.map_map]
  simp only [withBonuses, Function.comp_def, List.foldl_append]

end

theorem SortedSet.contains_union {κ : Type} [Ranked κ] [DecidableEq κ] (s t : SortedSet κ) (k : κ) :
    (s.union t).contains k = (s.contains k || t.contains k) := by
  rw [union, contains_insertAll, Bool.eq_iff_iff]
  simp [mem_toList_iff]

theorem SortedSet.contains_diff {κ : Type} [Ranked κ] [DecidableEq κ] (s t : SortedSet κ) (k : κ) :
    (s.diff t).contains k = (s.contains k && !t.contains k) := by
  unfold diff contains SortedMap.contains
  rw [SortedMap.find?_choose]
  cases hs : s.members.find? k <;> cases ht : (t.members.find? k).isSome <;>
    simp

/-- What a change makes of colors. -/
def Modification.colors (cs : ColorSet) : Modification → ColorSet
  | .setColors cs' => cs'
  | .addColors cs' => cs.union cs'
  | _ => cs

/-- Colors that are not set are added to. -/
theorem foldl_colors (h : changes.filterMap Modification.paint? = []) (cs : ColorSet) :
    changes.foldl Modification.colors cs =
      (changes.filterMap Modification.tint?).foldl ColorSet.union cs := by
  induction changes generalizing cs with
  | nil => rfl
  | cons m rest ih =>
    cases m with
    | setColors cs' => cases h
    | _ => exact ih h _

namespace Characteristics

variable {c : Characteristics}

theorem colors_staged : ((staged changes counters).foldl apply c).colors =
    changes.foldl Modification.colors c.colors := by
  refine apply_staged (F := (·.colors)) (s := .color) ?_ (by decide) ?_ c
  · intro c m
    cases m <;> rfl
  · intro m a hm
    cases m <;> first | rfl | exact absurd rfl hm

theorem keyword_apply (k : Keyword) (c : Characteristics) (m : Modification) :
    (c.apply m).hasKeyword k = (m.keyword? k).getD (c.hasKeyword k) := by
  cases m with
  | grantKeyword k' | removeKeyword k' =>
    by_cases hk : k = k' <;> simp [hasKeyword, apply, Modification.keyword?, hk, eq_comm]
  | _ => rfl

theorem type_apply (t : CardType) (c : Characteristics) (m : Modification) :
    (c.apply m).hasType t = (m.type? t).getD (c.hasType t) := by
  cases m with
  | addTypes ts | removeTypes ts =>
    cases ht : ts.contains t <;>
      simp [hasType, apply, Modification.type?, SortedSet.contains_union,
        SortedSet.contains_diff, ht]
  | _ => rfl

/-- The closed form holds of all changes together, although each is made at its own stage. -/
theorem closedForm_staged (hdeath : c.exileOnDeath = false) (hshields : c.regenerationShields = 0) :
    ClosedForm changes counters c ((staged changes counters).foldl apply c) where
  name := foldl_apply_of_same (F := (·.name)) (fun _ m => by cases m <;> rfl) _ c
  owner := foldl_apply_of_same (F := (·.owner)) (fun _ m => by cases m <;> rfl) _ c
  manaValue := foldl_apply_of_same (F := (·.manaValue)) (fun _ m => by cases m <;> rfl) _ c
  supertypes := foldl_apply_of_same (F := (·.supertypes)) (fun _ m => by cases m <;> rfl) _ c
  controller := by
    rw [← foldl_latest?]
    refine apply_staged (F := (·.controller)) (s := .control) ?_ (by decide) ?_ c
    · intro c m
      cases m <;> rfl
    · intro m a hm
      cases m <;> first | rfl | exact absurd rfl hm
  keywords k := by
    rw [← foldl_latest]
    refine apply_staged (F := (·.hasKeyword k)) (keyword_apply k) (s := .ability) (by decide) ?_ c
    intro m a hm
    cases m <;> first | rfl | exact absurd rfl hm
  types t := by
    rw [← foldl_latest]
    refine apply_staged (F := (·.hasType t)) (type_apply t) (s := .cardType) (by decide) ?_ c
    intro m a hm
    cases m <;> first | rfl | exact absurd rfl hm
  subtypes s := by
    rw [← foldl_or]
    refine apply_staged (F := (·.subtypes.contains s)) (s := .cardType) ?_ (by decide) ?_ c
    · intro c m
      cases m <;> simp [apply, Modification.addsSubtype, SortedSet.contains_union]
    · intro m a hm
      cases m <;> first | exact Bool.or_false a | exact absurd rfl hm
  painted before cs later hchanges hlater := by
    rw [colors_staged, hchanges, List.foldl_append, List.foldl_cons]
    exact foldl_colors hlater cs
  unpainted hnone := by rw [colors_staged, foldl_colors hnone]
  power := by rw [foldl_apply (F := (·.power)) power_apply, adjust_staged _ fun _ => rfl]
  toughness := by
    rw [foldl_apply (F := (·.toughness)) toughness_apply, adjust_staged _ fun _ => rfl]
  exileOnDeath := by
    rw [← Bool.false_or (changes.any _), ← hdeath, ← foldl_or]
    refine apply_staged (F := (·.exileOnDeath)) (s := .marker) ?_ (by decide) ?_ c
    · intro c m
      cases m <;> simp [apply]
    · intro m a hm
      cases m <;> first | exact Bool.or_false a | exact absurd rfl hm
  regenerationShields := by
    rw [← Nat.zero_add (changes.count _), ← hshields, ← foldl_count]
    refine apply_staged (F := (·.regenerationShields)) (s := .marker) ?_ (by decide) ?_ c
    · intro c m
      cases m <;> rfl
    · intro m a hm
      cases m <;> first | rfl | exact absurd rfl hm

end Characteristics

end

variable {g : Game} {p : Projection} {o : ObjectId}

namespace LayerItem

/-- Whichever floating effects there are, they are put in some order. -/
theorem exists_inOrder (fs : List FloatingEffect) :
    ∃ es : List FloatingEffect, es.Perm fs ∧ inOrder (fs.map ofFloating) = es.map ofFloating := by
  have hplace (e : FloatingEffect) (fs : List FloatingEffect) :
      ∃ es : List FloatingEffect, es.Perm (e :: fs) ∧
        place (ofFloating e) (fs.map ofFloating) = es.map ofFloating := by
    induction fs with
    | nil => exact ⟨[e], .refl _, rfl⟩
    | cons f rest ih =>
      rw [List.map_cons, place]
      split
      · exact ⟨e :: f :: rest, .refl _, rfl⟩
      · obtain ⟨es, hperm, hes⟩ := ih
        refine ⟨f :: es, (hperm.cons f).trans (.swap _ _ _), ?_⟩
        rw [hes, List.map_cons]
  induction fs with
  | nil => exact ⟨[], .refl _, rfl⟩
  | cons e rest ih =>
    obtain ⟨es, hperm, hes⟩ := ih
    obtain ⟨es', hperm', hes'⟩ := hplace e es
    refine ⟨es', hperm'.trans (hperm.cons e), ?_⟩
    rw [List.map_cons, inOrder, hes, hes']

end LayerItem

namespace Game

/-- What floating effects change of an object, in their order. -/
def changesOf (g : Game) (o : ObjectId) (es : List FloatingEffect) : List Modification :=
  (es.filter fun e => g.isActive e && e.affected.contains o).map (·.modification.change)

/-- The bonus of an object from counters, if it is a permanent with counters. -/
def counterBonus? (g : Game) (o : ObjectId) : Option Int :=
  if o ∈ g.battlefield then (g.facets o).counters?.map Projection.counterBonus else none

end Game

namespace Projection

theorem find?_applyAll {os : List ObjectId} (hnodup : os.Nodup) (m : Modification) :
    SortedMap.find? (p.applyAll os m) o =
      if o ∈ os then (SortedMap.find? p o).map (·.apply m) else SortedMap.find? p o := by
  induction os generalizing p with
  | nil => rfl
  | cons o' rest ih =>
    obtain ⟨hfirst, hrest⟩ := List.nodup_cons.mp hnodup
    have hstep : p.applyAll (o' :: rest) m = (p.apply o' m).applyAll rest m := rfl
    rw [hstep, ih hrest, find?_apply]
    by_cases ho : o = o'
    · subst ho
      simp [hfirst]
    · simp [ho]

/-- What floating effects change about one object. -/
theorem find?_foldl_floating (es : List FloatingEffect) :
    SortedMap.find? ((es.map LayerItem.ofFloating).foldl (LayerItem.apply g) p) o =
      (SortedMap.find? p o).map ((g.changesOf o es).foldl Characteristics.apply) := by
  induction es generalizing p with
  | nil => simp [Game.changesOf]
  | cons e rest ih =>
    have hstep : LayerItem.apply g p (.ofFloating e) =
        if g.isActive e then p.applyAll e.affected.toList e.modification.change else p := rfl
    rw [List.map_cons, List.foldl_cons, ih, hstep, Game.changesOf, Game.changesOf]
    cases hactive : g.isActive e with
    | false => simp [hactive]
    | true =>
      have hnodup : e.affected.toList.Nodup := SortedMap.keys_nodup _
      rw [if_pos rfl, find?_applyAll hnodup]
      cases haffected : e.affected.contains o <;>
        simp [SortedSet.mem_toList_iff, hactive, haffected, Function.comp_def]

/-- What counters change about one object. -/
theorem find?_applyCounters (hnodup : g.battlefield.Nodup) :
    SortedMap.find? (p.applyCounters g) o = (SortedMap.find? p o).map
      (((g.counterBonus? o).map fun n => .modify n n).toList.foldl Characteristics.apply) := by
  unfold applyCounters Game.counterBonus?
  generalize g.battlefield = os at hnodup ⊢
  induction os generalizing p with
  | nil => simp
  | cons o' rest ih =>
    obtain ⟨hfirst, hrest⟩ := List.nodup_cons.mp hnodup
    rw [List.foldl_cons, ih hrest]
    by_cases ho : o = o'
    · subst ho
      rw [if_neg hfirst, if_pos List.mem_cons_self]
      cases (g.facets o).counters? with
      | none => rfl
      | some c => simp [find?_apply, Function.comp_def]
    · simp only [List.mem_cons, ho, false_or]
      congr 1
      split
      · rw [find?_apply, if_neg ho]
      · rfl

/-- What one stage changes about one object, when the changes are those of floating effects. -/
theorem find?_applyStage (hnodup : g.battlefield.Nodup) {es : List FloatingEffect}
    {items : List LayerItem} (hitems : LayerItem.inOrder items = es.map LayerItem.ofFloating)
    (hplaced : ∀ e ∈ es, e.modification = e.modification.change.placed) (s : Stage) :
    SortedMap.find? (applyStage g items p s) o = (SortedMap.find? p o).map
      ((changesAt (g.changesOf o es) (g.counterBonus? o) s).foldl Characteristics.apply) := by
  have hfilter : LayerItem.inOrder (items.filter (·.stage = s)) =
      (es.filter (·.modification.stage = s)).map LayerItem.ofFloating := by
    rw [LayerItem.inOrder_filter, hitems, List.filter_map]
    rfl
  have hchanges : g.changesOf o (es.filter (·.modification.stage = s)) =
      (g.changesOf o es).filter (·.stage = s) := by
    unfold Game.changesOf
    rw [List.filter_map, List.filter_filter, List.filter_filter]
    refine congrArg (List.map _) (List.filter_congr fun e he => ?_)
    have hstage : e.modification.stage = e.modification.change.stage :=
      congrArg PlacedModification.stage (hplaced e he)
    rw [hstage, Bool.and_comm]
    rfl
  unfold applyStage changesAt
  rw [hfilter]
  split
  · simp only [find?_applyCounters hnodup, find?_foldl_floating, hchanges, Option.map_map,
      List.foldl_append, Function.comp_def]
  · simp only [find?_foldl_floating, hchanges, List.append_nil]

/-- What all stages change about one object. -/
theorem find?_foldl_applyStage (hnodup : g.battlefield.Nodup) {es : List FloatingEffect}
    {items : List LayerItem} (hitems : LayerItem.inOrder items = es.map LayerItem.ofFloating)
    (hplaced : ∀ e ∈ es, e.modification = e.modification.change.placed) (stages : List Stage) :
    SortedMap.find? (stages.foldl (applyStage g items) p) o = (SortedMap.find? p o).map
      ((stages.flatMap (changesAt (g.changesOf o es) (g.counterBonus? o))).foldl
        Characteristics.apply) := by
  induction stages generalizing p with
  | nil => simp
  | cons s rest ih =>
    rw [List.foldl_cons, ih, find?_applyStage hnodup hitems hplaced, Option.map_map]
    simp only [List.flatMap_cons, List.foldl_append, Function.comp_def]

end Projection

/-- The characteristics apart from continuous effects have no marks on them. -/
theorem Characteristics.unmarked_of_base? {c : Characteristics} (h : base? g o = some c) :
    c.exileOnDeath = false ∧ c.regenerationShields = 0 := by
  obtain ⟨card, -, rfl⟩ := Option.map_eq_some_iff.mp h
  split <;> exact ⟨rfl, rfl⟩

/-- Changes at different times are made in the order of their timestamps. -/
theorem LayerItem.ascending_of_inOrder {es fs : List FloatingEffect}
    (hes : inOrder (fs.map ofFloating) = es.map ofFloating)
    (hdistinct : (es.map (·.timestamp)).Nodup) :
    es.Pairwise fun e f => e.timestamp < f.timestamp := by
  have hsorted := inOrder_sorted (fs.map ofFloating)
  rw [hes, List.pairwise_map] at hsorted
  refine (hsorted.and (List.pairwise_map.mp hdistinct)).imp ?_
  rintro e f ⟨hle, hne⟩
  have hle : e.timestamp ≤ f.timestamp := of_decide_eq_true hle
  omega

/-- Without static abilities every object has, in a projection, the closed form of the active
floating effects that affect it, in the order of their timestamps. -/
theorem Rules.project_closedForm {rules : Rules} (hoff : rules.staticAbilities = false)
    (hzones : g.zones.Consistent)
    (hplaced : ∀ e ∈ g.floating, e.modification = e.modification.change.placed)
    (hdistinct : (g.floating.map (·.timestamp)).Nodup) (o : ObjectId) :
    ∃ es : List FloatingEffect,
      es.Perm (g.floating.filter fun e => g.isActive e && e.affected.contains o) ∧
      es.Pairwise (fun e f => e.timestamp < f.timestamp) ∧
      Option.Rel (Characteristics.ClosedForm (es.map (·.modification.change)) (g.counterBonus? o))
        (Characteristics.base? g o) (SortedMap.find? (rules.project g) o) := by
  obtain ⟨fs, hperm, hfs⟩ := LayerItem.exists_inOrder g.floating
  have hsorted := LayerItem.ascending_of_inOrder hfs
    ((hperm.map (·.timestamp)).nodup_iff.mpr hdistinct)
  have hitems : LayerItem.inOrder (LayerItem.all rules g) = fs.map LayerItem.ofFloating := by
    rw [← hfs, LayerItem.all, hoff, if_neg Bool.false_ne_true, List.append_nil]
  have hproject : SortedMap.find? (rules.project g) o = (Characteristics.base? g o).map
      ((staged (g.changesOf o fs) (g.counterBonus? o)).foldl Characteristics.apply) := by
    rw [← Projection.find?_base]
    exact Projection.find?_foldl_applyStage (hzones.nodup_allOf .battlefield) hitems
      (fun e he => hplaced e (hperm.subset he)) Stage.all
  refine ⟨fs.filter fun e => g.isActive e && e.affected.contains o, hperm.filter _,
    hsorted.filter _, ?_⟩
  rw [hproject]
  cases hbase : Characteristics.base? g o with
  | none => exact .none
  | some c =>
    obtain ⟨hdeath, hshields⟩ := Characteristics.unmarked_of_base? hbase
    exact .some (Characteristics.closedForm_staged hdeath hshields)

/-- A creature that first gets a bonus and is then made a 5/5 creature is a 6/6 creature. -/
theorem Rules.project_closedForm_of_pumped : ∃ g₀ g₁ g, Game.start {} = .ok g₀ ∧
    Game.spawnCard (.creature ⟨7⟩ "Bear" 2 2) ⟨0⟩ .battlefield g₀ = .ok ⟨2⟩ g₁ ∧
    g = ((g₁.addFloating (Modification.modify 1 1).placed (.singleton ⟨2⟩) .endOfTurn none
      ⟨0⟩).2.addFloating (Modification.setBase 5 5).placed (.singleton ⟨2⟩) .endOfTurn none ⟨0⟩).2 ∧
    (Rules.project { staticAbilities := false } g).power? ⟨2⟩ = some 6 ∧
    ∃ es : List FloatingEffect,
      es.Perm (g.floating.filter fun e => g.isActive e && e.affected.contains ⟨2⟩) ∧
      es.Pairwise (fun e f => e.timestamp < f.timestamp) ∧
      Option.Rel (Characteristics.ClosedForm (es.map (·.modification.change)) none)
        (some (.printed (CardDefinition.toCard (.creature ⟨7⟩ "Bear" 2 2)) (some ⟨0⟩) (some ⟨0⟩)))
        (SortedMap.find? (Rules.project { staticAbilities := false } g) ⟨2⟩) := by
  refine ⟨_, _, _, rfl, rfl, rfl, by decide +kernel, ?_⟩
  have hzones := (Zones.consistent_empty 2).add (o := ⟨2⟩) (z := .battlefield ⟨0⟩) (p := .top) rfl
  exact Rules.project_closedForm rfl hzones (by decide +kernel) (by decide +kernel) ⟨2⟩

end CardGame
