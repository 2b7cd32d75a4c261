import CardGame.Collection.SortedSet
import Mathlib.Algebra.BigOperators.Group.List.Basic
import Mathlib.Algebra.GroupWithZero.Nat
import Mathlib.Data.List.Nodup

/-!
Look-ups, keys and members of the sorted collections. A map is read through `SortedMap.find?` and a
set through `SortedSet.contains`; the entry lists behind them are related to those two here, once.
At the end stand sums over the classes into which a list falls.
-/

namespace CardGame

namespace SortedMap

variable {κ α β : Type} [Ranked κ] [DecidableEq κ]

private theorem lookup_eq_some_of_mem {k : κ} {a : α} {xs : List (κ × α)}
    (hsorted : xs.Pairwise (fun p q => Ranked.before p.1 q.1)) (hmem : (k, a) ∈ xs) :
    lookup k xs = some a := by
  induction xs with
  | nil => cases hmem
  | cons x rest ih =>
    obtain ⟨k₀, a₀⟩ := x
    obtain ⟨hfirst, hrest⟩ := List.pairwise_cons.mp hsorted
    rcases List.mem_cons.mp hmem with heq | htail
    · cases heq
      simp [lookup]
    · have hne : k₀ ≠ k := by
        rintro rfl
        simpa [Ranked.before_irrefl] using hfirst _ htail
      simp [lookup, hne, ih hrest htail]

omit [Ranked κ] in
private theorem mem_of_lookup {k : κ} {a : α} {xs : List (κ × α)} (h : lookup k xs = some a) :
    (k, a) ∈ xs := by
  induction xs with
  | nil => cases h
  | cons x rest ih =>
    obtain ⟨k₀, a₀⟩ := x
    by_cases hk : k₀ = k
    · subst hk
      simp only [lookup, if_true, Option.some.injEq] at h
      simp [h]
    · simp only [lookup, hk, if_false] at h
      exact List.mem_cons_of_mem _ (ih h)

/-- The entries are exactly the look-ups that succeed. -/
theorem mem_entries_iff {m : SortedMap κ α} {k : κ} {a : α} :
    (k, a) ∈ m.entries ↔ m.find? k = some a :=
  ⟨lookup_eq_some_of_mem m.sorted, mem_of_lookup⟩

theorem isEmpty_eq_false {m : SortedMap κ α} {k : κ} {a : α} (h : m.find? k = some a) :
    m.isEmpty = false := by
  have hmem : (k, a) ∈ m.entries := mem_entries_iff.mpr h
  exact List.isEmpty_eq_false_iff_exists_mem.mpr ⟨_, hmem⟩

theorem contains_iff {m : SortedMap κ α} {k : κ} :
    m.contains k = true ↔ ∃ a, m.find? k = some a := by
  simp [contains, Option.isSome_iff_exists]

theorem find?_eq_none {m : SortedMap κ α} {k : κ} (h : m.contains k = false) :
    m.find? k = none := Option.isNone_iff_eq_none.mp (Option.isSome_eq_false_iff.mp h)

theorem mem_keys_iff {m : SortedMap κ α} {k : κ} : k ∈ m.keys ↔ m.contains k = true := by
  rw [contains_iff, keys, List.mem_map]
  constructor
  · rintro ⟨⟨k', a⟩, hmem, rfl⟩
    exact ⟨a, mem_entries_iff.mp hmem⟩
  · rintro ⟨a, h⟩
    exact ⟨(k, a), mem_entries_iff.mpr h, rfl⟩

theorem mem_values_iff {m : SortedMap κ α} {a : α} :
    a ∈ m.values ↔ ∃ k, m.find? k = some a := by
  rw [values, List.mem_map]
  constructor
  · rintro ⟨⟨k, a'⟩, hmem, rfl⟩
    exact ⟨k, mem_entries_iff.mp hmem⟩
  · rintro ⟨k, h⟩
    exact ⟨(k, a), mem_entries_iff.mpr h, rfl⟩

omit [DecidableEq κ] in
/-- No two entries have the same key. -/
theorem entries_keys_ne (m : SortedMap κ α) : m.entries.Pairwise (fun p q => p.1 ≠ q.1) := by
  apply m.sorted.imp
  intro p q hbefore heq
  rw [heq, Ranked.before_irrefl] at hbefore
  cases hbefore

omit [DecidableEq κ] in
theorem keys_nodup (m : SortedMap κ α) : m.keys.Nodup :=
  List.pairwise_map.mpr m.entries_keys_ne

@[simp] theorem find?_modify (m : SortedMap κ α) (k k' : κ) (f : α → α) :
    (m.modify k f).find? k' = if k' = k then (m.find? k').map f else m.find? k' := by
  simp only [modify, find?_mapEntries]
  by_cases h : k' = k <;> simp [h]

theorem modify_congr {m : SortedMap κ α} {k : κ} {f f' : α → α}
    (h : ∀ a, m.find? k = some a → f a = f' a) : m.modify k f = m.modify k f' := by
  apply ext_find?
  intro k'
  rw [find?_modify, find?_modify]
  split
  · next hk => exact Option.map_congr fun a ha => h a (hk ▸ ha)
  · rfl

theorem modify_id (m : SortedMap κ α) (k : κ) : m.modify k (fun a => a) = m := by
  apply ext_find?
  intro k'
  rw [find?_modify, Option.map_id', ite_self]

theorem keys_modify (m : SortedMap κ α) (k : κ) (f : α → α) : (m.modify k f).keys = m.keys := by
  simp [keys, modify, mapEntries, Function.comp_def]

@[simp] theorem contains_modify (m : SortedMap κ α) (k k' : κ) (f : α → α) :
    (m.modify k f).contains k' = m.contains k' := by
  by_cases h : k' = k <;> simp [contains, h]

@[simp] theorem contains_insert (m : SortedMap κ α) (k k' : κ) (a : α) :
    (m.insert k a).contains k' = (decide (k = k') || m.contains k') := by
  by_cases h : k = k' <;> simp [contains, h]

@[simp] theorem contains_erase (m : SortedMap κ α) (k k' : κ) :
    (m.erase k).contains k' = (decide (k ≠ k') && m.contains k') := by
  by_cases h : k = k' <;> simp [contains, h]

private theorem foldl_insert_find? (xs : List (κ × α)) (m : SortedMap κ α) (k : κ) :
    ((xs.foldl (fun m p => m.insert p.1 p.2) m).find? k = m.find? k ∧ k ∉ xs.map (·.1)) ∨
      ∃ a, (k, a) ∈ xs ∧ (xs.foldl (fun m p => m.insert p.1 p.2) m).find? k = some a := by
  induction xs generalizing m with
  | nil => exact Or.inl ⟨rfl, by simp⟩
  | cons x rest ih =>
    obtain ⟨k₀, a₀⟩ := x
    rcases ih (m.insert k₀ a₀) with ⟨hfind, hrest⟩ | ⟨a, hmem, hfind⟩
    · by_cases hk : k₀ = k
      · subst hk
        exact Or.inr ⟨a₀, List.mem_cons_self, by simpa using hfind⟩
      · refine Or.inl ⟨by simpa [hk] using hfind, ?_⟩
        simpa [Ne.symm hk] using hrest
    · exact Or.inr ⟨a, List.mem_cons_of_mem _ hmem, hfind⟩

/-- A map made of entries answers only with entries. -/
theorem mem_of_find?_ofList {xs : List (κ × α)} {k : κ} {a : α}
    (h : (ofList xs).find? k = some a) : (k, a) ∈ xs := by
  rcases foldl_insert_find? xs empty k with ⟨hfind, -⟩ | ⟨b, hmem, hfind⟩
  · rw [ofList, hfind] at h
    simp at h
  · rw [ofList, hfind] at h
    cases h
    exact hmem

theorem contains_ofList_iff {xs : List (κ × α)} {k : κ} :
    (ofList xs).contains k = true ↔ k ∈ xs.map (·.1) := by
  rw [contains_iff]
  constructor
  · rintro ⟨a, h⟩
    exact List.mem_map.mpr ⟨(k, a), mem_of_find?_ofList h, rfl⟩
  · intro hmem
    rcases foldl_insert_find? xs empty k with ⟨-, hnot⟩ | ⟨a, -, hfind⟩
    · exact absurd hmem hnot
    · exact ⟨a, hfind⟩

/-- A map made of entries with different keys has these entries. -/
theorem entries_ofList_perm {xs : List (κ × α)} (hkeys : (xs.map (·.1)).Nodup) :
    (ofList xs).entries.Perm xs := by
  have hxs : xs.Nodup := hkeys.of_map
  have hentries : (ofList xs).entries.Nodup := (ofList xs).keys_nodup.of_map
  have hsame {k : κ} {a b : α} (ha : (k, a) ∈ xs) (hb : (k, b) ∈ xs) : a = b :=
    congrArg Prod.snd (List.inj_on_of_nodup_map hkeys ha hb rfl)
  rw [List.perm_ext_iff_of_nodup hentries hxs]
  rintro ⟨k, a⟩
  rw [mem_entries_iff]
  constructor
  · exact mem_of_find?_ofList
  · intro hmem
    have hkey : k ∈ xs.map (·.1) := List.mem_map.mpr ⟨(k, a), hmem, rfl⟩
    obtain ⟨b, hfind⟩ := contains_iff.mp (contains_ofList_iff.mpr hkey)
    rw [hfind, hsame hmem (mem_of_find?_ofList hfind)]

theorem find?_ofList_of_mem {xs : List (κ × α)} (hkeys : (xs.map (·.1)).Nodup) {k : κ} {a : α}
    (hmem : (k, a) ∈ xs) : (ofList xs).find? k = some a :=
  mem_entries_iff.mp ((entries_ofList_perm hkeys).mem_iff.mpr hmem)

/-- A map is made of its entries. -/
theorem ofList_entries (m : SortedMap κ α) : ofList m.entries = m := by
  apply ext_find?
  intro k
  ext a
  rw [← mem_entries_iff, ← mem_entries_iff, (entries_ofList_perm m.keys_nodup).mem_iff]

/-- The chosen entries are those that the choice gives a new value. -/
theorem find?_choose (f : κ → α → Option β) (m : SortedMap κ α) (k : κ) :
    (m.choose f).find? k = (m.find? k).bind (f k) := by
  have hentries (xs : List (κ × α)) (k : κ) (b : β) :
      (k, b) ∈ chooseEntries f xs ↔ ∃ a, (k, a) ∈ xs ∧ f k a = some b := by
    induction xs with
    | nil => simp [chooseEntries]
    | cons x rest ih =>
      obtain ⟨k₀, a₀⟩ := x
      simp only [chooseEntries]
      split <;> grind
  ext b
  rw [← mem_entries_iff, choose, hentries, Option.bind_eq_some_iff]
  simp only [mem_entries_iff]

end SortedMap

namespace SortedSet

variable {κ : Type} [Ranked κ] [DecidableEq κ]

@[simp] theorem contains_empty (k : κ) : (empty : SortedSet κ).contains k = false := rfl

theorem mem_toList_iff {s : SortedSet κ} {k : κ} : k ∈ s.toList ↔ s.contains k = true :=
  SortedMap.mem_keys_iff

@[simp] theorem contains_singleton (k k' : κ) :
    (singleton k).contains k' = decide (k = k') := by
  simp [singleton]

theorem contains_insertAll (s : SortedSet κ) (ks : List κ) (k : κ) :
    (s.insertAll ks).contains k = (s.contains k || decide (k ∈ ks)) := by
  induction ks generalizing s with
  | nil => simp [insertAll]
  | cons x rest ih =>
    have hstep : s.insertAll (x :: rest) = (s.insert x).insertAll rest := rfl
    rw [hstep, ih, contains_insert]
    by_cases hx : x = k
    · simp [hx]
    · simp [hx, Ne.symm hx]

@[simp] theorem contains_ofList (ks : List κ) (k : κ) :
    (ofList ks).contains k = decide (k ∈ ks) := by
  simp [ofList, contains_insertAll]

theorem contains_foldl_erase (s : SortedSet κ) (ks : List κ) (k : κ) :
    (ks.foldl erase s).contains k = (s.contains k && decide (k ∉ ks)) := by
  induction ks generalizing s with
  | nil => simp
  | cons x rest ih =>
    rw [List.foldl_cons, ih, contains_erase]
    by_cases hx : x = k
    · simp [hx]
    · simp [hx, Ne.symm hx]

/-- A set that does not contain a key has nothing to erase for it. -/
theorem erase_of_not_contains {s : SortedSet κ} {k : κ} (h : s.contains k = false) :
    s.erase k = s := by
  refine ext_contains fun k' => ?_
  rw [contains_erase]
  by_cases hk : k = k'
  · simp [← hk, h]
  · simp [hk]

/-- A set is empty when it contains nothing. -/
theorem isEmpty_iff {s : SortedSet κ} : s.isEmpty = true ↔ ∀ k, s.contains k = false := by
  have hentries : s.isEmpty = true ↔ s.members.entries = [] := by
    simp [isEmpty, SortedMap.isEmpty]
  rw [hentries]
  constructor
  · intro h k
    simp [contains, SortedMap.contains, SortedMap.find?, h, SortedMap.lookup]
  · intro h
    rw [List.eq_nil_iff_forall_not_mem]
    rintro ⟨k, a⟩ hmem
    have hcontains : s.contains k = true :=
      SortedMap.contains_iff.mpr ⟨a, SortedMap.mem_entries_iff.mp hmem⟩
    rw [h k] at hcontains
    cases hcontains

theorem exists_contains {s : SortedSet κ} (h : s.isEmpty = false) : ∃ k, s.contains k = true := by
  by_contra hnone
  rw [isEmpty_iff.mpr fun k => Bool.eq_false_iff.mpr fun hk => hnone ⟨k, hk⟩] at h
  cases h

end SortedSet

section Classes

variable {α κ : Type} [DecidableEq κ] {classes : List κ}

/-- Added up class by class, weights come to the sum over the members of all classes. -/
theorem sum_map_classes (hnodup : classes.Nodup) (key : α → κ) (weight : α → Nat) (xs : List α) :
    (classes.map fun c => ((xs.filter (key · = c)).map weight).sum).sum =
      ((xs.filter (key · ∈ classes)).map weight).sum := by
  induction xs with
  | nil => simp
  | cons x xs ih =>
    have hcons (c : κ) : (((x :: xs).filter (key · = c)).map weight).sum =
        (if key x = c then weight x else 0) + ((xs.filter (key · = c)).map weight).sum := by
      by_cases hx : key x = c <;> simp [hx]
    have hfirst := List.sum_map_eq_nsmul_single (l := classes) (key x)
      (fun c => if key x = c then weight x else 0) fun c hne _ => if_neg (Ne.symm hne)
    simp only [hcons]
    rw [List.sum_map_add, ih, hfirst, if_pos rfl]
    by_cases hx : key x ∈ classes
    · simp [hx, List.count_eq_one_of_mem hnodup hx]
    · simp [hx, List.count_eq_zero_of_not_mem hx]

/-- Classes that leave nothing out have together as many members as there are. -/
theorem sum_countP_classes (hnodup : classes.Nodup) {key : α → κ} {xs : List α}
    (hcover : ∀ x ∈ xs, key x ∈ classes) :
    (classes.map fun c => xs.countP (key · = c)).sum = xs.length := by
  have hall : xs.filter (key · ∈ classes) = xs := List.filter_eq_self.mpr (by simpa using hcover)
  have hsum := sum_map_classes hnodup key (fun _ => 1) xs
  simpa [hall, List.countP_eq_length_filter] using hsum

end Classes

end CardGame
