import CardGame.Collection.Ranked

/-!
Finite maps as association lists with strictly ascending keys. Two maps that answer every look-up
alike are equal (`SortedMap.ext_find?`).
-/

namespace CardGame

/-- A finite map from `κ` to `α`, its entries in ascending order of their keys. -/
structure SortedMap (κ α : Type) [Ranked κ] where
  entries : List (κ × α)
  sorted : entries.Pairwise (fun p q => Ranked.before p.1 q.1)
deriving DecidableEq

namespace SortedMap

variable {κ α β : Type} [Ranked κ] [DecidableEq κ]

/-- The map without entries. -/
def empty : SortedMap κ α := ⟨[], .nil⟩

instance : EmptyCollection (SortedMap κ α) := ⟨empty⟩
instance : Inhabited (SortedMap κ α) := ⟨empty⟩

def keys (m : SortedMap κ α) : List κ := m.entries.map (·.1)

def values (m : SortedMap κ α) : List α := m.entries.map (·.2)

def size (m : SortedMap κ α) : Nat := m.entries.length

def isEmpty (m : SortedMap κ α) : Bool := m.entries.isEmpty

/-- The value at a key of an entry list. -/
def lookup (k : κ) : List (κ × α) → Option α
  | [] => none
  | (k', a) :: rest => if k' = k then some a else lookup k rest

/-- The value at a key. -/
def find? (m : SortedMap κ α) (k : κ) : Option α := lookup k m.entries

def contains (m : SortedMap κ α) (k : κ) : Bool := (m.find? k).isSome

/-- Puts an entry at its place in a sorted entry list, replacing one with an equal key. -/
def place (k : κ) (a : α) : List (κ × α) → List (κ × α)
  | [] => [(k, a)]
  | (k', a') :: rest =>
    if Ranked.before k k' then (k, a) :: (k', a') :: rest
    else if k' = k then (k, a) :: rest
    else (k', a') :: place k a rest

theorem mem_place {k : κ} {a : α} {xs : List (κ × α)} {p : κ × α} (h : p ∈ place k a xs) :
    p = (k, a) ∨ p ∈ xs := by
  induction xs with
  | nil => simpa [place] using h
  | cons x rest ih =>
    obtain ⟨k', a'⟩ := x
    simp only [place] at h
    split at h
    · simpa using h
    · split at h
      · rcases List.mem_cons.1 h with h | h
        · exact .inl h
        · exact .inr (List.mem_cons_of_mem _ h)
      · rcases List.mem_cons.1 h with h | h
        · exact .inr (h ▸ List.mem_cons_self)
        · exact (ih h).imp id (List.mem_cons_of_mem _)

theorem sorted_place (k : κ) (a : α) {xs : List (κ × α)}
    (h : xs.Pairwise (fun p q => Ranked.before p.1 q.1)) :
    (place k a xs).Pairwise (fun p q => Ranked.before p.1 q.1) := by
  induction xs with
  | nil => simp [place]
  | cons x rest ih =>
    obtain ⟨k', a'⟩ := x
    have hrest := List.pairwise_cons.1 h
    simp only [place]
    split
    · next hk =>
      refine List.pairwise_cons.2 ⟨fun p hp => ?_, h⟩
      rcases List.mem_cons.1 hp with rfl | hp
      · exact hk
      · exact Ranked.before_trans hk (hrest.1 p hp)
    · next hk =>
      split
      · next he =>
        subst he
        exact List.pairwise_cons.2 ⟨hrest.1, hrest.2⟩
      · next he =>
        refine List.pairwise_cons.2 ⟨fun p hp => ?_, ih hrest.2⟩
        rcases mem_place hp with rfl | hp
        · cases hb : Ranked.before k' k with
          | true => rfl
          | false => exact absurd (Ranked.eq_of_not_before hb (by simpa using hk)) he
        · exact hrest.1 p hp

/-- Sets the value at a key. -/
def insert (m : SortedMap κ α) (k : κ) (a : α) : SortedMap κ α :=
  ⟨place k a m.entries, sorted_place k a m.sorted⟩

/-- Drops the entry of a key. -/
def erase (m : SortedMap κ α) (k : κ) : SortedMap κ α :=
  ⟨m.entries.filter (fun p => p.1 ≠ k), m.sorted.filter _⟩

/-- The map of some entries, a later entry replacing an earlier one of the same key. -/
def ofList (entries : List (κ × α)) : SortedMap κ α :=
  entries.foldl (fun m p => m.insert p.1 p.2) empty

/-- Changes every value, knowing its key. -/
def mapEntries (f : κ → α → β) (m : SortedMap κ α) : SortedMap κ β :=
  ⟨m.entries.map (fun p => (p.1, f p.1 p.2)), List.pairwise_map.2 m.sorted⟩

/-- Changes the value at one key, if there is one. -/
def modify (m : SortedMap κ α) (k : κ) (f : α → α) : SortedMap κ α :=
  m.mapEntries (fun k' a => if k' = k then f a else a)

/-- Changes or drops the values of a sorted entry list. -/
def chooseEntries (f : κ → α → Option β) : List (κ × α) → List (κ × β)
  | [] => []
  | (k, a) :: rest =>
    match f k a with
    | some b => (k, b) :: chooseEntries f rest
    | none => chooseEntries f rest

omit [Ranked κ] [DecidableEq κ] in
theorem mem_chooseEntries {f : κ → α → Option β} {xs : List (κ × α)} {q : κ × β}
    (h : q ∈ chooseEntries f xs) : ∃ p ∈ xs, p.1 = q.1 ∧ f p.1 p.2 = some q.2 := by
  induction xs with
  | nil => simp [chooseEntries] at h
  | cons x rest ih =>
    obtain ⟨k, a⟩ := x
    simp only [chooseEntries] at h
    split at h
    · next b hb =>
      rcases List.mem_cons.1 h with rfl | h
      · exact ⟨(k, a), List.mem_cons_self, rfl, hb⟩
      · obtain ⟨p, hp, he⟩ := ih h
        exact ⟨p, List.mem_cons_of_mem _ hp, he⟩
    · obtain ⟨p, hp, he⟩ := ih h
      exact ⟨p, List.mem_cons_of_mem _ hp, he⟩

/-- Changes every value and keeps the entries whose new value exists. -/
def choose (f : κ → α → Option β) (m : SortedMap κ α) : SortedMap κ β where
  entries := chooseEntries f m.entries
  sorted := by
    have h := m.sorted
    revert h
    induction m.entries with
    | nil => intro _; exact .nil
    | cons x rest ih =>
      intro h
      obtain ⟨k, a⟩ := x
      have hrest := List.pairwise_cons.1 h
      simp only [chooseEntries]
      split
      · refine List.pairwise_cons.2 ⟨fun q hq => ?_, ih hrest.2⟩
        obtain ⟨p, hp, he, _⟩ := mem_chooseEntries hq
        exact he ▸ hrest.1 p hp
      · exact ih hrest.2

section Laws

@[simp] theorem find?_empty (k : κ) : (empty : SortedMap κ α).find? k = none := rfl

theorem lookup_place (k k' : κ) (a : α) (xs : List (κ × α)) :
    lookup k' (place k a xs) = if k = k' then some a else lookup k' xs := by
  induction xs with
  | nil => simp [place, lookup]
  | cons x rest ih =>
    obtain ⟨k₀, a₀⟩ := x
    simp only [place]
    split
    · simp [lookup]
    · split
      · next he =>
        subst he
        by_cases h : k₀ = k' <;> simp [lookup, h]
      · next he =>
        simp only [lookup, ih]
        by_cases h₀ : k₀ = k'
        · subst h₀
          simp [Ne.symm he]
        · simp [h₀]

/-- After an insertion a key has the new value or, being another key, its old one. -/
@[simp] theorem find?_insert (m : SortedMap κ α) (k k' : κ) (a : α) :
    (m.insert k a).find? k' = if k = k' then some a else m.find? k' :=
  lookup_place k k' a m.entries

omit [Ranked κ] in
theorem lookup_filter_ne (k k' : κ) (xs : List (κ × α)) :
    lookup k' (xs.filter (fun p => p.1 ≠ k)) = if k = k' then none else lookup k' xs := by
  induction xs with
  | nil => simp [lookup]
  | cons x rest ih =>
    obtain ⟨k₀, a₀⟩ := x
    by_cases h : k₀ = k
    · subst h
      simp only [ne_eq, not_true_eq_false, decide_false, Bool.false_eq_true, not_false_eq_true,
        List.filter_cons_of_neg, lookup]
      rw [ih]
      by_cases hk : k₀ = k' <;> simp [hk]
    · simp only [ne_eq, h, not_false_eq_true, decide_true, List.filter_cons_of_pos, lookup]
      rw [ih]
      by_cases hk : k₀ = k'
      · subst hk
        simp [Ne.symm h]
      · simp [hk]

/-- An erased key has no value, and other keys keep theirs. -/
@[simp] theorem find?_erase (m : SortedMap κ α) (k k' : κ) :
    (m.erase k).find? k' = if k = k' then none else m.find? k' :=
  lookup_filter_ne k k' m.entries

@[simp] theorem find?_mapEntries (f : κ → α → β) (m : SortedMap κ α) (k : κ) :
    (m.mapEntries f).find? k = (m.find? k).map (f k) := by
  simp only [find?, mapEntries]
  induction m.entries with
  | nil => rfl
  | cons x rest ih =>
    obtain ⟨k₀, a₀⟩ := x
    by_cases h : k₀ = k
    · subst h
      simp [lookup]
    · simp [lookup, h, ih]

theorem lookup_eq_none_of_before {k : κ} {xs : List (κ × α)}
    (h : ∀ p ∈ xs, Ranked.before k p.1) : lookup k xs = none := by
  induction xs with
  | nil => rfl
  | cons x rest ih =>
    obtain ⟨k₀, a₀⟩ := x
    have hk : k₀ ≠ k := by
      rintro rfl
      simpa [Ranked.before_irrefl] using h (k₀, a₀) List.mem_cons_self
    simp [lookup, hk, ih fun p hp => h p (List.mem_cons_of_mem _ hp)]

theorem entries_eq_of_lookup {xs ys : List (κ × α)}
    (hx : xs.Pairwise (fun p q => Ranked.before p.1 q.1))
    (hy : ys.Pairwise (fun p q => Ranked.before p.1 q.1))
    (h : ∀ k, lookup k xs = lookup k ys) : xs = ys := by
  induction xs generalizing ys with
  | nil =>
    cases ys with
    | nil => rfl
    | cons y rest => simpa [lookup] using h y.1
  | cons x xs ih =>
    obtain ⟨k, a⟩ := x
    have hx' := List.pairwise_cons.1 hx
    cases ys with
    | nil => simpa [lookup] using h k
    | cons y ys =>
      obtain ⟨k', a'⟩ := y
      have hy' := List.pairwise_cons.1 hy
      have hkk : k = k' := by
        apply Ranked.eq_of_not_before
        · cases hb : Ranked.before k k' with
          | false => rfl
          | true =>
            have hnone : lookup k ((k', a') :: ys) = none := by
              apply lookup_eq_none_of_before
              intro p hp
              rcases List.mem_cons.1 hp with rfl | hp
              · exact hb
              · exact Ranked.before_trans hb (hy'.1 p hp)
            have hk := h k
            rw [hnone] at hk
            simp [lookup] at hk
        · cases hb : Ranked.before k' k with
          | false => rfl
          | true =>
            have hnone : lookup k' ((k, a) :: xs) = none := by
              apply lookup_eq_none_of_before
              intro p hp
              rcases List.mem_cons.1 hp with rfl | hp
              · exact hb
              · exact Ranked.before_trans hb (hx'.1 p hp)
            have hk := h k'
            rw [hnone] at hk
            simp [lookup] at hk
      subst hkk
      have haa : a = a' := by simpa [lookup] using h k
      subst haa
      have hrest : xs = ys := by
        apply ih hx'.2 hy'.2
        intro k₀
        by_cases hk : k = k₀
        · subst hk
          rw [lookup_eq_none_of_before (fun p hp => hx'.1 p hp),
            lookup_eq_none_of_before (fun p hp => hy'.1 p hp)]
        · simpa [lookup, hk] using h k₀
      rw [hrest]

/-- A map is determined by its look-ups. -/
theorem ext_find? {m₁ m₂ : SortedMap κ α} (h : ∀ k, m₁.find? k = m₂.find? k) : m₁ = m₂ := by
  cases m₁ with
  | mk xs hx =>
    cases m₂ with
    | mk ys hy =>
      have : xs = ys := entries_eq_of_lookup hx hy h
      subst this
      rfl

end Laws

end SortedMap

end CardGame
