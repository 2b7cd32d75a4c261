import CardGame.Proofs.Collection
import CardGame.Proofs.Random
import CardGame.Proofs.Seat
import CardGame.Zone.Zones
import Mathlib.Data.List.Perm.Subperm

/-!
The two views of the zones agree. `Zones.Consistent` says that every located object is listed
exactly once, in its own zone, and that nothing else is listed. Every operation that succeeds keeps
it, and it is what `Zones.check` checks.
-/

namespace CardGame

namespace Zones

variable {zs moved rest : Zones} {o : ObjectId} {z origin : Zone} {p : Position}

/-- Whether there is a zone, empty or not. -/
def knows (zs : Zones) (z : Zone) : Bool := zs.contents.contains z

/-- Every located object is listed once, in its zone, and every listed object is located there. -/
structure Consistent (zs : Zones) : Prop where
  listedOnce : ∀ {o : ObjectId} {z : Zone}, zs.zone? o = some z → (zs.objects z).count o = 1
  located : ∀ {o : ObjectId} {z : Zone}, o ∈ zs.objects z → zs.zone? o = some z

theorem Consistent.mem_objects_iff (h : zs.Consistent) :
    o ∈ zs.objects z ↔ zs.zone? o = some z := by
  refine ⟨h.located, fun hzone => ?_⟩
  have hcount := h.listedOnce hzone
  exact List.count_pos_iff.mp (by omega)

/-- How often an object is listed in a zone, for consistent zones. -/
theorem Consistent.count_objects (h : zs.Consistent) (o : ObjectId) (z : Zone) :
    (zs.objects z).count o = if zs.zone? o = some z then 1 else 0 := by
  by_cases hzone : zs.zone? o = some z
  · rw [if_pos hzone, h.listedOnce hzone]
  · rw [if_neg hzone, List.count_eq_zero]
    exact fun hmem => hzone (h.located hmem)

/-- Zones are consistent when each lists what is located in it, once. -/
theorem consistent_of_count
    (h : ∀ o z, (zs.objects z).count o = if zs.zone? o = some z then 1 else 0) :
    zs.Consistent where
  listedOnce {o z} hzone := by rw [h, if_pos hzone]
  located {o z} hmem := by
    have hpos := List.count_pos_iff.mpr hmem
    rw [h] at hpos
    by_cases hzone : zs.zone? o = some z
    · exact hzone
    · rw [if_neg hzone] at hpos
      omega

theorem Consistent.nodup_objects (h : zs.Consistent) (z : Zone) : (zs.objects z).Nodup := by
  rw [List.nodup_iff_count]
  intro o
  rw [h.count_objects]
  split <;> omega

/-- Nothing is listed twice in the zones of a kind. -/
theorem Consistent.nodup_allOf (h : zs.Consistent) (kind : ZoneKind) : (zs.allOf kind).Nodup := by
  refine List.nodup_flatMap.mpr ⟨fun s _ => h.nodup_objects _, (Seat.nodup_all zs.seats).imp ?_⟩
  intro s s' hne o ho ho'
  have hzone := h.located ho
  have hzone' := h.located ho'
  rw [hzone] at hzone'
  cases hzone'
  exact hne rfl

theorem isIn_iff {kind : ZoneKind} :
    zs.isIn o kind = true ↔ ∃ owner, zs.zone? o = some ⟨owner, kind⟩ := by
  unfold isIn
  cases hzone : zs.zone? o with
  | none => simp
  | some z =>
    obtain ⟨owner, kind'⟩ := z
    simp [eq_comm]

theorem count_insertAt (xs : List ObjectId) (o o' : ObjectId) (p : Position) :
    (insertAt xs o p).count o' = xs.count o' + if o = o' then 1 else 0 := by
  have hsplit (n : Nat) : xs.count o' = (xs.take n).count o' + (xs.drop n).count o' := by
    rw [← List.count_append, List.take_append_drop]
  cases p with
  | top => simp [insertAt, List.count_cons]
  | bottom => simp [insertAt, List.count_cons]
  | index n =>
    rw [insertAt, List.count_append, List.count_cons, hsplit n]
    simp only [beq_iff_eq]
    omega

/-- An addition that succeeds puts an object that was nowhere into a zone that exists. -/
theorem add_eq_ok (h : zs.add o z p = .ok moved) :
    zs.zone? o = none ∧ ∃ xs, zs.contents.find? z = some xs ∧
      moved = { zs with
        location := zs.location.insert o z
        contents := zs.contents.insert z (insertAt xs o p) } := by
  unfold add at h
  split at h
  · cases h
  · cases h
  · next xs hnone hxs =>
    cases h
    exact ⟨hnone, xs, hxs, rfl⟩

theorem zone?_add (h : zs.add o z p = .ok moved) (o' : ObjectId) :
    moved.zone? o' = if o = o' then some z else zs.zone? o' := by
  obtain ⟨-, xs, -, rfl⟩ := add_eq_ok h
  simp [zone?]

/-- An object that is somewhere stays there when another is added. -/
theorem zone?_of_add {o' : ObjectId} {z' : Zone} (h : zs.add o z p = .ok moved)
    (hzone : zs.zone? o' = some z') : moved.zone? o' = some z' := by
  rw [zone?_add h, if_neg]
  · exact hzone
  · rintro rfl
    rw [(add_eq_ok h).1] at hzone
    cases hzone

theorem objects_add (h : zs.add o z p = .ok moved) (z' : Zone) :
    moved.objects z' = if z = z' then insertAt (zs.objects z) o p else zs.objects z' := by
  obtain ⟨-, xs, hxs, rfl⟩ := add_eq_ok h
  by_cases hz : z = z'
  · subst hz
    simp [objects, hxs]
  · simp [objects, hz]

theorem knows_of_add (h : zs.add o z p = .ok moved) : zs.knows z = true := by
  obtain ⟨-, xs, hxs, -⟩ := add_eq_ok h
  exact SortedMap.contains_iff.mpr ⟨xs, hxs⟩

theorem knows_add (h : zs.add o z p = .ok moved) (z' : Zone) : moved.knows z' = zs.knows z' := by
  obtain ⟨-, xs, hxs, rfl⟩ := add_eq_ok h
  by_cases hz : z = z'
  · subst hz
    simp [knows, SortedMap.contains, hxs]
  · simp [knows, hz]

/-- An object that is nowhere can be put into any zone that exists. -/
theorem exists_add (hnone : zs.zone? o = none) (hknows : zs.knows z = true) (p : Position) :
    ∃ moved, zs.add o z p = .ok moved := by
  obtain ⟨xs, hxs⟩ := SortedMap.contains_iff.mp hknows
  have hlocation : zs.location.find? o = none := hnone
  refine ⟨{ zs with
    location := zs.location.insert o z
    contents := zs.contents.insert z (insertAt xs o p) }, ?_⟩
  simp only [add, hlocation, hxs]

theorem remove?_eq_some (h : zs.remove? o = some (z, rest)) :
    zs.zone? o = some z ∧
      rest = { zs with
        location := zs.location.erase o
        contents := zs.contents.modify z (·.filter (· ≠ o)) } := by
  unfold remove? at h
  rw [Option.map_eq_some_iff] at h
  obtain ⟨z', hfind, hpair⟩ := h
  cases hpair
  exact ⟨hfind, rfl⟩

theorem zone?_remove (h : zs.remove? o = some (z, rest)) (o' : ObjectId) :
    rest.zone? o' = if o = o' then none else zs.zone? o' := by
  obtain ⟨-, rfl⟩ := remove?_eq_some h
  simp [zone?]

theorem objects_remove (h : zs.remove? o = some (z, rest)) (z' : Zone) :
    rest.objects z' = if z' = z then (zs.objects z').filter (· ≠ o) else zs.objects z' := by
  obtain ⟨-, rfl⟩ := remove?_eq_some h
  by_cases hz : z' = z
  · subst hz
    cases hfind : zs.contents.find? z' <;> simp [objects, hfind]
  · simp [objects, hz]

theorem knows_remove (h : zs.remove? o = some (z, rest)) (z' : Zone) :
    rest.knows z' = zs.knows z' := by
  obtain ⟨-, rfl⟩ := remove?_eq_some h
  simp [knows]

theorem Consistent.add (hcons : zs.Consistent) (h : zs.add o z p = .ok moved) :
    moved.Consistent := by
  have hnone := (add_eq_ok h).1
  apply consistent_of_count
  intro o' z'
  rw [objects_add h, zone?_add h]
  by_cases hz : z = z'
  · subst hz
    rw [if_pos rfl, count_insertAt, hcons.count_objects]
    by_cases ho : o = o'
    · subst ho
      simp [hnone]
    · simp [ho]
  · rw [if_neg hz, hcons.count_objects]
    by_cases ho : o = o'
    · subst ho
      simp [hnone, hz]
    · simp [ho]

theorem Consistent.remove (hcons : zs.Consistent) (h : zs.remove? o = some (z, rest)) :
    rest.Consistent := by
  have hzone := (remove?_eq_some h).1
  apply consistent_of_count
  intro o' z'
  rw [objects_remove h, zone?_remove h]
  by_cases ho : o = o'
  · subst ho
    by_cases hz : z' = z
    · rw [if_pos hz, if_pos rfl]
      simpa using List.count_eq_zero.mpr (by simp)
    · rw [if_neg hz, hcons.count_objects, hzone]
      simp [Ne.symm hz]
  · have hfilter : ((zs.objects z').filter (· ≠ o)).count o' = (zs.objects z').count o' :=
      List.count_filter (by simpa using Ne.symm ho)
    rw [if_neg ho]
    split
    · rw [hfilter, hcons.count_objects]
    · rw [hcons.count_objects]

/-- Taking an object out that is nowhere changes nothing. -/
theorem remove_cases (zs : Zones) (o : ObjectId) :
    (zs.zone? o = none ∧ zs.remove o = zs) ∨ ∃ z, zs.remove? o = some (z, zs.remove o) := by
  unfold remove
  cases hremove : zs.remove? o with
  | none => exact Or.inl ⟨by simpa [remove?, zone?] using hremove, rfl⟩
  | some q => exact Or.inr ⟨q.1, rfl⟩

theorem zone?_remove_eq (zs : Zones) (o o' : ObjectId) :
    (zs.remove o).zone? o' = if o = o' then none else zs.zone? o' := by
  rcases remove_cases zs o with ⟨hnone, heq⟩ | ⟨z, hremove⟩
  · rw [heq]
    split
    · next ho => exact ho ▸ hnone
    · rfl
  · exact zone?_remove hremove o'

theorem knows_remove_eq (zs : Zones) (o : ObjectId) (z : Zone) :
    (zs.remove o).knows z = zs.knows z := by
  rcases remove_cases zs o with ⟨-, heq⟩ | ⟨z', hremove⟩
  · rw [heq]
  · exact knows_remove hremove z

theorem Consistent.remove_eq (hcons : zs.Consistent) (o : ObjectId) :
    (zs.remove o).Consistent := by
  rcases remove_cases zs o with ⟨-, heq⟩ | ⟨z, hremove⟩
  · rw [heq]
    exact hcons
  · exact hcons.remove hremove

/-- A move that succeeds takes the object out and puts it down. -/
theorem move_eq_ok (h : move o z p zs = .ok origin moved) :
    ∃ rest, zs.remove? o = some (origin, rest) ∧ rest.add o z p = .ok moved := by
  unfold move at h
  split at h
  · cases h
  · next origin' rest hremove =>
    split at h
    · next moved' hadd =>
      cases h
      exact ⟨rest, hremove, hadd⟩
    · split at h <;> cases h

theorem Consistent.move (hcons : zs.Consistent) (h : move o z p zs = .ok origin moved) :
    moved.Consistent := by
  obtain ⟨rest, hremove, hadd⟩ := move_eq_ok h
  exact (hcons.remove hremove).add hadd

theorem zone?_move (h : Zones.move o z p zs = .ok origin moved) (o' : ObjectId) :
    moved.zone? o' = if o = o' then some z else zs.zone? o' := by
  obtain ⟨rest, hremove, hadd⟩ := move_eq_ok h
  rw [zone?_add hadd, zone?_remove hremove]
  by_cases ho : o = o' <;> simp [ho]

theorem knows_of_move (h : Zones.move o z p zs = .ok origin moved) : zs.knows z = true := by
  obtain ⟨rest, hremove, hadd⟩ := move_eq_ok h
  rw [← knows_remove hremove]
  exact knows_of_add hadd

theorem knows_move (h : Zones.move o z p zs = .ok origin moved) (z' : Zone) :
    moved.knows z' = zs.knows z' := by
  obtain ⟨rest, hremove, hadd⟩ := move_eq_ok h
  rw [knows_add hadd, knows_remove hremove]

/-- The zone that a move answers is where the object was. -/
theorem zone?_of_move (h : Zones.move o z p zs = .ok origin moved) : zs.zone? o = some origin := by
  obtain ⟨rest, hremove, -⟩ := move_eq_ok h
  exact (remove?_eq_some hremove).1

/-- The zones with the objects of one zone put in another order. -/
def rearrange (zs : Zones) (z : Zone) (order : List ObjectId) : Zones :=
  { zs with contents := zs.contents.insert z order }

theorem Consistent.rearrange {order : List ObjectId} (hcons : zs.Consistent)
    (hperm : (zs.objects z).Perm order) : (zs.rearrange z order).Consistent := by
  apply consistent_of_count
  intro o z'
  have hzone : (zs.rearrange z order).zone? o = zs.zone? o := rfl
  rw [hzone, ← hcons.count_objects o z']
  by_cases hz : z = z'
  · subst hz
    simpa [objects, Zones.rearrange] using (hperm.count_eq o).symm
  · simp [objects, Zones.rearrange, hz]

theorem knows_rearrange {order : List ObjectId} (hknows : zs.knows z = true) (z' : Zone) :
    (zs.rearrange z order).knows z' = zs.knows z' := by
  by_cases hz : z = z'
  · subst hz
    rw [hknows]
    simp [knows, Zones.rearrange]
  · simp [knows, Zones.rearrange, hz]

/-- A reordering that succeeds rearranges a zone that exists. -/
theorem reorder_eq_ok {order : List ObjectId} (h : zs.reorder z order = .ok moved) :
    zs.knows z = true ∧ (zs.objects z).Perm order ∧ moved = zs.rearrange z order := by
  unfold reorder at h
  split at h
  · cases h
  · next xs hxs =>
    split at h
    · next hperm =>
      cases h
      refine ⟨SortedMap.contains_iff.mpr ⟨xs, hxs⟩, ?_, rfl⟩
      simpa [objects, hxs] using List.isPerm_iff.mp hperm
    · cases h

/-- An object that is somewhere can be moved to every zone there is. -/
theorem exists_move (hzone : zs.zone? o = some origin) (hknows : zs.knows z = true)
    (p : Position) : ∃ moved, Zones.move o z p zs = .ok origin moved := by
  obtain ⟨rest, hremove⟩ : ∃ rest, zs.remove? o = some (origin, rest) := by
    have hlocation : zs.location.find? o = some origin := hzone
    rw [remove?, hlocation]
    exact ⟨_, rfl⟩
  have hnone : rest.zone? o = none := by rw [zone?_remove hremove, if_pos rfl]
  obtain ⟨moved, hadd⟩ := exists_add hnone ((knows_remove hremove z).trans hknows) p
  refine ⟨moved, ?_⟩
  rw [move, hremove]
  simp only [hadd]

/-- A zone takes on every order of what it lists. -/
theorem exists_reorder {order : List ObjectId} (hknows : zs.knows z = true)
    (hperm : (zs.objects z).Perm order) : zs.reorder z order = .ok (zs.rearrange z order) := by
  obtain ⟨xs, hxs⟩ := SortedMap.contains_iff.mp hknows
  have hlisted : zs.objects z = xs := by rw [objects, hxs, Option.getD_some]
  rw [hlisted] at hperm
  rw [reorder, hxs]
  simp only [List.isPerm_iff.mpr hperm, if_true]
  rfl

/-- Shuffling leaves the zones as they are or rearranges a zone that exists. -/
theorem shuffle_cases (zs : Zones) (z : Zone) (r : Random) :
    zs.shuffle z r = (zs, r) ∨ ∃ order r', zs.knows z = true ∧ (zs.objects z).Perm order ∧
      zs.shuffle z r = (zs.rearrange z order, r') := by
  unfold shuffle
  split
  · exact Or.inl rfl
  · next xs hxs =>
    refine Or.inr ⟨(r.shuffle xs).1, (r.shuffle xs).2, ?_, ?_, rfl⟩
    · exact SortedMap.contains_iff.mpr ⟨xs, hxs⟩
    · simpa [objects, hxs] using (Random.shuffle_perm r xs).symm

theorem seats_add (h : zs.add o z p = .ok moved) : moved.seats = zs.seats := by
  obtain ⟨-, xs, -, rfl⟩ := add_eq_ok h
  rfl

theorem seats_remove (h : zs.remove? o = some (z, rest)) : rest.seats = zs.seats := by
  obtain ⟨-, rfl⟩ := remove?_eq_some h
  rfl

theorem seats_remove_eq (zs : Zones) (o : ObjectId) : (zs.remove o).seats = zs.seats := by
  rcases remove_cases zs o with ⟨-, heq⟩ | ⟨z, hremove⟩
  · rw [heq]
  · exact seats_remove hremove

theorem seats_move (h : Zones.move o z p zs = .ok origin moved) : moved.seats = zs.seats := by
  obtain ⟨rest, hremove, hadd⟩ := move_eq_ok h
  exact (seats_add hadd).trans (seats_remove hremove)

theorem seats_shuffle (zs : Zones) (z : Zone) (r : Random) :
    (zs.shuffle z r).1.seats = zs.seats := by
  unfold shuffle
  split <;> rfl

private theorem objects_of_mem_entries {xs : List ObjectId} (h : (z, xs) ∈ zs.contents.entries) :
    zs.objects z = xs := by
  rw [objects, SortedMap.mem_entries_iff.mp h, Option.getD_some]

private theorem mem_listed_iff : o ∈ zs.contents.values.flatten ↔ ∃ z, o ∈ zs.objects z := by
  simp only [List.mem_flatten, SortedMap.mem_values_iff]
  constructor
  · rintro ⟨xs, ⟨z, hfind⟩, hmem⟩
    exact ⟨z, by simpa [objects, hfind] using hmem⟩
  · rintro ⟨z, hmem⟩
    cases hfind : zs.contents.find? z with
    | none => simp [objects, hfind] at hmem
    | some xs => exact ⟨xs, ⟨z, hfind⟩, by simpa [objects, hfind] using hmem⟩

private theorem Consistent.nodup_listed (h : zs.Consistent) :
    zs.contents.values.flatten.Nodup := by
  rw [List.nodup_flatten]
  constructor
  · intro xs hxs
    obtain ⟨z, hfind⟩ := SortedMap.mem_values_iff.mp hxs
    have hobjects : zs.objects z = xs := by simp [objects, hfind]
    exact hobjects ▸ h.nodup_objects z
  · apply List.pairwise_map.mpr
    apply zs.contents.entries_keys_ne.imp_of_mem
    rintro ⟨z₁, xs₁⟩ ⟨z₂, xs₂⟩ hmem₁ hmem₂ hne o ho₁ ho₂
    -- an object listed under two keys would be located in two zones
    have hzone₁ : zs.zone? o = some z₁ := h.located (objects_of_mem_entries hmem₁ ▸ ho₁)
    have hzone₂ : zs.zone? o = some z₂ := h.located (objects_of_mem_entries hmem₂ ▸ ho₂)
    exact hne (Option.some.inj (hzone₁.symm.trans hzone₂))

private theorem Consistent.listed_perm_located (h : zs.Consistent) :
    zs.contents.values.flatten.Perm zs.location.keys := by
  rw [List.perm_ext_iff_of_nodup h.nodup_listed zs.location.keys_nodup]
  intro o
  rw [mem_listed_iff, SortedMap.mem_keys_iff, SortedMap.contains_iff]
  exact exists_congr fun z => h.mem_objects_iff

private theorem Consistent.checkListed_eq_ok (h : zs.Consistent) (entries : List (ObjectId × Zone))
    (hentries : ∀ q ∈ entries, zs.zone? q.1 = some q.2) :
    zs.checkListed entries = .ok () := by
  induction entries with
  | nil => rfl
  | cons q rest ih =>
    obtain ⟨o, z⟩ := q
    have honce : zs.timesListed o z = 1 := h.listedOnce (hentries (o, z) List.mem_cons_self)
    rw [checkListed, if_pos honce]
    exact ih fun q hq => hentries q (List.mem_cons_of_mem _ hq)

/-- Consistent zones pass the check. -/
theorem Consistent.check_eq_ok (h : zs.Consistent) : zs.check = .ok () := by
  have hlength : zs.contents.values.flatten.length = zs.total := by
    rw [h.listed_perm_located.length_eq, SortedMap.keys, List.length_map]
    rfl
  unfold check
  rw [if_neg (by simpa using hlength)]
  exact h.checkListed_eq_ok _ fun q hq => SortedMap.mem_entries_iff.mp hq

theorem checkListed_eq_ok_iff {entries : List (ObjectId × Zone)} :
    zs.checkListed entries = .ok () ↔ ∀ q ∈ entries, zs.timesListed q.1 q.2 = 1 := by
  induction entries with
  | nil => simp [checkListed]
  | cons q rest ih =>
    obtain ⟨o, z⟩ := q
    rw [checkListed, List.forall_mem_cons, ← ih]
    split
    · next honce => simp [honce]
    · next hnot => simp [hnot]

/-- The listed objects, each with the zone in which it is listed. -/
private def listings (zs : Zones) : List (ObjectId × Zone) :=
  zs.contents.entries.flatMap fun entry => entry.2.map fun o => (o, entry.1)

private theorem mem_listings_iff : (o, z) ∈ zs.listings ↔ o ∈ zs.objects z := by
  unfold listings
  simp only [List.mem_flatMap, List.mem_map, Prod.mk.injEq]
  constructor
  · rintro ⟨⟨z, xs⟩, hentry, o, hmem, rfl, rfl⟩
    exact objects_of_mem_entries hentry ▸ hmem
  · intro hmem
    cases hfind : zs.contents.find? z with
    | none => simp [objects, hfind] at hmem
    | some xs =>
      have hobjects : zs.objects z = xs := by simp [objects, hfind]
      exact ⟨(z, xs), SortedMap.mem_entries_iff.mpr hfind, o, hobjects ▸ hmem, rfl, rfl⟩

private theorem length_listings (zs : Zones) :
    zs.listings.length = zs.contents.values.flatten.length := by
  simp [listings, SortedMap.values, List.length_flatMap, List.length_flatten, Function.comp_def]

/-- Zones that pass the check are consistent. Every located object is listed in its zone, and as
many are listed as located, so that nothing else is listed. -/
theorem consistent_of_check (h : zs.check = .ok ()) : zs.Consistent := by
  unfold check at h
  dsimp only at h
  split at h
  · cases h
  · next hlength =>
    have honce := checkListed_eq_ok_iff.mp h
    have hlisted : zs.location.entries ⊆ zs.listings := by
      rintro ⟨o, z⟩ hentry
      have htimes : (zs.objects z).count o = 1 := honce (o, z) hentry
      exact mem_listings_iff.mpr (List.count_pos_iff.mp (by omega))
    have hnodup : zs.location.entries.Nodup := zs.location.keys_nodup.of_map
    have hlengths : zs.listings.length ≤ zs.location.entries.length := by
      rw [length_listings]
      exact Nat.le_of_eq (not_not.mp hlength)
    have hperm := (hnodup.subperm hlisted).perm_of_length_le hlengths
    constructor
    · intro o z hzone
      exact honce (o, z) (SortedMap.mem_entries_iff.mpr hzone)
    · intro o z hmem
      exact SortedMap.mem_entries_iff.mp (hperm.mem_iff.mpr (mem_listings_iff.mpr hmem))

/-- A new table's zones are consistent, since they list nothing. -/
theorem consistent_empty (seats : Nat) : (empty seats).Consistent := by
  apply consistent_of_count
  intro o z
  have hnothing : (empty seats).objects z = [] := by
    unfold objects
    cases hfind : (empty seats).contents.find? z with
    | none => rfl
    | some xs =>
      have hmem := SortedMap.mem_of_find?_ofList hfind
      simp only [List.mem_flatMap, List.mem_map, Prod.mk.injEq] at hmem
      obtain ⟨owner, -, kind, -, -, rfl⟩ := hmem
      rfl
  rw [hnothing]
  rfl

theorem knows_empty_iff {seats : Nat} :
    (empty seats).knows z = true ↔ z.owner ∈ Seat.all seats := by
  obtain ⟨owner, kind⟩ := z
  rw [knows, empty, SortedMap.contains_ofList_iff]
  simp [ZoneKind.mem_all]

end Zones

end CardGame
