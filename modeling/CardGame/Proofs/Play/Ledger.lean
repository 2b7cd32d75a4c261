import CardGame.Proofs.Play.Account
import CardGame.Proofs.Resolve.Action
import Mathlib.Data.List.Nodup
import Mathlib.Data.List.Perm.Basic

/-!
What the events tell of the floating effects. From what was known of them (`Ledger`) the events tell
which there are afterwards: those created are added, those expired are taken out. One more thing has
to be concluded, for nothing is told of it: an effect all of whose objects have left the battlefield
is gone. `Ledger.balance` is the account of it: what was there and what was created is still there,
has expired or is gone untold.
-/

namespace CardGame

/-- What one who listens to the events knows of the floating effects: which there are, what each
affects, and the number that the next one gets. -/
@[ext] structure Ledger where
  entries : List (FloatingId × SortedSet ObjectId)
  next : Nat

namespace Event

/-- The object that an event takes off the battlefield. -/
def departed? : Event → Option ObjectId
  | .zoneChanged o origin target =>
    if origin.kind = .battlefield ∧ target.kind ≠ .battlefield then some o else none
  | _ => none

def created? : Event → Option FloatingId
  | .floatingCreated id _ _ => some id
  | _ => none

def expired? : Event → Option FloatingId
  | .floatingExpired id => some id
  | _ => none

end Event

namespace Ledger

variable {l l' l'' : Ledger} {e : Event} {es : List Event}

/-- The floating effects that there are. -/
def ids (l : Ledger) : List FloatingId := l.entries.map (·.1)

/-- A floating effect without an object that has left the battlefield, if it affects another. -/
def release (o : ObjectId) (entry : FloatingId × SortedSet ObjectId) :
    Option (FloatingId × SortedSet ObjectId) :=
  if entry.2.contains o then
    if (entry.2.erase o).isEmpty then none else some (entry.1, entry.2.erase o)
  else some entry

/-- The ledger after an event, if the event fits what was known. -/
def after (l : Ledger) (e : Event) : Option Ledger :=
  match e with
  | .floatingCreated id _ affected =>
    if id.val = l.next then some ⟨l.entries ++ [(id, .ofList affected)], l.next + 1⟩ else none
  | .floatingExpired id =>
    if id ∈ l.ids then some { l with entries := l.entries.filter (·.1 ≠ id) } else none
  | e =>
    match e.departed? with
    | some o => some { l with entries := l.entries.filterMap (release o) }
    | none => some l

/-- The ledger after some events, if every one of them fits. -/
def replay (l : Ledger) (es : List Event) : Option Ledger := es.foldlM after l

/-- The floating effects of which an event leaves no object. -/
def forsakenBy (l : Ledger) (e : Event) : List FloatingId :=
  match e.departed? with
  | some o => (l.entries.filter fun entry => (release o entry).isNone).map (·.1)
  | none => []

/-- The floating effects of which some events leave no object. -/
def forsaken : Ledger → List Event → List FloatingId
  | _, [] => []
  | l, e :: rest =>
    l.forsakenBy e ++ match l.after e with
      | some l' => l'.forsaken rest
      | none => []

/-- Floating effects are numbered in ascending order. -/
structure Ordered (l : Ledger) : Prop where
  numbered : l.entries.Pairwise fun a b => a.1.val < b.1.val
  issued : ∀ a ∈ l.entries, a.1.val < l.next

theorem fst_of_release {o : ObjectId} {a b : FloatingId × SortedSet ObjectId}
    (h : release o a = some b) : b.1 = a.1 := by
  unfold release at h
  split at h
  · split at h <;> cases h
    rfl
  · cases h
    rfl

theorem after_zoneChanged (l : Ledger) (o : ObjectId) (origin target : Zone) :
    l.after (.zoneChanged o origin target) =
      if origin.kind = .battlefield ∧ target.kind ≠ .battlefield then
        some { l with entries := l.entries.filterMap (release o) }
      else some l := by
  simp only [after, Event.departed?]
  by_cases hleaves : origin.kind = .battlefield ∧ target.kind ≠ .battlefield
  · simp only [if_pos hleaves]
  · simp only [if_neg hleaves]

/-- What an event can tell of the floating effects. -/
theorem after_cases (h : l.after e = some l') :
    (∃ id m affected, e = .floatingCreated id m affected ∧ id.val = l.next ∧
      l' = ⟨l.entries ++ [(id, .ofList affected)], l.next + 1⟩) ∨
    (∃ id, e = .floatingExpired id ∧ id ∈ l.ids ∧
      l' = { l with entries := l.entries.filter (·.1 ≠ id) }) ∨
    (e.created? = none ∧ e.expired? = none ∧ ∃ o, e.departed? = some o ∧
      l' = { l with entries := l.entries.filterMap (release o) }) ∨
    (e.created? = none ∧ e.expired? = none ∧ e.departed? = none ∧ l' = l) := by
  unfold after at h
  split at h
  · next id m affected =>
    split at h
    · next hid =>
      cases h
      exact .inl ⟨id, m, affected, rfl, hid, rfl⟩
    · cases h
  · next id =>
    split at h
    · next hid =>
      cases h
      exact .inr (.inl ⟨id, rfl, hid, rfl⟩)
    · cases h
  · next hcreated hexpired =>
    have hnone : e.created? = none ∧ e.expired? = none := by
      cases e with
      | floatingCreated id m affected => exact (hcreated id m affected rfl).elim
      | floatingExpired id => exact (hexpired id rfl).elim
      | _ => exact ⟨rfl, rfl⟩
    split at h
    · next o hdeparted =>
      cases h
      exact .inr (.inr (.inl ⟨hnone.1, hnone.2, o, hdeparted, rfl⟩))
    · next hdeparted =>
      cases h
      exact .inr (.inr (.inr ⟨hnone.1, hnone.2, hdeparted, rfl⟩))

theorem Ordered.after (h : l.Ordered) (he : l.after e = some l') : l'.Ordered := by
  obtain ⟨id, m, affected, rfl, hid, rfl⟩ | ⟨id, rfl, -, rfl⟩ | ⟨-, -, o, -, rfl⟩ |
    ⟨-, -, -, rfl⟩ := after_cases he
  · constructor
    · refine List.pairwise_append.mpr ⟨h.numbered, List.pairwise_singleton _ _, ?_⟩
      intro a ha b hb
      rw [List.mem_singleton.mp hb]
      exact hid ▸ h.issued a ha
    · intro a ha
      rcases List.mem_append.mp ha with hold | hnew
      · exact Nat.lt_succ_of_lt (h.issued a hold)
      · rw [List.mem_singleton.mp hnew]
        exact hid ▸ Nat.lt_succ_self _
  · exact ⟨h.numbered.filter _, fun a ha => h.issued a (List.mem_of_mem_filter ha)⟩
  · constructor
    · refine List.Pairwise.filterMap _ ?_ h.numbered
      intro a b hlt a' ha b' hb
      rwa [fst_of_release ha, fst_of_release hb]
    · intro b hb
      obtain ⟨a, ha, hrelease⟩ := List.mem_filterMap.mp hb
      rw [fst_of_release hrelease]
      exact h.issued a ha
  · exact h

theorem Ordered.nodup_ids (h : l.Ordered) : l.ids.Nodup := by
  refine List.pairwise_map.mpr (h.numbered.imp ?_)
  intro a b hlt heq
  rw [heq] at hlt
  exact Nat.lt_irrefl _ hlt

theorem ids_filter_ne (id : FloatingId) :
    ids { l with entries := l.entries.filter (·.1 ≠ id) } = l.ids.filter (· ≠ id) := by
  unfold ids
  rw [List.filter_map]
  rfl

/-- Whoever leaves the battlefield leaves some effects as they are and others without an object. -/
theorem perm_release (o : ObjectId) (entries : List (FloatingId × SortedSet ObjectId)) :
    (entries.map (·.1)).Perm ((entries.filterMap (release o)).map (·.1) ++
      (entries.filter fun entry => (release o entry).isNone).map (·.1)) := by
  induction entries with
  | nil => exact .nil
  | cons a rest ih =>
    cases hrelease : release o a with
    | none =>
      rw [List.filterMap_cons_none hrelease, List.filter_cons_of_pos (by rw [hrelease]; rfl)]
      exact (ih.cons _).trans List.perm_middle.symm
    | some b =>
      rw [List.filterMap_cons_some hrelease, List.filter_cons_of_neg (by rw [hrelease]; simp),
        List.map_cons, List.map_cons, fst_of_release hrelease]
      exact ih.cons _

/-- The account of one event. -/
theorem balance_after (h : l.Ordered) (he : l.after e = some l') :
    (l.ids ++ e.created?.toList).Perm (l'.ids ++ e.expired?.toList ++ l.forsakenBy e) := by
  obtain ⟨id, m, affected, rfl, hid, rfl⟩ | ⟨id, rfl, hthere, rfl⟩ |
    ⟨hcreated, hexpired, o, hdeparted, rfl⟩ | ⟨hcreated, hexpired, hdeparted, rfl⟩ :=
    after_cases he
  · have hids : ids ⟨l.entries ++ [(id, .ofList affected)], l.next + 1⟩ = l.ids ++ [id] :=
      List.map_append
    rw [hids]
    simp [Event.created?, Event.expired?, forsakenBy, Event.departed?]
  · rw [ids_filter_ne]
    have herase : l.ids.erase id = l.ids.filter (· ≠ id) := by
      rw [h.nodup_ids.erase_eq_filter]
      exact List.filter_congr fun _ _ => by rw [decide_not, bne, beq_eq_decide]
    rw [← herase]
    simp only [Event.created?, Event.expired?, forsakenBy, Event.departed?, Option.toList_none,
      Option.toList_some, List.append_nil]
    exact (List.perm_cons_erase hthere).trans (List.perm_append_singleton _ _).symm
  · rw [hcreated, hexpired, forsakenBy, hdeparted, Option.toList_none, List.append_nil,
      List.append_nil]
    exact perm_release o l.entries
  · rw [hcreated, hexpired, forsakenBy, hdeparted, Option.toList_none, List.append_nil,
      List.append_nil]

theorem replay_cons (l : Ledger) (e : Event) (es : List Event) :
    l.replay (e :: es) = (l.after e).bind fun l' => l'.replay es :=
  List.foldlM_cons

theorem replay_singleton (l : Ledger) (e : Event) : l.replay [e] = l.after e := by
  rw [replay_cons]
  exact Option.bind_fun_some _

theorem replay_cons_eq_some (h : l.replay (e :: es) = some l'') :
    ∃ l', l.after e = some l' ∧ l'.replay es = some l'' := by
  rw [replay_cons] at h
  exact Option.bind_eq_some_iff.mp h

theorem Ordered.replay (h : l.Ordered) (hes : l.replay es = some l') : l'.Ordered := by
  induction es generalizing l with
  | nil =>
    cases hes
    exact h
  | cons e rest ih =>
    obtain ⟨l₁, he, hrest⟩ := replay_cons_eq_some hes
    exact ih (h.after he) hrest

theorem filterMap_cons_toList {α β : Type} (f : α → Option β) (a : α) (as : List α) :
    (a :: as).filterMap f = (f a).toList ++ as.filterMap f := by
  cases h : f a with
  | none => rw [List.filterMap_cons_none h]; rfl
  | some b => rw [List.filterMap_cons_some h]; rfl

/-- The numbers are given out one by one. -/
theorem created_replay (hes : l.replay es = some l') :
    (es.filterMap Event.created?).map (·.val) =
      List.range' l.next (es.filterMap Event.created?).length := by
  induction es generalizing l with
  | nil => rfl
  | cons e rest ih =>
    obtain ⟨l₁, he, hrest⟩ := replay_cons_eq_some hes
    have hlater := ih hrest
    rw [filterMap_cons_toList]
    obtain ⟨id, m, affected, rfl, hid, rfl⟩ | ⟨id, rfl, -, rfl⟩ | ⟨hcreated, -, o, -, rfl⟩ |
      ⟨hcreated, -, -, rfl⟩ := after_cases he
    · rw [List.map_append, hlater]
      simp [Event.created?, hid, List.range'_succ]
    · exact hlater
    · rw [hcreated]
      exact hlater
    · rw [hcreated]
      exact hlater

/-- The account of all events: what was there and what was created is still there, has expired or is
without an object. -/
theorem balance (h : l.Ordered) (hes : l.replay es = some l') :
    (l.ids ++ es.filterMap Event.created?).Perm
      (l'.ids ++ es.filterMap Event.expired? ++ l.forsaken es) := by
  induction es generalizing l with
  | nil =>
    cases hes
    simp [forsaken]
  | cons e rest ih =>
    obtain ⟨l₁, he, hrest⟩ := replay_cons_eq_some hes
    have hfirst := balance_after h he
    have hlater := ih (h.after he) hrest
    rw [filterMap_cons_toList, filterMap_cons_toList, forsaken, he]
    rw [List.perm_iff_count] at hfirst hlater ⊢
    intro id
    have hfirst := hfirst id
    have hlater := hlater id
    simp only [List.count_append] at hfirst hlater ⊢
    omega

theorem nodup_created (h : l.Ordered) (hes : l.replay es = some l') :
    (l.ids ++ es.filterMap Event.created?).Nodup := by
  have hcreated := created_replay hes
  refine List.nodup_append.mpr ⟨h.nodup_ids, ?_, ?_⟩
  · refine List.Nodup.of_map (·.val) ?_
    rw [hcreated]
    exact List.nodup_range'
  · rintro id hid _ hnew rfl
    obtain ⟨a, ha, rfl⟩ := List.mem_map.mp hid
    have hval : a.1.val ∈ (es.filterMap Event.created?).map (·.val) := List.mem_map_of_mem hnew
    rw [hcreated] at hval
    exact Nat.lt_irrefl _ (Nat.lt_of_lt_of_le (h.issued a ha) (List.mem_range'_1.mp hval).1)

/-- What is still there, has expired and is without an object are three different things. -/
theorem nodup_balance (h : l.Ordered) (hes : l.replay es = some l') :
    (l'.ids ++ es.filterMap Event.expired? ++ l.forsaken es).Nodup :=
  (balance h hes).nodup_iff.mp (nodup_created h hes)

/-- Without objects are only effects of which an object has left the battlefield. -/
theorem forsaken_eq_nil (h : ∀ e ∈ es, e.departed? = none) : l.forsaken es = [] := by
  induction es generalizing l with
  | nil => rfl
  | cons e rest ih =>
    have hfirst : l.forsakenBy e = [] := by rw [forsakenBy, h e List.mem_cons_self]
    rw [forsaken, hfirst, List.nil_append]
    split
    · exact ih fun e' he' => h e' (List.mem_cons_of_mem _ he')
    · rfl

/-- Which floating effects there are after some events. -/
theorem mem_ids_replay (h : l.Ordered) (hes : l.replay es = some l') (id : FloatingId) :
    id ∈ l'.ids ↔ (id ∈ l.ids ∨ id ∈ es.filterMap Event.created?) ∧
      id ∉ es.filterMap Event.expired? ∧ id ∉ l.forsaken es := by
  have hnodup := nodup_balance h hes
  rw [List.append_assoc] at hnodup
  have hapart := (List.nodup_append.mp hnodup).2.2
  have hmem := (balance h hes).mem_iff (a := id)
  simp only [List.mem_append] at hmem hapart
  constructor
  · intro hid
    refine ⟨hmem.mpr (.inl (.inl hid)), ?_, ?_⟩
    · exact fun hexpired => hapart id hid id (.inl hexpired) rfl
    · exact fun hforsaken => hapart id hid id (.inr hforsaken) rfl
  · rintro ⟨hold, hexpired, hforsaken⟩
    rcases hmem.mp hold with (hid | hid) | hid
    · exact hid
    · exact absurd hid hexpired
    · exact absurd hid hforsaken

end Ledger

namespace Game

variable {g g' : Game} {es : List Event}

/-- What is to be known of the floating effects. -/
def ledger (g : Game) : Ledger where
  entries := g.floating.map fun e => (e.id, e.affected)
  next := g.nextFloating

theorem ids_ledger (g : Game) : g.ledger.ids = g.floating.map (·.id) := List.map_map

theorem ordered_ledger {there : ObjectId → Bool}
    (h : Orderly there g.nextFloating g.floating) : g.ledger.Ordered where
  numbered := List.pairwise_map.mpr h.numbered
  issued := by
    intro a ha
    obtain ⟨e, he, rfl⟩ := List.mem_map.mp ha
    exact h.issued e he

theorem numbered_of_ordered (h : g.ledger.Ordered) :
    g.floating.Pairwise fun e f => e.id.val < f.id.val := by
  simpa only [ledger, List.pairwise_map] using h.numbered

theorem ledger_leaveBattlefield (o : ObjectId) : (g.leaveBattlefield o).ledger =
    { g.ledger with entries := g.ledger.entries.filterMap (Ledger.release o) } := by
  have hrelease (e : FloatingEffect) : (releaseFrom o e).map (fun e => (e.id, e.affected)) =
      Ledger.release o (e.id, e.affected) := by
    unfold releaseFrom Ledger.release
    split
    · split <;> rfl
    · rfl
  rw [leaveBattlefield_frame, ledger, ledger, Ledger.mk.injEq]
  refine ⟨?_, rfl⟩
  rw [List.map_filterMap, List.filterMap_map]
  exact List.filterMap_congr fun e _ => hrelease e

/-- A move is known from its events. -/
theorem ledger_move {o : ObjectId} {target origin : Zone} {p : Position} {controller : Option Seat}
    (h : move o target p controller g = .ok origin g') :
    g.ledger.after (.zoneChanged o origin target) = some g'.ledger := by
  rw [Ledger.after_zoneChanged]
  obtain ⟨zones, -, ⟨hfrom, hto, rfl⟩ | ⟨hsame, rfl⟩ | ⟨hfrom, hto, henter⟩⟩ := move_eq_ok h
  · rw [if_pos ⟨hfrom, hto⟩, ledger_leaveBattlefield]
    rfl
  · rw [if_neg fun hleaves => hleaves.2 (hsame.mp hleaves.1)]
    rfl
  · rw [if_neg fun hleaves => hfrom hleaves.1, enterBattlefield_eq_ok henter]
    rfl

/-- Effects that end one after the other are taken out. -/
theorem replay_expired {l : Ledger} (h : l.Ordered) {gone : List FloatingId}
    (hthere : gone ⊆ l.ids) (hnodup : gone.Nodup) :
    l.replay (gone.map .floatingExpired) =
      some { l with entries := l.entries.filter (·.1 ∉ gone) } := by
  induction gone generalizing l with
  | nil =>
    refine congrArg some ?_
    simp
  | cons id rest ih =>
    obtain ⟨hid, hrest⟩ := List.cons_subset.mp hthere
    obtain ⟨hfirst, hothers⟩ := List.nodup_cons.mp hnodup
    have hafter : l.after (.floatingExpired id) =
        some { l with entries := l.entries.filter (·.1 ≠ id) } := if_pos hid
    have hleft : rest ⊆ Ledger.ids { l with entries := l.entries.filter (·.1 ≠ id) } := by
      intro id' hid'
      rw [Ledger.ids_filter_ne, List.mem_filter]
      refine ⟨hrest hid', decide_eq_true ?_⟩
      rintro rfl
      exact hfirst hid'
    rw [List.map_cons, Ledger.replay_cons, hafter, Option.bind_some,
      ih (h.after hafter) hleft hothers]
    simp [List.filter_filter, Bool.and_comm]

theorem replay_expire (h : g.ledger.Ordered) (keep : FloatingEffect → Bool) :
    g.ledger.replay (g.expire keep).2 = some (g.expire keep).1.ledger := by
  let ended := g.floating.filter (!keep ·)
  have hgone : (g.expire keep).2 = (ended.map (·.id)).map .floatingExpired :=
    List.map_map.symm
  have hids : (ended.map (·.id)).Sublist g.ledger.ids := by
    rw [ids_ledger]
    exact List.filter_sublist.map _
  rw [hgone, replay_expired h hids.subset (hids.nodup h.nodup_ids)]
  refine congrArg some ?_
  rw [ledger, ledger, Ledger.mk.injEq]
  refine ⟨?_, rfl⟩
  rw [List.filter_map]
  refine congrArg (List.map _) (List.filter_congr fun e he => ?_)
  -- an identity belongs to one effect only, so going by identity is going by effect
  have hended : e.id ∈ ended.map (·.id) ↔ e ∈ ended := by
    refine ⟨fun hid => ?_, fun he' => List.mem_map_of_mem he'⟩
    obtain ⟨e', he', hid⟩ := List.mem_map.mp hid
    have hsame : e' = e :=
      List.inj_on_of_nodup_map (ids_ledger g ▸ h.nodup_ids) (List.mem_of_mem_filter he') he hid
    exact hsame ▸ he'
  have hmem : e ∈ ended ↔ keep e = false := by
    simp [ended, he]
  change decide (e.id ∉ ended.map (·.id)) = keep e
  rw [Bool.eq_iff_iff, decide_eq_true_iff, hended, hmem, Bool.not_eq_false]

/-- What every deed does to the floating effects is known from the events told of it. -/
theorem Deed.replay_ledger (h : Deed g es g') (hordered : g.ledger.Ordered) :
    g.ledger.replay es = some g'.ledger := by
  cases h with
  | announce h =>
    rename_i e
    rw [Ledger.replay_singleton]
    cases e <;> first | rfl | cases h
  | move h =>
    rw [Ledger.replay_cons, ledger_move h, Option.bind_some]
    split <;> rfl
  | tap huntapped h | mark h | addCounters h =>
    obtain ⟨-, rfl⟩ := setFacet_eq_ok h
    rfl
  | untap o => split <;> rfl
  | heal o =>
    rw [eraseFacets_frame]
    rfl
  | removeCounters kind n hbefore h =>
    have hledger : g'.ledger = g.ledger := by
      split at h
      · rw [h]
        rfl
      · obtain ⟨-, rfl⟩ := setFacet_eq_ok h
        rfl
    rw [hledger]
    split <;> rfl
  | life h =>
    obtain ⟨poison, rfl⟩ := setLife_eq_ok h
    rfl
  | float change affected duration source controller =>
    have hlist : SortedSet.ofList affected.toList = affected :=
      SortedSet.ext_contains fun o => by
        rw [SortedSet.contains_ofList, Bool.eq_iff_iff, decide_eq_true_iff,
          SortedSet.mem_toList_iff]
    have hafter : g.ledger.after (.floatingCreated ⟨g.nextFloating⟩ change affected.toList) = _ :=
      if_pos rfl
    rw [Ledger.replay_singleton, hafter, hlist]
    simp [ledger, addFloating]
  | unfloat he =>
    rename_i e
    have hthere : e.id ∈ g.ledger.ids := by
      rw [ids_ledger]
      exact List.mem_map_of_mem he
    have hafter : g.ledger.after (.floatingExpired e.id) = _ := if_pos hthere
    rw [Ledger.replay_singleton, hafter]
    refine congrArg some ?_
    rw [removeFloating, Resolve.eraseP_eq_filter e.id (numbered_of_ordered hordered), ledger,
      List.filter_map]
    rfl
  | expire keep => exact replay_expire hordered keep
  | create hspawn h =>
    obtain ⟨-, rfl⟩ := setFacet_eq_ok h
    obtain ⟨rfl, zones, hadd, ⟨-, rfl⟩ | ⟨-, henter⟩⟩ := spawn_eq_ok hspawn
    · rfl
    · rw [enterBattlefield_eq_ok henter]
      rfl
  | _ => rfl

/-- What a course of deeds does to the floating effects is known from the events told of it. -/
theorem Deeds.replay_ledger (h : Deeds g es g') (hordered : g.ledger.Ordered) :
    g.ledger.replay es = some g'.ledger := by
  refine h.replays (I := fun g => g.ledger.Ordered) ?_ hordered
  intro g g' es hdeed hordered
  have hreplay := hdeed.replay_ledger hordered
  exact ⟨hreplay, hordered.replay hreplay⟩

/-- The account of the floating effects that events give between two games. -/
structure Accounts (g : Game) (es : List Event) (g' : Game) : Prop where
  replays : g.ledger.replay es = some g'.ledger
  /-- What is there was there or has been created, has not expired and still has an object. -/
  remaining : ∀ id, id ∈ g'.floating.map (·.id) ↔
    (id ∈ g.floating.map (·.id) ∨ id ∈ es.filterMap Event.created?) ∧
      id ∉ es.filterMap Event.expired? ∧ id ∉ g.ledger.forsaken es
  once : (es.filterMap Event.expired?).Nodup
  /-- As long as nothing leaves the battlefield, what has not expired is there. -/
  staying : (∀ e ∈ es, e.departed? = none) → ∀ id, id ∈ g'.floating.map (·.id) ↔
    (id ∈ g.floating.map (·.id) ∨ id ∈ es.filterMap Event.created?) ∧
      id ∉ es.filterMap Event.expired?

theorem Deeds.accounts (h : Deeds g es g') (hordered : g.ledger.Ordered) : Accounts g es g' := by
  have hreplay := h.replay_ledger hordered
  have hremaining := Ledger.mem_ids_replay hordered hreplay
  rw [ids_ledger, ids_ledger] at hremaining
  constructor
  · exact hreplay
  · exact hremaining
  · have hdistinct := Ledger.nodup_balance hordered hreplay
    exact (List.nodup_append.mp (List.nodup_append.mp hdistinct).1).2.1
  · intro hstays id
    rw [hremaining, Ledger.forsaken_eq_nil hstays]
    simp

/-- Whatever is executed and whatever is answered, the events account for every floating effect that
has not lost all its objects: what was there or has been created is there unless it has expired, and
nothing expires twice. -/
theorem Reachable.floatingAccounted (h : g.Reachable) (rules : Rules) :
    (∀ e ctx, g.Accounts (rules.execute g e ctx).events (rules.execute g e ctx).game) ∧
    ∀ r, g.Accounts (rules.resume g r).events (rules.resume g r).game := by
  have hordered := ordered_ledger h.sound.orderly
  exact ⟨fun e ctx => (rules.deeds_execute g e ctx).accounts hordered,
    fun r => (rules.deeds_resume h r).accounts hordered⟩

/-- A shield that is spent has expired, and the bonus stays. -/
theorem floatingAccounted_of_regenerated : ∃ g₀ g r, start {} = .ok g₀ ∧
    g = (Move.execute {} (.pumpTarget 1 1) { targets := [⟨2⟩] }).apply
      ((Move.spawn (.creature ⟨7⟩ "Bear" 2 2) ⟨0⟩ .battlefield).apply g₀) ∧
    r = Rules.execute {} g (.composite [.continuous (.regenerate (.target 0)), .destroyTarget])
      { targets := [⟨2⟩] } ∧
    g.floating.map (·.id) = [⟨1⟩] ∧ r.events.filterMap Event.created? = [⟨2⟩] ∧
    r.events.filterMap Event.expired? = [⟨2⟩] ∧
    ∀ id, id ∈ r.game.floating.map (·.id) ↔
      (id ∈ [(⟨1⟩ : FloatingId)] ∨ id ∈ [(⟨2⟩ : FloatingId)]) ∧ id ∉ [(⟨2⟩ : FloatingId)] := by
  have hspawned {g : Game} (hs : 0 < g.seats) (h : g.Reachable) :
      ((Move.spawn (.creature ⟨7⟩ "Bear" 2 2) ⟨0⟩ .battlefield).apply g).Reachable := .move _ h hs
  have hpumped := Reachable.move (.execute {} (.pumpTarget 1 1) { targets := [⟨2⟩] })
    (hspawned Nat.zero_lt_two (.start (s := {}) rfl)) trivial
  refine ⟨_, _, _, rfl, rfl, rfl, by decide +kernel, by decide +kernel, by decide +kernel, ?_⟩
  exact ((Reachable.floatingAccounted hpumped {}).1 _ _).staying (by decide +kernel)

/-- The bonus of a creature that is destroyed is gone, and nothing is told of it. -/
theorem not_floatingAccounted_after_destroyed :
    ¬ ∀ (g : Game) (rules : Rules) (e : Effect) (ctx : Context), g.Reachable → ∀ id,
      id ∈ (rules.execute g e ctx).game.floating.map (·.id) ↔
      (id ∈ g.floating.map (·.id) ∨ id ∈ (rules.execute g e ctx).events.filterMap Event.created?) ∧
        id ∉ (rules.execute g e ctx).events.filterMap Event.expired? := by
  intro h
  have hspawned {g : Game} (hs : 0 < g.seats) (h : g.Reachable) :
      ((Move.spawn (.creature ⟨7⟩ "Bear" 2 2) ⟨0⟩ .battlefield).apply g).Reachable := .move _ h hs
  have hpumped := Reachable.move (.execute {} (.pumpTarget 1 1) { targets := [⟨2⟩] })
    (hspawned Nat.zero_lt_two (.start (s := {}) rfl)) trivial
  have hdestroyed := h _ {} .destroyTarget { targets := [⟨2⟩] } hpumped ⟨1⟩
  revert hdestroyed
  decide +kernel

end Game

end CardGame
