import CardGame.Proofs.Play.Ledger
import CardGame.Proofs.Play.Replay

/-!
What remains of a floating effect while deeds are done. It loses the objects that leave the
battlefield, and is gone with the last of them (`FloatingEffect.without`). As long as it has not
expired, nothing else becomes of it (`Deeds.floatingEffect?_eq`).
-/

namespace CardGame

namespace FloatingEffect

variable {f f' : FloatingEffect} {es : List Event} {o : ObjectId}

/-- What some events leave of a floating effect. -/
def without (es : List Event) (f : FloatingEffect) : Option FloatingEffect :=
  (es.filterMap Event.departed?).foldlM (fun f o => Game.releaseFrom o f) f

theorem without_append (f : FloatingEffect) (es es' : List Event) :
    f.without (es ++ es') = (f.without es).bind (·.without es') := by
  unfold without
  rw [List.filterMap_append, List.foldlM_append]
  rfl

theorem without_of_staying (h : es.filterMap Event.departed? = []) (f : FloatingEffect) :
    f.without es = some f := by
  unfold without
  rw [h]
  rfl

theorem without_of_departed (h : es.filterMap Event.departed? = [o]) (f : FloatingEffect) :
    f.without es = Game.releaseFrom o f := by
  unfold without
  rw [h]
  exact Option.bind_fun_some _

theorem id_modification_of_without (h : f.without es = some f') :
    f'.id = f.id ∧ f'.modification = f.modification := by
  unfold without at h
  generalize es.filterMap Event.departed? = os at h
  induction os generalizing f with
  | nil =>
    cases h
    exact ⟨rfl, rfl⟩
  | cons o rest ih =>
    rw [List.foldlM_cons] at h
    obtain ⟨f₁, hfirst, hrest⟩ := Option.bind_eq_some_iff.mp h
    obtain ⟨hid, hmodification, -⟩ := Game.of_releaseFrom hfirst
    obtain ⟨hid', hmodification'⟩ := ih hrest
    exact ⟨hid'.trans hid, hmodification'.trans hmodification⟩

/-- An effect on something that loses an object is gone if there was no other. -/
theorem releaseFrom_eq (hsome : f.affected.isEmpty = false) (o : ObjectId) :
    Game.releaseFrom o f = if (f.affected.erase o).isEmpty then none
      else some { f with affected := f.affected.erase o } := by
  unfold Game.releaseFrom
  split
  · rfl
  · next hnot =>
    rw [SortedSet.erase_of_not_contains (Bool.eq_false_iff.mpr hnot), hsome]
    rfl

/-- Losing some objects one by one is losing them all. -/
theorem foldlM_releaseFrom (hsome : f.affected.isEmpty = false) (os : List ObjectId) :
    os.foldlM (fun f o => Game.releaseFrom o f) f =
      if (os.foldl SortedSet.erase f.affected).isEmpty then none
      else some { f with affected := os.foldl SortedSet.erase f.affected } := by
  induction os generalizing f with
  | nil => simp [hsome]
  | cons o rest ih =>
    rw [List.foldlM_cons, releaseFrom_eq hsome, List.foldl_cons]
    cases hleft : (f.affected.erase o).isEmpty with
    | false => exact ih hleft
    | true =>
      have hnone : (rest.foldl SortedSet.erase (f.affected.erase o)).isEmpty = true := by
        refine SortedSet.isEmpty_iff.mpr fun o' => ?_
        rw [SortedSet.contains_foldl_erase, SortedSet.isEmpty_iff.mp hleft o', Bool.false_and]
      rw [hnone]
      rfl

/-- What is left of an effect is what it was for the objects that have not left. -/
theorem without_cases (hsome : f.affected.isEmpty = false) (es : List Event) :
    (f.without es = none ∧
      ∀ o, f.affected.contains o = true → ∃ e ∈ es, e.departed? = some o) ∨
    ∃ left, f.without es = some { f with affected := left } ∧ left.isEmpty = false ∧
      ∀ o, left.contains o = true ↔
        f.affected.contains o = true ∧ ∀ e ∈ es, e.departed? ≠ some o := by
  let left := (es.filterMap Event.departed?).foldl SortedSet.erase f.affected
  have hwithout : f.without es = if left.isEmpty then none else some { f with affected := left } :=
    foldlM_releaseFrom hsome _
  have hleft (o : ObjectId) : left.contains o = true ↔
      f.affected.contains o = true ∧ ∀ e ∈ es, e.departed? ≠ some o := by
    rw [SortedSet.contains_foldl_erase, Bool.and_eq_true, decide_eq_true_iff, List.mem_filterMap]
    simp
  rw [hwithout]
  cases hempty : left.isEmpty with
  | false => exact .inr ⟨left, rfl, hempty, hleft⟩
  | true =>
    refine .inl ⟨rfl, fun o ho => ?_⟩
    by_contra hstays
    have hthere := (hleft o).mpr ⟨ho, fun e he heq => hstays ⟨e, he, heq⟩⟩
    rw [SortedSet.isEmpty_iff.mp hempty o] at hthere
    cases hthere

end FloatingEffect

theorem Ledger.next_le_of_replay {l l' : Ledger} {es : List Event} (h : l.replay es = some l') :
    l.next ≤ l'.next := by
  induction es generalizing l with
  | nil =>
    cases h
    exact Nat.le_refl _
  | cons e rest ih =>
    obtain ⟨l₁, he, hrest⟩ := replay_cons_eq_some h
    refine Nat.le_trans ?_ (ih hrest)
    obtain ⟨id, m, affected, -, -, rfl⟩ | ⟨id, -, -, rfl⟩ | ⟨-, -, o, -, rfl⟩ | ⟨-, -, -, rfl⟩ :=
      after_cases he
    · exact Nat.le_succ _
    all_goals exact Nat.le_refl _

namespace Game

variable {g g' : Game} {es : List Event} {id : FloatingId} {o : ObjectId}

theorem floatingEffect?_eq_some_iff (h : g.ledger.Ordered) {f : FloatingEffect} :
    g.floatingEffect? id = some f ↔ f ∈ g.floating ∧ f.id = id := by
  unfold floatingEffect?
  constructor
  · intro hfind
    exact ⟨List.mem_of_find?_eq_some hfind, by simpa using List.find?_some hfind⟩
  · rintro ⟨hf, rfl⟩
    cases hfind : g.floating.find? (·.id = f.id) with
    | none => exact absurd (List.find?_eq_none.mp hfind f hf) (by simp)
    | some e =>
      have hid : e.id = f.id := by simpa using List.find?_some hfind
      exact congrArg some (List.inj_on_of_nodup_map (ids_ledger g ▸ h.nodup_ids)
        (List.mem_of_find?_eq_some hfind) hf hid)

/-- What can become of the floating effects while some events are told: they lose an object that
leaves the battlefield, a new one is added, or some expire. -/
inductive Turnover (g : Game) (es : List Event) : List FloatingEffect → Prop
  | release (o : ObjectId) (h : es.filterMap Event.departed? = [o]) :
      Turnover g es (g.floating.filterMap (releaseFrom o))
  | float (f : FloatingEffect) (h : es.filterMap Event.departed? = [])
      (hid : f.id.val = g.nextFloating) : Turnover g es (g.floating ++ [f])
  | expire (keep : FloatingEffect → Bool) (h : es.filterMap Event.departed? = [])
      (hexpired : ∀ f ∈ g.floating, keep f = false → f.id ∈ es.filterMap Event.expired?) :
      Turnover g es (g.floating.filter keep)

theorem Turnover.same (h : es.filterMap Event.departed? = []) : Turnover g es g.floating := by
  have hkept : g.floating.filter (fun _ => true) = g.floating := List.filter_true _
  have hturnover : Turnover g es (g.floating.filter fun _ => true) :=
    .expire _ h fun _ _ hf => by cases hf
  rwa [hkept] at hturnover

theorem turnover_move {p : Position} {controller : Option Seat} {target origin : Zone}
    {es : List Event} (h : move o target p controller g = .ok origin g')
    (hes : es.filterMap Event.departed? = []) :
    Turnover g (.zoneChanged o origin target :: es) g'.floating := by
  obtain ⟨zones, -, ⟨hfrom, hto, rfl⟩ | ⟨hkind, rfl⟩ | ⟨hfrom, -, henter⟩⟩ := move_eq_ok h
  · have hdeparted : (Event.zoneChanged o origin target).departed? = some o :=
      if_pos ⟨hfrom, hto⟩
    rw [leaveBattlefield_frame]
    refine .release o ?_
    rw [List.filterMap_cons_some hdeparted, hes]
  · have hstays : (Event.zoneChanged o origin target).departed? = none :=
      if_neg fun hleaves => hleaves.2 (hkind.mp hleaves.1)
    refine .same ?_
    rw [List.filterMap_cons_none hstays, hes]
  · have hstays : (Event.zoneChanged o origin target).departed? = none :=
      if_neg fun hleaves => hfrom hleaves.1
    rw [enterBattlefield_eq_ok henter]
    refine .same ?_
    rw [List.filterMap_cons_none hstays, hes]

/-- What a deed does to the floating effects. -/
theorem Deed.turnover (h : Deed g es g') (hordered : g.ledger.Ordered) :
    Turnover g es g'.floating := by
  cases h with
  | announce h =>
    rename_i e
    refine .same ?_
    cases e <;> first | rfl | cases h
  | move h =>
    refine turnover_move h ?_
    split <;> rfl
  | tap huntapped h | mark h | addCounters h =>
    obtain ⟨-, rfl⟩ := setFacet_eq_ok h
    exact .same rfl
  | untap o =>
    refine .same ?_
    split <;> rfl
  | heal o =>
    rw [eraseFacets_frame]
    exact .same rfl
  | removeCounters kind n hbefore h =>
    have hfloating : g'.floating = g.floating := by
      split at h
      · rw [h]
        rfl
      · obtain ⟨-, rfl⟩ := setFacet_eq_ok h
        rfl
    rw [hfloating]
    refine .same ?_
    split <;> rfl
  | life h =>
    obtain ⟨poison, rfl⟩ := setLife_eq_ok h
    exact .same rfl
  | float change affected duration source controller => exact .float _ rfl rfl
  | @unfloat e he =>
    have hfloating : (g.removeFloating e.id).floating = g.floating.filter (·.id ≠ e.id) :=
      Resolve.eraseP_eq_filter e.id (numbered_of_ordered hordered)
    rw [hfloating]
    refine .expire _ rfl fun f hf hends => ?_
    have hid : f.id = e.id := by simpa using hends
    rw [hid]
    exact List.mem_singleton_self _
  | expire keep =>
    refine .expire keep ?_ fun f hf hends => ?_
    · refine List.filterMap_eq_nil_iff.mpr fun e he => ?_
      obtain ⟨f, -, rfl⟩ := List.mem_map.mp he
      rfl
    · refine List.mem_filterMap.mpr ⟨.floatingExpired f.id, List.mem_map.mpr ⟨f, ?_, rfl⟩, rfl⟩
      rw [List.mem_filter, hends]
      exact ⟨hf, rfl⟩
  | create hspawn h =>
    obtain ⟨-, rfl⟩ := setFacet_eq_ok h
    obtain ⟨rfl, zones, hadd, ⟨-, rfl⟩ | ⟨-, henter⟩⟩ := spawn_eq_ok hspawn
    · exact .same rfl
    · rw [enterBattlefield_eq_ok henter]
      exact .same rfl
  | _ => exact .same rfl

/-- What has not expired is what the events leave of it. -/
theorem Deed.floatingEffect?_eq (h : Deed g es g') (hordered : g.ledger.Ordered)
    (hissued : id.val < g.nextFloating) (hstays : id ∉ es.filterMap Event.expired?) :
    g'.floatingEffect? id = (g.floatingEffect? id).bind (·.without es) := by
  have hordered' := hordered.replay (h.replay_ledger hordered)
  have hturnover := h.turnover hordered
  ext f'
  rw [floatingEffect?_eq_some_iff hordered', Option.bind_eq_some_iff]
  simp only [floatingEffect?_eq_some_iff hordered]
  generalize g'.floating = fs at hturnover
  cases hturnover with
  | release o h =>
    simp only [List.mem_filterMap, FloatingEffect.without_of_departed h]
    constructor
    · rintro ⟨⟨f, hf, hrelease⟩, rfl⟩
      exact ⟨f, ⟨hf, (of_releaseFrom hrelease).1.symm⟩, hrelease⟩
    · rintro ⟨f, ⟨hf, rfl⟩, hrelease⟩
      exact ⟨⟨f, hf, hrelease⟩, (of_releaseFrom hrelease).1⟩
  | float f h hid =>
    simp only [FloatingEffect.without_of_staying h, Option.some.injEq, List.mem_append,
      List.mem_singleton]
    constructor
    · rintro ⟨hf | rfl, rfl⟩
      · exact ⟨f', ⟨hf, rfl⟩, rfl⟩
      · exact absurd (hid ▸ hissued) (Nat.lt_irrefl _)
    · rintro ⟨f, ⟨hf, rfl⟩, rfl⟩
      exact ⟨.inl hf, rfl⟩
  | expire keep h hexpired =>
    simp only [FloatingEffect.without_of_staying h, Option.some.injEq, List.mem_filter]
    constructor
    · rintro ⟨⟨hf, -⟩, rfl⟩
      exact ⟨f', ⟨hf, rfl⟩, rfl⟩
    · rintro ⟨f, ⟨hf, rfl⟩, rfl⟩
      refine ⟨⟨hf, ?_⟩, rfl⟩
      by_contra hends
      exact hstays (hexpired f hf (Bool.eq_false_iff.mpr hends))

/-- What is on the battlefield and does not leave it is there still. -/
theorem Deed.stays (h : Deed g es g') (hthere : g.onBattlefield o = true)
    (hstays : ∀ e ∈ es, e.departed? ≠ some o) : g'.onBattlefield o = true := by
  obtain ⟨s, hzone⟩ := onBattlefield_iff.mp hthere
  have hsame (h : g'.zone? o = g.zone? o) : g'.onBattlefield o = true :=
    onBattlefield_iff.mpr ⟨s, h.trans hzone⟩
  cases h with
  | @move g' o' target origin p controller h =>
    by_cases ho : o' = o
    · subst ho
      obtain ⟨zones, hzones, -⟩ := move_eq_ok h
      have horigin : origin = ⟨s, .battlefield⟩ :=
        Option.some.inj ((Zones.zone?_of_move hzones).symm.trans hzone)
      have hkind : target.kind = .battlefield := by
        by_contra hleaves
        exact hstays _ List.mem_cons_self (if_pos ⟨horigin ▸ rfl, hleaves⟩)
      refine onBattlefield_iff.mpr ⟨target.owner, ?_⟩
      rw [zone?_move_self h hkind, ← hkind]
    · exact hsame (zone?_move_of_ne h ho)
  | sink hzone h => exact hsame ((sameStanding_sink hzone h).zone? o)
  | reorder h =>
    obtain ⟨hknows, -, rfl⟩ := Zones.reorder_eq_ok h
    exact hthere
  | shuffle s => exact hsame (zone?_shuffleLibrary s o)
  | tap huntapped h | mark h | addCounters h =>
    obtain ⟨-, rfl⟩ := setFacet_eq_ok h
    exact hthere
  | heal o =>
    rw [eraseFacets_frame]
    exact hthere
  | removeCounters kind n hbefore h =>
    split at h
    · rw [h]
      exact hthere
    · obtain ⟨-, rfl⟩ := setFacet_eq_ok h
      exact hthere
  | life h =>
    obtain ⟨poison, rfl⟩ := setLife_eq_ok h
    exact hthere
  | create hspawn h =>
    obtain ⟨-, rfl⟩ := setFacet_eq_ok h
    have hzone' := zone?_of_spawn hspawn hzone
    exact onBattlefield_iff.mpr ⟨s, hzone'⟩
  | _ => exact hthere

theorem Deeds.nextFloating_le (h : Deeds g es g') (hordered : g.ledger.Ordered) :
    g.nextFloating ≤ g'.nextFloating :=
  Ledger.next_le_of_replay (h.replay_ledger hordered)

/-- As long as it has not expired, a floating effect is what the events leave of it. -/
theorem Deeds.floatingEffect?_eq (h : Deeds g es g') (hordered : g.ledger.Ordered)
    (hissued : id.val < g.nextFloating) (hstays : id ∉ es.filterMap Event.expired?) :
    g'.floatingEffect? id = (g.floatingEffect? id).bind (·.without es) := by
  induction h with
  | refl => exact (Option.bind_fun_some _).symm
  | tail h hlast ih =>
    rw [List.filterMap_append, List.mem_append, not_or] at hstays
    have hordered' := hordered.replay (h.replay_ledger hordered)
    have hissued' := Nat.lt_of_lt_of_le hissued (h.nextFloating_le hordered)
    rw [hlast.floatingEffect?_eq hordered' hissued' hstays.2, ih hstays.1, Option.bind_assoc]
    exact Option.bind_congr fun f _ => (f.without_append _ _).symm

/-- What is on the battlefield and never leaves it is there still. -/
theorem Deeds.stays (h : Deeds g es g') (hthere : g.onBattlefield o = true)
    (hstays : ∀ e ∈ es, e.departed? ≠ some o) : g'.onBattlefield o = true := by
  induction h with
  | refl => exact hthere
  | tail _ hlast ih =>
    refine hlast.stays (ih fun e he => ?_) fun e he => ?_
    · exact hstays e (List.mem_append_left _ he)
    · exact hstays e (List.mem_append_right _ he)

end Game

end CardGame
