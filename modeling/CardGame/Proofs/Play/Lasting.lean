import CardGame.Proofs.Play.Asked
import CardGame.Proofs.Play.SourceBound

/-!
How long floating effects last. An effect whose duration goes by the turns, on objects that stay on
the battlefield, ends with the hook that its duration names and with nothing else, however the moves
come. One move is looked at first (`FloatingEffect.aged`), and then a run of moves. No floating
effect gets an identity that another had before, so what has ended does not come back.
-/

namespace CardGame

namespace Duration

/-- Whether a duration goes by the turns, and not by the source of the effect. -/
def isTimed : Duration → Bool
  | .permanent | .endOfTurn | .endOfCombat | .untilYourNextTurn => true
  | .forTurns n => n ≠ 0
  | .whileSourceOnBattlefield | .whileAttached => false

/-- A duration after so many ends of turn. -/
def after (d : Duration) (turns : Nat) : Duration :=
  match d with
  | .forTurns n => .forTurns (n - turns)
  | d => d

theorem after_zero (d : Duration) : d.after 0 = d := by cases d <;> rfl

theorem after_after (d : Duration) (turns later : Nat) :
    (d.after turns).after later = d.after (turns + later) := by
  cases d <;> simp [after, Nat.sub_sub]

end Duration

namespace Move

/-- Whether a move ends a turn. -/
def endsTurn : Move → Bool
  | .endOfTurn => true
  | _ => false

/-- How many turns a move ends. -/
def turns (m : Move) : Nat := [m].countP endsTurn

theorem countP_cons (m : Move) (ms : List Move) :
    (m :: ms).countP endsTurn = m.turns + ms.countP endsTurn := by
  rw [← List.singleton_append, List.countP_append, turns]

/-- What is told of a move. -/
def events (g : Game) : Move → List Event
  | .execute rules e ctx => (rules.execute g e ctx).events
  | .resume rules r => (rules.resume g r).events
  | .endOfTurn => g.endOfTurn.2
  | .endOfCombat => g.endOfCombat.2
  | .beginTurn s => (g.beginTurn s).2
  | .sweep => g.sweep.2
  | .spawn .. | .schedule _ => []

end Move

/-- What is told of some moves. -/
def Game.told (g : Game) : List Move → List Event
  | [] => []
  | m :: ms => m.events g ++ (m.apply g).told ms

namespace FloatingEffect

variable {f f' : FloatingEffect} {m : Move} {ms : List Move}

/-- An effect after so many ends of turn. -/
def after (f : FloatingEffect) (turns : Nat) : FloatingEffect :=
  { f with duration := f.duration.after turns }

/-- Whether no hook at which an effect ends is among some moves. -/
def Outlasts (f : FloatingEffect) (ms : List Move) : Prop :=
  match f.duration with
  | .endOfTurn => .endOfTurn ∉ ms
  | .endOfCombat => .endOfCombat ∉ ms
  | .untilYourNextTurn => .beginTurn f.controller ∉ ms
  | .forTurns n => ms.countP Move.endsTurn < n
  | .permanent | .whileSourceOnBattlefield | .whileAttached => True

/-- Whether a move is the hook at which an effect ends. -/
def endsAt (f : FloatingEffect) (m : Move) : Bool :=
  match m, f.duration with
  | .endOfTurn, .endOfTurn => true
  | .endOfTurn, .forTurns n => n ≤ 1
  | .endOfCombat, .endOfCombat => true
  | .beginTurn s, .untilYourNextTurn => f.controller = s
  | _, _ => false

theorem isTimed_after (htimed : f.duration.isTimed = true) (hgoes : f.endsAt m = false) :
    (f.after m.turns).duration.isTimed = true := by
  cases hd : f.duration with
  | forTurns n =>
    cases m <;>
      simp_all [endsAt, after, Duration.after, Duration.isTimed, Move.turns, Move.endsTurn]
    omega
  | _ => simp_all [after, Duration.after, Duration.isTimed]

/-- An effect outlasts some moves if it does not end at the first, and what it is then outlasts the
others. -/
theorem outlasts_cons (htimed : f.duration.isTimed = true) :
    f.Outlasts (m :: ms) ↔ f.endsAt m = false ∧ (f.after m.turns).Outlasts ms := by
  cases hd : f.duration with
  | forTurns n =>
    have hsome : n ≠ 0 := by simpa [hd, Duration.isTimed] using htimed
    simp only [Outlasts, hd, after, Duration.after, Move.countP_cons]
    cases m with
    | endOfTurn =>
      have hone : Move.endOfTurn.turns = 1 := rfl
      simp only [endsAt, hd, hone, decide_eq_false_iff_not]
      omega
    | _ => simp [endsAt, hd, Move.turns, Move.endsTurn]
  | _ => cases m <;> simp [Outlasts, endsAt, after, Duration.after, hd]

end FloatingEffect

namespace Game

variable {g g' : Game} {f : FloatingEffect} {m : Move} {ms : List Move} {o : ObjectId}

/-- An effect on a permanent works unless its source decides or its turns are over. -/
theorem isActive_of_isTimed (htimed : f.duration.isTimed = true)
    (ho : f.affected.contains o = true) (hthere : g.onBattlefield o = true) :
    g.isActive f = true := by
  have hany : f.affected.toList.any g.onBattlefield = true :=
    List.any_eq_true.mpr ⟨o, SortedSet.mem_toList_iff.mpr ho, hthere⟩
  unfold isActive
  rw [hany, Bool.true_and]
  cases hd : f.duration with
  | forTurns n => cases n <;> simp_all [Duration.isTimed]
  | _ => simp_all [Duration.isTimed]

/-- What is executed or answered leaves an effect as it was if its objects stay. -/
theorem Leaves.unchanged {r : Result} (hleaves : Leaves f r) (hdeeds : g.Deeds r.events r.game)
    (hsound : g.Sound) (hf : f ∈ g.floating) (htimed : f.duration.isTimed = true)
    (hstays : ∀ o ∈ r.events.filterMap Event.departed?, f.affected.contains o = false) :
    r.game.floatingEffect? f.id = some f := by
  have hsome := hsound.orderly.affecting f hf
  have hnever {o : ObjectId} (ho : f.affected.contains o = true) :
      ∀ e ∈ r.events, e.departed? ≠ some o := by
    intro e he hdeparted
    rw [hstays o (List.mem_filterMap.mpr ⟨e, he, hdeparted⟩)] at ho
    cases ho
  obtain ⟨o, ho⟩ := SortedSet.exists_contains hsome
  have hwithout : f.without r.events = some f := by
    obtain ⟨-, hgone⟩ | ⟨left, hleft, -, hstayed⟩ := f.without_cases hsome r.events
    · obtain ⟨e, he, hdeparted⟩ := hgone o ho
      exact absurd hdeparted (hnever ho e he)
    · have hsame : left = f.affected := by
        refine SortedSet.ext_contains fun o' => Bool.eq_iff_iff.mpr ((hstayed o').trans ?_)
        exact and_iff_left_of_imp hnever
      rw [hleft, hsame]
  have hthere := hdeeds.stays (hsound.orderly.present f hf o ho) (hnever ho)
  unfold Leaves at hleaves
  rw [hleaves, hwithout, Option.filter_some, if_pos (isActive_of_isTimed htimed ho hthere)]

theorem floatingEffect?_countDown (g : Game) (id : FloatingId) :
    ({ g with floating := g.floating.map countDown } : Game).floatingEffect? id =
      (g.floatingEffect? id).map countDown := by
  have hid (e : FloatingEffect) : (countDown e).id = e.id := by
    unfold countDown
    split <;> rfl
  unfold floatingEffect?
  rw [List.find?_map]
  simp only [Function.comp_def, hid]

theorem floating_wearOff (os : List ObjectId) :
    (os.foldl (fun g o => g.eraseFacet o .damage) g).floating = g.floating := by
  induction os generalizing g with
  | nil => rfl
  | cons o rest ih => exact ih (g := g.eraseFacet o .damage)

theorem countDown_eq (f : FloatingEffect) : countDown f = f.after 1 := by
  unfold countDown FloatingEffect.after
  cases hd : f.duration <;> simp [Duration.after, ← hd]

/-- An effect that is no shield gets through the end of a turn unless it ends there. -/
theorem filter_outlastsTurn (hshield : f.modification.change ≠ .regenerationShield) :
    (some (countDown f)).filter outlastsTurn =
      if f.endsAt .endOfTurn then none else some (f.after 1) := by
  have houtlasts : outlastsTurn (f.after 1) = !f.endsAt .endOfTurn := by
    cases hd : f.duration with
    | forTurns n =>
      refine Bool.eq_iff_iff.mpr ?_
      simp [outlastsTurn, FloatingEffect.after, Duration.after, FloatingEffect.endsAt, hd, hshield]
      omega
    | _ =>
      simp [outlastsTurn, FloatingEffect.after, Duration.after, FloatingEffect.endsAt, hd, hshield]
  rw [countDown_eq, Option.filter_some, houtlasts]
  cases f.endsAt .endOfTurn <;> rfl

/-- At the end of a turn an effect goes on that does not end there. -/
theorem Sound.floatingEffect?_endOfTurn (h : g.Sound) (hf : f ∈ g.floating)
    (hshield : f.modification.change ≠ .regenerationShield)
    (htimed : f.duration.isTimed = true) : g.endOfTurn.1.floatingEffect? f.id =
      if f.endsAt .endOfTurn then none else some (f.after 1) := by
  have hfound := (floatingEffect?_eq_some_iff (ordered_ledger h.orderly)).mpr ⟨hf, rfl⟩
  let counted : Game := { g with floating := g.floating.map countDown }
  let worn := (counted.expire outlastsTurn).1.battlefield.foldl (fun g o => g.eraseFacet o .damage)
    (counted.expire outlastsTurn).1
  have htidied : Tidied g worn :=
    (tidied_countDown.trans (tidied_expire outlastsTurn)).trans (tidied_wearOff _)
  have hcounted : counted.floatingEffect? f.id = some (countDown f) := by
    rw [floatingEffect?_countDown, hfound, Option.map_some]
  have hkept : worn.floatingEffect? f.id =
      if f.endsAt .endOfTurn then none else some (f.after 1) := by
    have hsame : worn.floatingEffect? f.id =
        (counted.expire outlastsTurn).1.floatingEffect? f.id := by
      unfold floatingEffect?
      rw [floating_wearOff]
    rw [hsame, floatingEffect?_expire (ordered_ledger (tidied_countDown.sound h).orderly), hcounted,
      filter_outlastsTurn hshield]
  change worn.sweep.1.floatingEffect? f.id = _
  rw [sweep, floatingEffect?_expire (ordered_ledger (htidied.sound h).orderly), hkept]
  cases hends : f.endsAt .endOfTurn with
  | true => rfl
  | false =>
    obtain ⟨o, ho⟩ := SortedSet.exists_contains (h.orderly.affecting f hf)
    have hthere : worn.onBattlefield o = true :=
      (htidied.standing.onBattlefield o).trans (h.orderly.present f hf o ho)
    have hactive : worn.isActive (f.after 1) = true :=
      isActive_of_isTimed (FloatingEffect.isTimed_after htimed hends) ho hthere
    simp [hactive]

/-- A move whose events take no object of an effect off the battlefield leaves the effect there,
unless it is the hook at which the effect ends. -/
theorem Reachable.floatingEffect?_apply (h : g.Reachable) (hf : f ∈ g.floating)
    (hshield : f.modification.change ≠ .regenerationShield)
    (htimed : f.duration.isTimed = true) (hseated : m.Seated g)
    (hstays : ∀ o ∈ (m.events g).filterMap Event.departed?, f.affected.contains o = false) :
    (m.apply g).floatingEffect? f.id = if f.endsAt m then none else some (f.after m.turns) := by
  have hordered := ordered_ledger h.sound.orderly
  have hfound := (floatingEffect?_eq_some_iff hordered).mpr ⟨hf, rfl⟩
  have hsame : f.after 0 = f := by rw [FloatingEffect.after, Duration.after_zero]
  have hexpire (keep : FloatingEffect → Bool) :
      (g.expire keep).1.floatingEffect? f.id = if keep f then some (f.after 0) else none := by
    rw [floatingEffect?_expire hordered, hfound, Option.filter_some, hsame]
  cases m with
  | spawn card owner kind =>
    obtain ⟨o, g', hspawn, happly⟩ := spawnCard_cases h.sound.housed card kind hseated
    rw [happly, floatingEffect?, (spawn_frame hspawn).2]
    exact hfound.trans (congrArg some hsame.symm)
  | execute rules e ctx =>
    exact (((h.leaves hf hshield rules).1 e ctx).unchanged (rules.deeds_execute g e ctx) h.sound hf
      htimed hstays).trans (congrArg some hsame.symm)
  | resume rules r =>
    exact (((h.leaves hf hshield rules).2 r).unchanged (rules.deeds_resume h r) h.sound hf
      htimed hstays).trans (congrArg some hsame.symm)
  | endOfTurn => exact h.sound.floatingEffect?_endOfTurn hf hshield htimed
  | endOfCombat =>
    refine (hexpire _).trans ?_
    cases hd : f.duration <;> simp [FloatingEffect.endsAt, hd] <;> rfl
  | beginTurn s =>
    refine (hexpire _).trans ?_
    cases hd : f.duration <;> simp [FloatingEffect.endsAt, hd] <;> rfl
  | sweep => exact (hexpire _).trans (if_pos (h.swept f hf))
  | schedule turn => exact hfound.trans (congrArg some hsame.symm)

/-- Floating effects that were not there before are numbered on. -/
structure NumberedOn (g g' : Game) : Prop where
  next_le : g.nextFloating ≤ g'.nextFloating
  known : ∀ f' ∈ g'.floating, f'.id ∈ g.floating.map (·.id) ∨ g.nextFloating ≤ f'.id.val

namespace NumberedOn

theorem of_ids (hnext : g'.nextFloating = g.nextFloating)
    (hids : ∀ f' ∈ g'.floating, f'.id ∈ g.floating.map (·.id)) : NumberedOn g g' :=
  ⟨hnext.ge, fun f' hf' => .inl (hids f' hf')⟩

theorem refl (g : Game) : NumberedOn g g :=
  .of_ids rfl fun _ hf => List.mem_map_of_mem hf

theorem trans {g'' : Game} (h : NumberedOn g g') (h' : NumberedOn g' g'') : NumberedOn g g'' where
  next_le := h.next_le.trans h'.next_le
  known f'' hf'' := by
    rcases h'.known f'' hf'' with hold | hnew
    · obtain ⟨f', hf', hid⟩ := List.mem_map.mp hold
      exact hid ▸ h.known f' hf'
    · exact .inr (h.next_le.trans hnew)

theorem of_deeds {es : List Event} (h : Deeds g es g') (hordered : g.ledger.Ordered) :
    NumberedOn g g' where
  next_le := h.nextFloating_le hordered
  known f' hf' := by
    have hreplay := h.replay_ledger hordered
    have hthere : f'.id ∈ g'.ledger.ids := by
      rw [ids_ledger]
      exact List.mem_map_of_mem hf'
    rcases ((Ledger.mem_ids_replay hordered hreplay f'.id).mp hthere).1 with hold | hnew
    · exact .inl (ids_ledger g ▸ hold)
    · have hval : f'.id.val ∈ (es.filterMap Event.created?).map (·.val) := List.mem_map_of_mem hnew
      rw [Ledger.created_replay hreplay] at hval
      exact .inr (List.mem_range'_1.mp hval).1

/-- What is not there and will not be numbered so is not there later. -/
theorem absent {id : FloatingId} (h : NumberedOn g g') (hissued : id.val < g.nextFloating)
    (habsent : ∀ f ∈ g.floating, f.id ≠ id) : ∀ f' ∈ g'.floating, f'.id ≠ id := by
  rintro f' hf' rfl
  rcases h.known f' hf' with hold | hnew
  · obtain ⟨f, hf, hid⟩ := List.mem_map.mp hold
    exact habsent f hf hid
  · exact absurd hnew (Nat.not_le_of_lt hissued)

end NumberedOn

theorem numberedOn_expire (keep : FloatingEffect → Bool) : NumberedOn g (g.expire keep).1 :=
  .of_ids rfl fun _ hf' => List.mem_map_of_mem (List.mem_of_mem_filter hf')

theorem numberedOn_endOfTurn (g : Game) : NumberedOn g g.endOfTurn.1 := by
  have hcounted : NumberedOn g { g with floating := g.floating.map countDown } := by
    refine .of_ids rfl fun f' hf' => ?_
    obtain ⟨f, hf, rfl⟩ := List.mem_map.mp hf'
    rw [countDown_eq]
    exact List.mem_map.mpr ⟨f, hf, rfl⟩
  have hworn (g : Game) (os : List ObjectId) :
      NumberedOn g (os.foldl (fun g o => g.eraseFacet o .damage) g) := by
    refine .of_ids (tidied_wearOff os).nextFloating fun f' hf' => ?_
    rw [floating_wearOff] at hf'
    exact List.mem_map_of_mem hf'
  exact ((hcounted.trans (numberedOn_expire _)).trans (hworn _ _)).trans (numberedOn_expire _)

theorem Reachable.numberedOn_apply (h : g.Reachable) (hseated : m.Seated g) :
    NumberedOn g (m.apply g) := by
  have hordered := ordered_ledger h.sound.orderly
  cases m with
  | spawn card owner kind =>
    obtain ⟨o, g', hspawn, happly⟩ := spawnCard_cases h.sound.housed card kind hseated
    obtain ⟨-, zones, -, ⟨-, rfl⟩ | ⟨-, henter⟩⟩ := spawn_eq_ok hspawn
    · rw [happly]
      exact .of_ids rfl fun _ hf => List.mem_map_of_mem hf
    · rw [happly, enterBattlefield_eq_ok henter]
      exact .of_ids rfl fun _ hf => List.mem_map_of_mem hf
  | execute rules e ctx => exact .of_deeds (rules.deeds_execute g e ctx) hordered
  | resume rules r => exact .of_deeds (rules.deeds_resume h r) hordered
  | endOfTurn => exact numberedOn_endOfTurn g
  | endOfCombat | beginTurn s | sweep => exact numberedOn_expire _
  | schedule turn => exact .of_ids rfl fun _ hf => List.mem_map_of_mem hf

theorem Reachable.numberedOn_played (h : g.Reachable) (hseated : g.SeatsAll ms) :
    NumberedOn g (g.played ms) := by
  induction ms generalizing g with
  | nil => exact .refl g
  | cons m ms ih =>
    exact (h.numberedOn_apply hseated.1).trans (ih (.move m h hseated.1) hseated.2)

/-- Along a run that leaves the objects of an effect where they are, the effect is there, with what
is left of its duration, as long as no hook at which it ends has been run. -/
theorem Reachable.floatingEffect?_played (h : g.Reachable) (hf : f ∈ g.floating)
    (hshield : f.modification.change ≠ .regenerationShield)
    (htimed : f.duration.isTimed = true) (hseated : g.SeatsAll ms)
    (hstays : ∀ o ∈ (g.told ms).filterMap Event.departed?, f.affected.contains o = false) :
    (f.Outlasts ms →
      (g.played ms).floatingEffect? f.id = some (f.after (ms.countP Move.endsTurn))) ∧
    (¬ f.Outlasts ms → ∀ f' ∈ (g.played ms).floating, f'.id ≠ f.id) := by
  induction ms generalizing g f with
  | nil =>
    have hfound := (floatingEffect?_eq_some_iff (ordered_ledger h.sound.orderly)).mpr ⟨hf, rfl⟩
    have hsame : f.after 0 = f := by rw [FloatingEffect.after, Duration.after_zero]
    refine ⟨fun _ => hfound.trans (congrArg some hsame.symm), fun hends => absurd ?_ hends⟩
    cases hd : f.duration <;> simp_all [FloatingEffect.Outlasts, Duration.isTimed]
  | cons m ms ih =>
    rw [told, List.filterMap_append, List.forall_mem_append] at hstays
    have hnext := Reachable.move m h hseated.1
    have hordered := ordered_ledger hnext.sound.orderly
    have hstep := h.floatingEffect?_apply hf hshield htimed hseated.1 hstays.1
    rw [FloatingEffect.outlasts_cons htimed]
    cases hends : f.endsAt m with
    | true =>
      rw [hends, if_pos rfl] at hstep
      refine ⟨fun houtlasts => absurd houtlasts.1 (by simp), fun _ => ?_⟩
      -- the identity was handed out before the run, so nothing new can have it
      have hissued := Nat.lt_of_lt_of_le (h.sound.orderly.issued f hf)
        (h.numberedOn_apply hseated.1).next_le
      refine (hnext.numberedOn_played hseated.2).absent hissued fun f' hf' hid => ?_
      cases hstep.symm.trans ((floatingEffect?_eq_some_iff hordered).mpr ⟨hf', hid⟩)
    | false =>
      rw [hends, if_neg Bool.false_ne_true] at hstep
      have hthere := ((floatingEffect?_eq_some_iff hordered).mp hstep).1
      -- the other moves meet the effect as it is now, with a turn less after an end of turn
      obtain ⟨hlasts, hgone⟩ := ih hnext hthere hshield (FloatingEffect.isTimed_after htimed hends)
        hseated.2 hstays.2
      have hlater : (f.after m.turns).after (ms.countP Move.endsTurn) =
          f.after ((m :: ms).countP Move.endsTurn) := by
        rw [Move.countP_cons]
        exact congrArg (fun d => { f with duration := d }) (f.duration.after_after _ _)
      refine ⟨fun houtlasts => ?_, fun hshort => ?_⟩
      · exact (hlasts houtlasts.2).trans (congrArg some hlater)
      · exact hgone fun hrest => hshort ⟨rfl, hrest⟩

/-- How an effect lasts along a run: it is there and works just as long as no hook at which it ends
has been run, it has changed in nothing but the turns that are left to it, and when it is gone
nothing has its identity ever after. -/
structure KeepsTime (g : Game) (f : FloatingEffect) (ms : List Move) : Prop where
  there_iff : (∃ f' ∈ (g.played ms).floating, f'.id = f.id ∧ (g.played ms).isActive f' = true) ↔
    f.Outlasts ms
  same : ∀ f' ∈ (g.played ms).floating, f'.id = f.id →
    f' = { f with duration := f.duration.after (ms.countP Move.endsTurn) }
  gone : (∀ f' ∈ (g.played ms).floating, f'.id ≠ f.id) → ∀ later, g.SeatsAll (ms ++ later) →
    ∀ f' ∈ (g.played (ms ++ later)).floating, f'.id ≠ f.id

/-- Every effect that is no shield and goes by the turns lasts exactly as long as its duration says,
as long as none of its objects leaves the battlefield. -/
theorem Reachable.keepsTime (h : g.Reachable) (hf : f ∈ g.floating)
    (hshield : f.modification.change ≠ .regenerationShield)
    (htimed : f.duration.isTimed = true) (hseated : g.SeatsAll ms)
    (hstays : ∀ o ∈ (g.told ms).filterMap Event.departed?, f.affected.contains o = false) :
    g.KeepsTime f ms := by
  have hplayed := h.played hseated
  have hordered := ordered_ledger hplayed.sound.orderly
  obtain ⟨hlasts, hgone⟩ := h.floatingEffect?_played hf hshield htimed hseated hstays
  constructor
  · constructor
    · rintro ⟨f', hf', hid, -⟩
      by_contra hshort
      exact hgone hshort f' hf' hid
    · intro houtlasts
      obtain ⟨hthere, hid⟩ := (floatingEffect?_eq_some_iff hordered).mp (hlasts houtlasts)
      exact ⟨_, hthere, hid, hplayed.swept _ hthere⟩
  · intro f' hf' hid
    have hfound := (floatingEffect?_eq_some_iff hordered).mpr ⟨hf', hid⟩
    by_cases houtlasts : f.Outlasts ms
    · exact Option.some.inj (hfound.symm.trans (hlasts houtlasts))
    · exact absurd hid (hgone houtlasts f' hf')
  · intro habsent later hall
    have hissued := Nat.lt_of_lt_of_le (h.sound.orderly.issued f hf)
      (h.numberedOn_played hseated).next_le
    rw [played_append]
    exact (hplayed.numberedOn_played (seatsAll_append.mp hall).2).absent hissued habsent

/-- Moves with the end of one turn among them. -/
def oneTurn : List Move :=
  [.spawn (.creature ⟨7⟩ "Bear" 2 2) ⟨1⟩ .battlefield, .endOfTurn,
    .execute {} .destroyTarget { targets := [⟨3⟩] }, .beginTurn ⟨0⟩, .endOfCombat, .sweep]

/-- A bonus for two turns gets through the first with other moves around it, and not through the
second. -/
theorem keepsTime_of_two_turns : ∃ g₀ g f, start {} = .ok g₀ ∧
    g = (Move.execute {} (.continuous (.modifyStats (.target 0) (.fixed 1) (.fixed 1)
      (.forTurns 2))) { targets := [⟨2⟩] }).apply
      ((Move.spawn (.creature ⟨7⟩ "Bear" 2 2) ⟨0⟩ .battlefield).apply g₀) ∧
    f ∈ g.floating ∧ f.duration = .forTurns 2 ∧
    g.KeepsTime f oneTurn ∧ f.Outlasts oneTurn ∧
    (g.told oneTurn).filterMap Event.departed? = [⟨3⟩] ∧
    (g.played oneTurn).floating.map (·.duration) = [.forTurns 1] ∧
    g.KeepsTime f (oneTurn ++ [.endOfTurn]) ∧ ¬ f.Outlasts (oneTurn ++ [.endOfTurn]) := by
  have hbonus : ∃ g₀ g f, start {} = .ok g₀ ∧
      g = (Move.execute {} (.continuous (.modifyStats (.target 0) (.fixed 1) (.fixed 1)
        (.forTurns 2))) { targets := [⟨2⟩] }).apply
        ((Move.spawn (.creature ⟨7⟩ "Bear" 2 2) ⟨0⟩ .battlefield).apply g₀) ∧
      g.floating = [f] ∧ f.duration = .forTurns 2 ∧ f.affected = .singleton ⟨2⟩ ∧
      f.modification.change ≠ .regenerationShield ∧ 0 < g₀.seats ∧ 1 < g.seats ∧
      (g.told oneTurn).filterMap Event.departed? = [⟨3⟩] ∧
      (g.told (oneTurn ++ [.endOfTurn])).filterMap Event.departed? = [⟨3⟩] ∧
      (g.played oneTurn).floating.map (·.duration) = [.forTurns 1] := by
    refine ⟨_, _, _, rfl, rfl, rfl, rfl, rfl, ?_, ?_, ?_, ?_, ?_, ?_⟩ <;> decide +kernel
  obtain ⟨g₀, g, f, hstart, hg, hfloating, hduration, haffected, hshield, hseats, hseats', hfirst,
    hall, hleft⟩ := hbonus
  have hreachable : g.Reachable := by
    rw [hg]
    exact .move _ (.move _ (.start hstart) hseats) trivial
  have hf : f ∈ g.floating := by simp [hfloating]
  have htimed : f.duration.isTimed = true := by
    rw [hduration]
    rfl
  have hstays : ∀ o ∈ [(⟨3⟩ : ObjectId)], f.affected.contains o = false := by
    rw [haffected]
    decide
  refine ⟨g₀, g, f, hstart, hg, hf, hduration, ?_, ?_, hfirst, hleft, ?_, ?_⟩
  · exact hreachable.keepsTime hf hshield htimed
      ⟨hseats', trivial, trivial, trivial, trivial, trivial, trivial⟩ (hfirst ▸ hstays)
  · simp only [FloatingEffect.Outlasts, hduration]
    decide
  · exact hreachable.keepsTime hf hshield htimed
      ⟨hseats', trivial, trivial, trivial, trivial, trivial, trivial, trivial⟩ (hall ▸ hstays)
  · simp only [FloatingEffect.Outlasts, hduration]
    decide

end Game

end CardGame
