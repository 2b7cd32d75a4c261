import CardGame.Proofs.Play.Course

/-!
The games that can come up. A game is reachable when a table is set and moves are made: cards are
brought in, effects executed, decisions answered, the hooks of the turn run and turns scheduled.
Every reachable game is sound and poised: either nobody is asked and nothing is suspended, or the
topmost frame waits for the pending decision and those below it hold effects put off.
-/

namespace CardGame

open Resolve

/-- A move at the table. -/
inductive Move where
  | spawn (card : CardDefinition) (owner : Seat) (kind : ZoneKind)
  | execute (rules : Rules) (e : Effect) (ctx : Context)
  | resume (rules : Rules) (r : Response)
  | endOfTurn
  | endOfCombat
  | beginTurn (s : Seat)
  | sweep
  | schedule (turn : Turn)

namespace Move

/-- The game after a move. -/
def apply (g : Game) : Move → Game
  | .spawn card owner kind =>
    match Game.spawnCard card owner kind g with
    | .ok _ g' | .error _ g' => g'
  | .execute rules e ctx => (rules.execute g e ctx).game
  | .resume rules r => (rules.resume g r).game
  | .endOfTurn => g.endOfTurn.1
  | .endOfCombat => g.endOfCombat.1
  | .beginTurn s => (g.beginTurn s).1
  | .sweep => g.sweep.1
  | .schedule turn => { g with turn }

/-- Cards are brought in for players at the table. -/
def Seated (g : Game) : Move → Prop
  | .spawn _ owner _ => owner.index < g.seats
  | _ => True

end Move

namespace Game

/-- A game that comes up in play. -/
inductive Reachable : Game → Prop
  | start {s : TableSettings} {g : Game} (h : start s = .ok g) : Reachable g
  | move {g : Game} (m : Move) (h : Reachable g) (hseated : m.Seated g) : Reachable (m.apply g)

/-- Either nobody is asked and nothing is suspended, or the topmost frame waits for the pending
decision, and the frames below it hold effects put off. -/
inductive Poised (g : Game) : Prop
  | idle (hpending : g.pending = none) (hstack : g.stack = [])
  | waiting (d : Decision) (work : Suspension) (groups : List Group)
      (hpending : g.pending = some d)
      (hstack : g.stack = ⟨some d.id, work⟩ :: groups.map Frame.ofGroup)
      (hgroups : ∀ group ∈ groups, group.1 ≠ []) (hissued : d.id.val < g.nextDecision)
      (hfits : work.Fits d.question g)

variable {g g' : Game}

/-- Changes that leave suspended work and every object's zone alone leave the game poised. -/
theorem Poised.congr (h : g.Poised) (hcontrol : SameControl g g')
    (hzone : ∀ o z, g.zone? o = some z → g'.zone? o = some z) : g'.Poised := by
  cases h with
  | idle hpending hstack =>
    exact .idle (hcontrol.pending.trans hpending) (hcontrol.stack.trans hstack)
  | waiting d work groups hpending hstack hgroups hissued hfits =>
    exact .waiting d work groups (hcontrol.pending.trans hpending) (hcontrol.stack.trans hstack)
      hgroups (hcontrol.nextDecision ▸ hissued) (hfits.congr hzone)

end Game

namespace Progress

theorem sound_settled {p : Progress} (hsound : p.game.Sound) : p.settled.game.Sound :=
  hsound.sublist List.filter_sublist

theorem sound_stoppedAt {p : Progress} (stop : Stop) (hsound : p.game.Sound) :
    (p.stoppedAt stop).game.Sound :=
  hsound.congr (.of_eq rfl rfl rfl rfl) hsound.housed.consistent rfl rfl

end Progress

/-- What executing or resuming may come to in a game: a sound game in which nobody is asked and
nothing suspended, or one that waits for the decision, in either case with the same cards; or a
failure that leaves the game alone. -/
def Result.Proper (before : Game) : Result → Prop
  | .success g _ => g.Sound ∧ g.pending = none ∧ g.stack = [] ∧
      ∀ o, g.isNontoken o = before.isNontoken o
  | .paused g d _ => g.Sound ∧ g.pending = some d ∧ g.Poised ∧
      ∀ o, g.isNontoken o = before.isNontoken o
  | .failed g _ => g = before

theorem Result.Proper.sound_poised {before : Game} {r : Result} (h : r.Proper before)
    (hsound : before.Sound) (hpoised : before.Poised) : r.game.Sound ∧ r.game.Poised := by
  cases r with
  | success g es => exact ⟨h.1, .idle h.2.1 h.2.2.1⟩
  | paused g d es => exact ⟨h.1, h.2.2.1⟩
  | failed g failure =>
    cases h
    exact ⟨hsound, hpoised⟩

variable {lasting : Duration → Prop} {P : Game → Prop} {rules : Rules}

/-- A plan followed from a game in which nothing is suspended comes to something proper. -/
theorem Result.proper_conclude {plan : Resolve (Option Stop)} {p : Progress} {before : Game}
    (hplan : Directly lasting P plan Stopping) (hsound : p.game.Sound) (hp : P p.game)
    (hpending : p.game.pending = none) (hstack : p.game.stack = [])
    (hcards : ∀ o, p.game.isNontoken o = before.isNontoken o) :
    (Result.conclude before (plan p)).Proper before := by
  cases hrun : plan p with
  | error failure => rfl
  | ok result =>
    obtain ⟨stop, q⟩ := result
    obtain ⟨hchanges, hstop⟩ := hplan.runs hsound hp hrun
    have hq := hchanges.sound hsound
    have hcontrol := hchanges.sameControl
    have hsame (o : ObjectId) : q.game.isNontoken o = before.isNontoken o :=
      (hchanges.isNontoken hsound o).trans (hcards o)
    cases stop with
    | none =>
      exact ⟨Progress.sound_settled hq, hcontrol.pending.trans hpending,
        hcontrol.stack.trans hstack, hsame⟩
    | some stop =>
      obtain ⟨hfits, hlater⟩ := hstop stop rfl
      refine ⟨Progress.sound_settled (Progress.sound_stoppedAt stop hq), rfl, ?_, hsame⟩
      refine .waiting (stop.request.decision ⟨q.game.nextDecision⟩) stop.request.work stop.later
        rfl ?_ hlater (Nat.lt_succ_self _) (hfits.congr fun _ _ => id)
      have hbelow : q.game.stack = [] := hcontrol.stack.trans hstack
      change ⟨some _, _⟩ :: (stop.later.map Frame.ofGroup ++ q.game.stack) = _
      rw [hbelow, List.append_nil]
      rfl

theorem Result.fails_conclude {plan : Resolve (Option Stop)} {p : Progress} {before g : Game}
    {failure : Failure} (hplan : Directly lasting P plan Stopping) (hsound : p.game.Sound)
    (hp : P p.game) (h : Result.conclude before (plan p) = .failed g failure) :
    failure.isOfCalls = false := by
  cases hrun : plan p with
  | error failure' =>
    rw [hrun] at h
    cases h
    exact hplan.fails hsound hp hrun
  | ok result =>
    obtain ⟨stop, q⟩ := result
    rw [hrun] at h
    cases stop <;> cases h

namespace Rules

theorem directly_planGroups (groups : List Group) (hgroups : ∀ group ∈ groups, group.1 ≠ [])
    (h : ∀ group ∈ groups, ∀ d ∈ Effect.durationsOfAll group.1, lasting d) :
    Directly lasting (fun _ => True) (rules.planGroups groups) Stopping := by
  induction groups with
  | nil => exact .pure _ fun _ => stopping_none
  | cons group rest ih =>
    have hrest : ∀ group ∈ rest, group.1 ≠ [] := fun group hgroup =>
      hgroups group (List.mem_cons_of_mem _ hgroup)
    exact .followedBy (Effect.directly_planAll _ _ (h group List.mem_cons_self))
      (ih hrest fun group hgroup => h group (List.mem_cons_of_mem _ hgroup)) hrest

theorem directly_planAnswer (d : Decision) (work : Suspension) (answer : Answer)
    (groups : List Group) (hgroups : ∀ group ∈ groups, group.1 ≠ []) :
    Directly (fun _ => True) (work.Ready answer) (rules.planAnswer d work answer groups)
      Stopping :=
  .followedBy (work.directly_plan answer)
    (directly_planGroups groups hgroups fun _ _ _ _ => trivial) hgroups

/-- A game stays sound when its stack is set aside to answer the pending decision. -/
theorem sound_answering {g : Game} (hsound : g.Sound) :
    ({ g with pending := none, stack := [] } : Game).Sound :=
  hsound.congr (.of_eq rfl rfl rfl rfl) hsound.housed.consistent rfl rfl

/-- Executing keeps a game sound and poised, whatever it comes to. -/
theorem proper_execute {g : Game} (hsound : g.Sound) (hpoised : g.Poised) (e : Effect)
    (ctx : Context) : (rules.execute g e ctx).Proper g := by
  cases hpoised with
  | idle hpending hstack =>
    rw [execute_eq hsound hpending]
    have hplan : Directly (fun _ => True) (fun _ => True) (e.plan rules ctx) Stopping :=
      e.directly_plan ctx fun _ _ => trivial
    exact Result.proper_conclude hplan hsound trivial hpending hstack fun _ => rfl
  | waiting d work groups hpending =>
    unfold execute
    rw [hpending]
    rfl

/-- The work that is found for a response waits for the pending decision, and what lies beneath it
was put off. -/
theorem of_expected {g : Game} (hpoised : g.Poised) {r : Response} {d : Decision}
    {work : Suspension} (h : expected g r = .ok (d, work)) :
    ∃ groups : List Group, g.pending = some d ∧
      g.stack = ⟨some d.id, work⟩ :: groups.map Frame.ofGroup ∧
      (∀ group ∈ groups, group.1 ≠ []) ∧ work.Fits d.question g := by
  unfold expected at h
  cases hpoised with
  | idle hpending hstack =>
    rw [hpending] at h
    cases h
  | waiting d' work' groups hpending hstack hgroups hissued hfits =>
    rw [hpending, hstack] at h
    by_cases hid : d'.id = r.decision
    · simp only [hid, ne_eq, not_true_eq_false, if_false, if_true] at h
      cases h
      exact ⟨groups, hpending, hstack, hgroups, hfits⟩
    · simp [hid] at h

/-- Either the response is turned down before anything is resolved, or the chain gets too long, or
the answer's plan is followed. -/
theorem resume_cases (rules : Rules) {g : Game} (hsound : g.Sound) (hpoised : g.Poised)
    (r : Response) :
    (∃ failure, rules.resume g r = .failed g failure ∧ ∀ d, failure ≠ .nothingToResume d) ∨
      ∃ d work groups, (∀ group ∈ groups, group.1 ≠ []) ∧ work.Ready r.answer g ∧
        rules.resume g r = .conclude g (rules.planAnswer d work r.answer groups
          ⟨{ g with pending := none, stack := [] }, [.decisionResolved d.id d.player]⟩) := by
  cases hpoised with
  | idle hpending hstack => exact Or.inl ⟨_, resume_idle hpending r, by simp⟩
  | waiting d work groups hpending hstack hgroups hissued hfits =>
    cases hobjection : objection d r with
    | some failure =>
      refine Or.inl ⟨failure, ?_, ?_⟩
      · rw [resume_waiting hpending hstack, hobjection]
      · rintro id rfl
        exact objection_ne_nothingToResume hobjection
    | none =>
      rcases resume_eq hsound hfits hpending hstack hobjection with ⟨-, hlong⟩ | hplan
      · exact Or.inl ⟨_, hlong, by simp⟩
      · have hready := Suspension.ready_of_fits hfits (objection_eq_none hobjection).2
        exact Or.inr ⟨d, work, groups, hgroups, hready, hplan⟩

/-- Resuming keeps a game sound and poised, whatever it comes to. -/
theorem proper_resume {g : Game} (hsound : g.Sound) (hpoised : g.Poised) (r : Response) :
    (rules.resume g r).Proper g := by
  rcases rules.resume_cases hsound hpoised r with
    ⟨failure, hfailed, -⟩ | ⟨d, work, groups, hgroups, hready, hplan⟩
  · rw [hfailed]
    rfl
  · rw [hplan]
    exact Result.proper_conclude (directly_planAnswer d work r.answer groups hgroups)
      (sound_answering hsound) (hready.congr fun _ _ => id) rfl rfl fun _ => rfl

/-- The work for a pending decision is always found. -/
theorem resume_ne_nothingToResume {g g' : Game} {r : Response} {id : DecisionId}
    (hsound : g.Sound) (hpoised : g.Poised) :
    rules.resume g r ≠ .failed g' (.nothingToResume id) := by
  rcases rules.resume_cases hsound hpoised r with
    ⟨failure, hfailed, hne⟩ | ⟨d, work, groups, hgroups, hready, hplan⟩
  · rw [hfailed]
    intro heq
    cases heq
    exact hne id rfl
  · rw [hplan]
    intro heq
    have hplain := Result.fails_conclude (directly_planAnswer d work r.answer groups hgroups)
      (sound_answering hsound) (hready.congr fun _ _ h => h) heq
    cases hplain

end Rules

namespace TableSettings

theorem players_le {s : TableSettings} (h : s.check = .ok ()) : s.players ≤ 255 := by
  unfold check at h
  split at h
  · cases h
  · split at h
    · cases h
    · omega

theorem players_ne_zero {s : TableSettings} (h : s.check = .ok ()) : s.players ≠ 0 := by
  unfold check at h
  split at h
  · cases h
  · assumption

end TableSettings

namespace Game

variable {g g' : Game} {s : TableSettings}

theorem contains_ofSeats_iff {n : Nat} (hn : n ≤ 255) (facets : Seat → Facets) (o : ObjectId) :
    (SortedMap.ofList ((Seat.all n).map fun seat => (ObjectId.ofSeat seat, facets seat))).contains o
      = true ↔ o.val < n := by
  rw [SortedMap.contains_ofList_iff]
  simp only [List.map_map, List.mem_map, Function.comp_apply, Seat.mem_all_iff hn]
  constructor
  · rintro ⟨seat, hseat, rfl⟩
    exact hseat
  · intro ho
    exact ⟨⟨o.val⟩, ho, rfl⟩

theorem check_of_start (h : start s = .ok g) : s.check = .ok () := by
  unfold start at h
  cases hcheck : s.check with
  | error failure =>
    rw [hcheck] at h
    cases h
  | ok u => rfl

theorem start_eq_ok (h : start s = .ok g) : s.players ≤ 255 ∧ g = {
    seats := s.players
    objects := .ofList <| (Seat.all s.players).map fun seat =>
      (.ofSeat seat, Facets.empty.insert (.player s.startingLife 0))
    zones := .empty s.players
    floating := []
    stack := []
    pending := none
    turn := {}
    random := .ofSeed s.seed
    nextObject := ObjectId.firstObject s.players
    nextTimestamp := 1
    nextFloating := 1
    nextDecision := 1 } := by
  have hcheck := check_of_start h
  unfold start at h
  rw [hcheck] at h
  cases h
  exact ⟨TableSettings.players_le hcheck, rfl⟩

/-- At a new table nothing is known but the players' life totals. -/
theorem facets_start (h : start s = .ok g) (o : ObjectId) :
    g.facets o = .empty ∨ g.facets o = Facets.empty.insert (.player s.startingLife 0) := by
  obtain ⟨-, rfl⟩ := start_eq_ok h
  rw [facets]
  cases hfind : (SortedMap.ofList <| (Seat.all s.players).map fun seat =>
      (ObjectId.ofSeat seat, Facets.empty.insert (.player s.startingLife 0))).find? o with
  | none => exact Or.inl rfl
  | some fs =>
    obtain ⟨seat, -, hentry⟩ := List.mem_map.mp (SortedMap.mem_of_find?_ofList hfind)
    exact Or.inr (congrArg Prod.snd hentry).symm

/-- At a new table everybody is seated and no zone holds anything. -/
theorem sound_start (h : start s = .ok g) : g.Sound := by
  obtain ⟨hplayers, rfl⟩ := start_eq_ok h
  have hfirst := ObjectId.firstObject_eq hplayers
  have hcontains {o : ObjectId} := contains_ofSeats_iff hplayers
    (fun _ => Facets.empty.insert (.player s.startingLife 0)) o
  refine ⟨⟨Zones.consistent_empty _, hplayers, fun kind hs => ?_, ?_, fun hs => hcontains.mpr hs,
    fun hzone => ?_, fun ho => ?_, Nat.le_refl _⟩, .nil⟩
  · exact Zones.knows_empty_iff.mpr ((Seat.mem_all_iff hplayers).mpr hs)
  · refine Iff.intro (fun ⟨z, hzone⟩ => by cases hzone) fun ⟨ho, hseat⟩ => ?_
    have hlt := hcontains.mp ho
    have hle := (ObjectId.seat?_eq_none_iff _ _).mp hseat
    change ObjectId.firstObject s.players ≤ _ at hle
    omega
  · cases hzone
  · change _ < ObjectId.firstObject s.players
    rw [hfirst]
    exact hcontains.mp ho

theorem poised_start (h : start s = .ok g) : g.Poised := by
  obtain ⟨-, rfl⟩ := start_eq_ok h
  exact .idle rfl rfl

/-- Bringing in a card for a player at the table succeeds. -/
theorem spawnCard_cases (hhoused : g.Housed) (card : CardDefinition) {owner : Seat}
    (kind : ZoneKind) (hseat : owner.index < g.seats) :
    ∃ o g', spawnCard card owner kind g = .ok o g' ∧
      (Move.spawn card owner kind).apply g = g' := by
  obtain ⟨o, g', hspawn⟩ := hhoused.exists_spawn card.toCard kind false hseat
  refine ⟨o, g', hspawn, ?_⟩
  simp only [Move.apply, spawnCard, hspawn]

/-- Objects stay in their zones while a new one arrives. -/
theorem zone?_of_spawn {card : Card} {owner : Seat} {kind : ZoneKind} {token : Bool}
    {o o' : ObjectId} {z : Zone} (h : spawn card owner kind token g = .ok o g')
    (hzone : g.zone? o' = some z) : g'.zone? o' = some z := by
  obtain ⟨-, zones, hadd, ⟨-, rfl⟩ | ⟨-, henter⟩⟩ := spawn_eq_ok h
  · exact Zones.zone?_of_add hadd hzone
  · rw [(sameStanding_enterBattlefield henter).zone?]
    exact Zones.zone?_of_add hadd hzone

theorem sameControl_spawn {card : Card} {owner : Seat} {kind : ZoneKind} {token : Bool}
    {o : ObjectId} (h : spawn card owner kind token g = .ok o g') : SameControl g g' := by
  obtain ⟨-, zones, -, ⟨-, rfl⟩ | ⟨-, henter⟩⟩ := spawn_eq_ok h
  · exact ⟨rfl, rfl, rfl⟩
  · rw [enterBattlefield_eq_ok henter]
    exact ⟨rfl, rfl, rfl⟩

/-- What the hooks of a turn may do: nothing moves, suspended work stays, and floating effects stay
in order. -/
structure Tidied (g g' : Game) : Prop where
  standing : SameStanding g g'
  control : SameControl g g'
  zones : g'.zones = g.zones
  nextFloating : g'.nextFloating = g.nextFloating
  orderly : Orderly g.onBattlefield g.nextFloating g.floating →
    Orderly g.onBattlefield g.nextFloating g'.floating

namespace Tidied

theorem trans {g'' : Game} (h : Tidied g g') (h' : Tidied g' g'') : Tidied g g'' where
  standing := h.standing.trans h'.standing
  control := h.control.trans h'.control
  zones := h'.zones.trans h.zones
  nextFloating := h'.nextFloating.trans h.nextFloating
  orderly hfloating := by
    have hnext := h'.orderly
    rw [funext h.standing.onBattlefield, h.nextFloating] at hnext
    exact hnext (h.orderly hfloating)

theorem sound (h : Tidied g g') (hsound : g.Sound) : g'.Sound where
  housed := hsound.housed.congr h.standing (h.zones ▸ hsound.housed.consistent)
  orderly := by
    rw [funext h.standing.onBattlefield, h.nextFloating]
    exact h.orderly hsound.orderly

theorem poised (h : Tidied g g') (hpoised : g.Poised) : g'.Poised :=
  hpoised.congr h.control fun o _ hzone => (h.standing.zone? o).trans hzone

end Tidied

theorem tidied_floating {fs : List FloatingEffect}
    (h : Orderly g.onBattlefield g.nextFloating g.floating →
      Orderly g.onBattlefield g.nextFloating fs) : Tidied g { g with floating := fs } :=
  ⟨.of_eq rfl rfl rfl rfl, ⟨rfl, rfl, rfl⟩, rfl, rfl, h⟩

theorem tidied_expire (keep : FloatingEffect → Bool) : Tidied g (g.expire keep).1 :=
  tidied_floating fun h => h.sublist List.filter_sublist

/-- A turn less to go changes durations only, and none that lasts until end of turn. -/
theorem tidied_countDown : Tidied g { g with floating := g.floating.map countDown } := by
  have hcount (e : FloatingEffect) : ∃ d, countDown e = { e with duration := d } ∧
      (e.duration = .endOfTurn → d = .endOfTurn) := by
    unfold countDown
    split
    · next n hduration => exact ⟨_, rfl, fun h => by cases hduration.symm.trans h⟩
    · exact ⟨e.duration, rfl, id⟩
  refine tidied_floating fun h => h.map ?_ ?_ ?_ ?_ <;> intro e <;>
    obtain ⟨d, hcounted, hlast⟩ := hcount e <;> rw [hcounted]
  exact hlast

theorem tidied_wearOff (os : List ObjectId) :
    Tidied g (os.foldl (fun g o => g.eraseFacet o .damage) g) := by
  induction os generalizing g with
  | nil => exact ⟨.refl g, .refl g, rfl, rfl, id⟩
  | cons o rest ih =>
    have hfirst : Tidied g (g.eraseFacet o .damage) :=
      ⟨sameStanding_eraseFacet (by decide) o, ⟨rfl, rfl, rfl⟩, rfl, rfl, id⟩
    exact hfirst.trans ih

theorem tidied_endOfTurn : Tidied g g.endOfTurn.1 :=
  ((tidied_countDown.trans (tidied_expire outlastsTurn)).trans (tidied_wearOff _)).trans
    (tidied_expire _)

/-- A move from a sound and poised game leads to one. -/
theorem sound_poised_apply (hsound : g.Sound) (hpoised : g.Poised) (m : Move)
    (hseated : m.Seated g) : (m.apply g).Sound ∧ (m.apply g).Poised := by
  have htidied {g' : Game} (h : Tidied g g') : g'.Sound ∧ g'.Poised :=
    ⟨h.sound hsound, h.poised hpoised⟩
  cases m with
  | spawn card owner kind =>
    obtain ⟨o, g', hspawn, happly⟩ := spawnCard_cases hsound.housed card kind hseated
    rw [happly]
    exact ⟨hsound.spawn hspawn, hpoised.congr (sameControl_spawn hspawn) fun o z =>
      zone?_of_spawn hspawn⟩
  | execute rules e ctx =>
    exact (rules.proper_execute hsound hpoised e ctx).sound_poised hsound hpoised
  | resume rules r =>
    exact (rules.proper_resume hsound hpoised r).sound_poised hsound hpoised
  | endOfTurn => exact htidied tidied_endOfTurn
  | endOfCombat => exact htidied (tidied_expire _)
  | beginTurn s => exact htidied (tidied_expire _)
  | sweep => exact htidied (tidied_expire _)
  | schedule turn => exact htidied ⟨.of_eq rfl rfl rfl rfl, ⟨rfl, rfl, rfl⟩, rfl, rfl, id⟩

/-- Every reachable game is sound and poised. -/
theorem Reachable.sound_poised (h : g.Reachable) : g.Sound ∧ g.Poised := by
  induction h with
  | start h => exact ⟨sound_start h, poised_start h⟩
  | move m _ hseated ih => exact sound_poised_apply ih.1 ih.2 m hseated

theorem Reachable.sound (h : g.Reachable) : g.Sound := h.sound_poised.1

theorem Reachable.poised (h : g.Reachable) : g.Poised := h.sound_poised.2

end Game

end CardGame
