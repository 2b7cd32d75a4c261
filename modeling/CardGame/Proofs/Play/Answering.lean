import CardGame.Proofs.Play.Decisions
import CardGame.Proofs.Play.Invariant
import CardGame.Proofs.Resolve.Carrying

/-!
Answers to decisions as they were put. Work that does no more than the answer says, with nothing
beneath it on the stack, carries out every answer that fits. In a round of sacrifices that takes for
granted that the players asked before still control what they picked. They do, as long as floating
effects do not end with a turn or a combat while the round goes on (`Game.Unbroken`).
-/

namespace CardGame

open Resolve

/-- Whether a result is a failure. -/
def Result.isFailed : Result → Bool
  | .failed _ _ => true
  | _ => false

variable {rules : Rules} {lasting : Duration → Prop} {P : Game → Prop}

namespace Rules

theorem furnished_answering {g : Game} (hfurnished : g.Furnished) :
    ({ g with pending := none, stack := [] } : Game).Furnished :=
  hfurnished.congr (.of_eq rfl rfl rfl) (sound_answering hfurnished.sound)

end Rules

namespace Game

variable {g : Game}

theorem furnished_start {s : TableSettings} (h : start s = .ok g) : g.Furnished := by
  have hsound := sound_start h
  obtain ⟨hplayers, rfl⟩ := start_eq_ok h
  refine ⟨hsound, fun z hz => ?_, fun seat hseat => ?_⟩
  · exact (Seat.mem_all_iff hplayers).mp (Zones.knows_empty_iff.mp hz)
  · have hcontains := (contains_ofSeats_iff hplayers
      (fun _ => Facets.empty.insert (.player s.startingLife 0)) (.ofSeat seat)).mpr hseat
    obtain ⟨fs, hfs⟩ := SortedMap.contains_iff.mp hcontains
    obtain ⟨seat', -, hentry⟩ := List.mem_map.mp (SortedMap.mem_of_find?_ofList hfs)
    have hplayer : Facets.empty.insert (.player s.startingLife 0) = fs := congrArg Prod.snd hentry
    rw [isAlive, facets, hfs, Option.getD_some, ← hplayer]
    rfl

theorem kept_sameTable : Kept fun g => ∃ s g₀, Game.start s = .ok g₀ ∧ SameTable g₀ g :=
  .of_sameTable fun htable ⟨s, g₀, hstart, hsame⟩ => ⟨s, g₀, hstart, hsame.trans htable⟩

/-- A game goes on at the table where it started. -/
theorem Reachable.sameTable (h : g.Reachable) :
    ∃ s g₀, Game.start s = .ok g₀ ∧ SameTable g₀ g :=
  kept_sameTable.reachable (fun hstart => ⟨_, _, hstart, .of_eq rfl rfl rfl⟩) h

/-- In every game that comes up nothing is missing from the table. -/
theorem Reachable.furnished (h : g.Reachable) : g.Furnished := by
  obtain ⟨s, g₀, hstart, htable⟩ := h.sameTable
  exact (furnished_start hstart).congr htable h.sound

/-- The zones are those of the players. -/
theorem Reachable.seats_zones (h : g.Reachable) : g.zones.seats = g.seats := by
  obtain ⟨s, g₀, hstart, htable⟩ := h.sameTable
  obtain ⟨-, rfl⟩ := start_eq_ok hstart
  exact htable.owners.trans htable.seats.symm

end Game

variable {g : Game} {d : Decision} {work : Suspension} {answer : Answer}

theorem Game.Poised.fits {below : List Frame} (h : g.Poised) (hpending : g.pending = some d)
    (hstack : g.stack = ⟨some d.id, work⟩ :: below) : work.Fits d.question g := by
  cases h with
  | idle hidle =>
    rw [hidle] at hpending
    cases hpending
  | waiting d' work' groups hpending' hstack' hgroups hissued hfits =>
    rw [hpending'] at hpending
    cases hpending
    rw [hstack'] at hstack
    cases hstack
    exact hfits

/-- Nothing but simple work is suspended, and it waits for the pending decision. -/
structure Game.WaitsWith (g : Game) (d : Decision) (work : Suspension) : Prop where
  furnished : g.Furnished
  pending : g.pending = some d
  stack : g.stack = [⟨some d.id, work⟩]
  simple : work.isSimple = true
  fits : work.Fits d.question g

/-- In a game that comes up, simple work alone on the stack waits for the pending decision. -/
theorem Game.Reachable.waitsWith (h : g.Reachable) (hpending : g.pending = some d)
    (hstack : g.stack = [⟨some d.id, work⟩]) (hsimple : work.isSimple = true) :
    g.WaitsWith d work :=
  ⟨h.furnished, hpending, hstack, hsimple, h.poised.fits hpending hstack⟩

/-- How far the resolution of an answer has got when suspended work goes on that nothing lies
beneath. -/
def Progress.resolving (g : Game) (d : Decision) : Progress where
  game := { g with pending := none, stack := [] }
  events := [.decisionResolved d.id d.player]

namespace Rules

/-- A chain with nothing on the stack changes nothing. -/
theorem chain_of_stack_nil (rules : Rules) (steps : Nat) {p : Progress}
    (hstack : p.game.stack = []) : rules.chain steps .done p = .ok (.done, p) := by
  unfold chain
  rw [game_bind, hstack]
  rfl

/-- Work that is alone on the stack goes on with nothing beneath it. -/
theorem proceed_alone (rules : Rules) (hstack : g.stack = [⟨some d.id, work⟩]) :
    rules.proceed d work answer { game := g } =
      (work.resume rules d answer (.resolving g d)).bind fun r =>
        rules.chain rules.chainLimit r.1 r.2 := by
  have htail : g.stack.tail = [] := by rw [hstack, List.tail_cons]
  unfold proceed
  simp only [Progress.resolving, ← htail]
  rfl

/-- Simple work that is alone on the stack decides what resuming comes to. -/
theorem resume_eq_ofRun (rules : Rules) (h : g.WaitsWith d work)
    (hcheck : d.question.check answer = .ok ()) : rules.resume g ⟨d.id, answer⟩ =
      .ofRun g (settled (work.resume rules d answer) (.resolving g d)) := by
  have hsound : (Progress.resolving g d).game.Sound := sound_answering h.furnished.sound
  have hready : work.Ready answer (Progress.resolving g d).game :=
    (Suspension.ready_of_fits h.fits hcheck).congr fun _ _ => id
  have hasking : Asking (fun _ => True) (work.Ready answer) (work.resume rules d answer) :=
    Suspension.asking_resume h.simple answer
  have hproceed : rules.proceed d work answer { game := g } =
      work.resume rules d answer (.resolving g d) := by
    rw [rules.proceed_alone h.stack, hasking.eq_ask hsound hready, bind_apply]
    cases hrun : heldBack (work.resume rules d answer) (.resolving g d) with
    | error failure => rfl
    | ok result =>
      obtain ⟨request, q⟩ := result
      have hcontrol := (hasking.directly.runs hsound hready hrun).1.sameControl
      cases request with
      | none => exact rules.chain_of_stack_nil _ hcontrol.stack
      | some request =>
        simp only [Except.bind, ask_some, chain_paused]
        rfl
  rw [resume_waiting h.pending h.stack, objection, if_pos rfl, hcheck]
  change Result.ofRun g (settled _ _) = _
  rw [settled_apply, settled_apply, hproceed]

theorem isFailed_of_succeeds (h : g.WaitsWith d work) (hcheck : d.question.check answer = .ok ())
    {Q : Outcome → Game → Prop} (hsucceeds : Succeeds P (work.resume rules d answer) Q)
    (hp : P (Progress.resolving g d).game) :
    (rules.resume g ⟨d.id, answer⟩).isFailed = false := by
  obtain ⟨outcome, q, hrun, -⟩ := hsucceeds.runs (furnished_answering h.furnished) hp
  rw [rules.resume_eq_ofRun h hcheck, settled_apply, hrun]
  cases outcome <;> rfl

theorem isFailed_of_fails (h : g.WaitsWith d work) (hcheck : d.question.check answer = .ok ())
    (hfails : Fails P (work.resume rules d answer)) (hp : P (Progress.resolving g d).game) :
    (rules.resume g ⟨d.id, answer⟩).isFailed = true := by
  obtain ⟨failure, hrun⟩ := hfails.fails (furnished_answering h.furnished) hp
  rw [rules.resume_eq_ofRun h hcheck, settled_apply, hrun]
  rfl

end Rules

/-- Whether a move is a hook of the turn at which floating effects end. -/
def Move.isHook : Move → Bool
  | .endOfTurn | .endOfCombat | .beginTurn _ => true
  | _ => false

namespace Game

variable {g g' : Game}

/-- Whether the topmost work is a round of choices. -/
def isAmidRound (g : Game) : Bool := g.stack.head?.any (·.work.isRound)

/-- Every floating effect still works. -/
def Swept (g : Game) : Prop := ∀ e ∈ g.floating, g.isActive e = true

/-- A game that has come up without such a hook since no round of choices was under way. -/
inductive Unbroken : Game → Prop
  | outside {g : Game} (h : g.Reachable) (hround : g.isAmidRound = false) : Unbroken g
  | move {g : Game} (m : Move) (h : Unbroken g) (hhook : m.isHook = false)
      (hseated : m.Seated g) : Unbroken (m.apply g)

theorem RoundStands.congr (h : g.RoundStands) (hcontrol : SameControl g g')
    (hkeeps : g.KeepsControl g') : g'.RoundStands := by
  intro d work below hpending hstack hround
  rw [hcontrol.pending] at hpending
  rw [hcontrol.stack] at hstack
  obtain ⟨hcommands, hstand⟩ := h d work below hpending hstack hround
  exact ⟨hcommands.congr hkeeps, hstand.congr hkeeps⟩

theorem roundStands_of_not_amid (h : g.isAmidRound = false) : g.RoundStands := by
  intro d work below _ hstack hround
  simp [isAmidRound, hstack, hround] at h

theorem Awaits.roundStands {d : Decision} {work : Suspension} (h : g.Awaits True d work) :
    g.RoundStands := by
  intro d' work' below hpending hstack _
  obtain ⟨below', htop⟩ := h.top
  rw [h.pending] at hpending
  cases hpending
  rw [htop] at hstack
  cases hstack
  exact ⟨h.awaits.commands, h.awaits.stand trivial⟩

theorem onBattlefield_of_stays {o : ObjectId} (hstays : g.Stays g')
    (h : g.onBattlefield o = true) : g'.onBattlefield o = true :=
  liesAt_battlefield_iff.mp ((liesAt_battlefield_iff.mpr h).stays hstays)

/-- A floating effect works on while nothing leaves its zone and permanents stay attached. -/
theorem isActive_of_stays {e : FloatingEffect} (hstays : g.Stays g')
    (hfacets : ∀ o, g.onBattlefield o = true → g'.facets o = g.facets o)
    (h : g.isActive e = true) : g'.isActive e = true := by
  unfold isActive at *
  rw [Bool.and_eq_true] at *
  obtain ⟨haffects, hlasts⟩ := h
  constructor
  · obtain ⟨o, ho, hthere⟩ := List.any_eq_true.mp haffects
    exact List.any_eq_true.mpr ⟨o, ho, onBattlefield_of_stays hstays hthere⟩
  · have hsource {source : Option ObjectId} {p p' : ObjectId → Bool}
        (hp : ∀ o, p o = true → p' o = true) (h : source.any p = true) : source.any p' = true := by
      cases source with
      | none => exact h
      | some o => exact hp o h
    revert hlasts
    cases e.duration with
    | whileSourceOnBattlefield => exact hsource fun o => onBattlefield_of_stays hstays
    | whileAttached =>
      refine hsource fun o hattached => ?_
      obtain ⟨hthere, hhost⟩ := (Bool.and_eq_true _ _).mp hattached
      rw [hfacets o hthere, onBattlefield_of_stays hstays hthere, hhost]
      rfl
    | forTurns n => cases n <;> exact id
    | _ => exact id

/-- Nobody loses control of a permanent to a card that is brought in. -/
theorem keepsControl_spawn {card : Card} {owner : Seat} {kind : ZoneKind} {token : Bool}
    {o : ObjectId} (hhoused : g.Housed) (hswept : g.Swept)
    (h : spawn card owner kind token g = .ok o g') : g.KeepsControl g' ∧ g'.Swept := by
  obtain ⟨hseats, hfloating⟩ := spawn_frame h
  have hfacets {o' : ObjectId} (hcontains : g.contains o' = true) :
      g'.facets o' = g.facets o' := by
    refine facets_spawn_of_ne h ?_
    rintro rfl
    rw [hhoused.next_not_contained] at hcontains
    cases hcontains
  have hactive : g'.Swept := by
    intro e he
    rw [hfloating] at he
    refine isActive_of_stays (fun o z => zone?_of_spawn h) (fun o hthere => ?_) (hswept e he)
    obtain ⟨s, hzone⟩ := onBattlefield_iff.mp hthere
    exact hfacets (hhoused.contains_of_zone? hzone)
  refine ⟨fun o' s hcontrols rules => ?_, hactive⟩
  have hsame := hfacets (Rules.contains_of_controller? (hcontrols rules))
  rw [← hcontrols rules]
  refine Rules.controller?_project_congr ?_ ?_
  · rw [Characteristics.base?_congr hseats hsame]
  · rw [List.filter_eq_self.mpr hactive, List.filter_eq_self.mpr hswept, hfloating]

end Game

theorem Result.swept_of_conclude {plan : Resolve (Option Stop)} {p : Progress} {before g : Game}
    {d : Decision} {es : List Event} (h : Result.conclude before (plan p) = .paused g d es) :
    g.Swept := by
  obtain ⟨stop, q, -, rfl, -⟩ := Result.conclude_eq_paused h
  intro e he
  exact (List.mem_filter.mp he).2

namespace Rules

variable {g g' : Game} {d : Decision} {es : List Event}

theorem swept_of_execute {e : Effect} {ctx : Context} (hsound : g.Sound)
    (h : rules.execute g e ctx = .paused g' d es) : g'.Swept := by
  cases hpending : g.pending with
  | some d' =>
    unfold execute at h
    rw [hpending] at h
    cases h
  | none =>
    rw [execute_eq hsound hpending] at h
    exact Result.swept_of_conclude h

theorem swept_of_resume {r : Response} (hsound : g.Sound) (hpoised : g.Poised)
    (h : rules.resume g r = .paused g' d es) : g'.Swept := by
  rcases rules.resume_cases hsound hpoised r with
    ⟨failure, hfailed, -⟩ | ⟨d, work, groups, hgroups, hready, hplan⟩
  · rw [hfailed] at h
    cases h
  · rw [hplan] at h
    exact Result.swept_of_conclude h

end Rules

namespace Game

variable {g g' : Game} {d : Decision}

private theorem stands_result {before : Game} {r : Result} (hproper : r.Proper before)
    (hbefore : before.isAmidRound = true → before.RoundStands ∧ before.Swept)
    (hpaused : ∀ g d es, r = .paused g d es → (∃ work, g.Awaits True d work) ∧ g.Swept)
    (hround : r.game.isAmidRound = true) : r.game.RoundStands ∧ r.game.Swept := by
  cases r with
  | success g es =>
    have hstack : g.stack = [] := hproper.2.2.1
    simp [Result.game, isAmidRound, hstack] at hround
  | paused g d es =>
    obtain ⟨⟨work, hawaits⟩, hswept⟩ := hpaused g d es rfl
    exact ⟨hawaits.roundStands, hswept⟩
  | failed g failure =>
    cases hproper
    exact hbefore hround

/-- Through an unbroken round the players control what they picked and what they are offered. -/
theorem Unbroken.stands (h : g.Unbroken) :
    g.Reachable ∧ (g.isAmidRound = true → g.RoundStands ∧ g.Swept) := by
  induction h with
  | outside h hround =>
    refine ⟨h, fun hamid => ?_⟩
    rw [hround] at hamid
    cases hamid
  | @move g m hunbroken hhook hseated ih =>
    obtain ⟨hreachable, ih⟩ := ih
    refine ⟨.move m hreachable hseated, ?_⟩
    have hsound := hreachable.sound
    have hpoised := hreachable.poised
    have hstands : g.RoundStands := by
      cases hround : g.isAmidRound with
      | true => exact (ih hround).1
      | false => exact roundStands_of_not_amid hround
    cases m with
    | spawn card owner kind =>
      obtain ⟨o, g', hspawn, happly⟩ := spawnCard_cases hsound.housed card kind hseated
      rw [happly]
      have hcontrol := sameControl_spawn hspawn
      intro hround
      rw [isAmidRound, hcontrol.stack] at hround
      obtain ⟨hstands, hswept⟩ := ih hround
      obtain ⟨hkeeps, hswept'⟩ := keepsControl_spawn hsound.housed hswept hspawn
      exact ⟨hstands.congr hcontrol hkeeps, hswept'⟩
    | execute rules e ctx =>
      refine stands_result (rules.proper_execute hsound hpoised e ctx) ih ?_
      intro g' d es hpaused
      exact ⟨Rules.awaits_of_execute hsound hpaused, Rules.swept_of_execute hsound hpaused⟩
    | resume rules r =>
      refine stands_result (rules.proper_resume hsound hpoised r) ih ?_
      intro g' d es hpaused
      exact ⟨Rules.awaits_of_resume hsound hpoised hreachable.answerable (fun _ => hstands)
        hpaused, Rules.swept_of_resume hsound hpoised hpaused⟩
    | sweep =>
      intro hround
      obtain ⟨hstands, hswept⟩ := ih hround
      refine ⟨hstands.congr ⟨rfl, rfl, rfl⟩ (keepsControl_of_eq (fun _ => rfl) ?_), ?_⟩
      · change (g.floating.filter g.isActive).filter g.isActive = _
        rw [List.filter_filter]
        simp only [Bool.and_self]
      · intro e he
        exact hswept e (List.mem_filter.mp he).1
    | schedule turn =>
      intro hround
      obtain ⟨hstands, hswept⟩ := ih hround
      exact ⟨hstands.congr ⟨rfl, rfl, rfl⟩ (keepsControl_of_eq (fun _ => rfl) rfl), hswept⟩
    | endOfTurn => cases hhook
    | endOfCombat => cases hhook
    | beginTurn s => cases hhook

theorem Unbroken.roundStands (h : g.Unbroken) : g.RoundStands := by
  cases hround : g.isAmidRound with
  | true => exact (h.stands.2 hround).1
  | false => exact roundStands_of_not_amid hround

/-- Answering a decision as it was put, about work that does no more than the answer says and has
nothing beneath it, never fails, as long as the players asked before in a round of sacrifices still
control what they picked. They do if no hook of the turn has come in between. -/
theorem Reachable.carried_out {es : List Event} {work : Suspension} {answer : Answer}
    (h : g.Reachable)
    (hpaused : (∃ rules e ctx, Rules.execute rules g e ctx = .paused g' d es) ∨
      ∃ rules r, Rules.resume rules g r = .paused g' d es)
    (hstack : g'.stack = [⟨some d.id, work⟩]) (hleaf : work.isLeaf = true)
    (hcheck : d.question.check answer = .ok ()) :
    (work.PicksStand g' → ∀ rules, (Rules.resume rules g' ⟨d.id, answer⟩).isFailed = false) ∧
      (g.Unbroken → work.PicksStand g') := by
  have hreachable : g'.Reachable := by
    rcases hpaused with ⟨rules, e, ctx, hexecute⟩ | ⟨rules, r, hresume⟩
    · have hmoved := Reachable.move (.execute rules e ctx) h trivial
      rwa [Move.apply, hexecute] at hmoved
    · have hmoved := Reachable.move (.resume rules r) h trivial
      rwa [Move.apply, hresume] at hmoved
  have hthis {stood : Prop} {work' : Suspension} (hawaits : g'.Awaits stood d work') :
      work' = work := by
    obtain ⟨below, htop⟩ := hawaits.top
    rw [hstack] at htop
    cases htop
    rfl
  constructor
  · intro hstand rules
    obtain ⟨work', hawaits⟩ := h.awaits hpaused
    cases hthis hawaits
    obtain ⟨hfair, hconsumes, hholds, hcommands, -⟩ := hawaits.awaits
    have hreceives := hconsumes.receives (Question.check_eq_ok_iff.mp hcheck)
    have hwaits := hreachable.waitsWith hawaits.pending hstack
      (Suspension.isSimple_of_isLeaf hleaf)
    have hcarries : work.Carries d.question g' := ⟨hholds, hcommands, hstand⟩
    exact Rules.isFailed_of_succeeds hwaits hcheck
      (work.succeeds_resume rules hleaf rfl hfair hreceives)
      (hcarries.congr (fun _ _ => id) (keepsControl_of_eq (fun _ => rfl) rfl))
  · intro hunbroken
    obtain ⟨work', hawaits⟩ : ∃ work, g'.Awaits True d work := by
      rcases hpaused with ⟨rules, e, ctx, hexecute⟩ | ⟨rules, r, hresume⟩
      · exact Rules.awaits_of_execute h.sound hexecute
      · exact Rules.awaits_of_resume h.sound h.poised h.answerable
          (fun _ => hunbroken.roundStands) hresume
    obtain rfl := hthis hawaits
    exact hawaits.awaits.stand trivial

/-- Each of two players sacrifices one of two creatures, and the second one's answer is carried
out. -/
theorem carried_out_of_sacrifices : ∃ g₀, start {} = .ok g₀ ∧
    let bear : CardDefinition := .creature ⟨7⟩ "Bear" 2 2
    let round : PlayerChoice := .sacrifice .anything 1
    let r := Rules.resume {} ((Move.execute {} (.eachPlayerChooses .eachPlayer round) {}).apply
      ((Move.spawn bear ⟨1⟩ .battlefield).apply ((Move.spawn bear ⟨1⟩ .battlefield).apply
        ((Move.spawn bear ⟨0⟩ .battlefield).apply
          ((Move.spawn bear ⟨0⟩ .battlefield).apply g₀))))) ⟨⟨1⟩, .cards [⟨2⟩]⟩
    r = .paused r.game ⟨⟨2⟩, ⟨1⟩, "Choose 1 permanent(s) to sacrifice", none,
      .cards [⟨4⟩, ⟨5⟩] 1 1 false⟩ r.events ∧
    (Rules.resume {} r.game ⟨⟨2⟩, .cards [⟨4⟩]⟩).isFailed = false := by
  refine ⟨_, rfl, by decide +kernel, ?_⟩
  have hspawned {g : Game} (s : Seat) (hs : s.index < g.seats) (h : g.Reachable) :
      ((Move.spawn (.creature ⟨7⟩ "Bear" 2 2) s .battlefield).apply g).Reachable := .move _ h hs
  have hstart := Reachable.start (s := {}) rfl
  have hbears := hspawned ⟨1⟩ Nat.one_lt_two (hspawned ⟨1⟩ Nat.one_lt_two
    (hspawned ⟨0⟩ Nat.zero_lt_two (hspawned ⟨0⟩ Nat.zero_lt_two hstart)))
  have hunbroken := Unbroken.move
    (.execute {} (.eachPlayerChooses .eachPlayer (.sacrifice .anything 1)) {})
    (.outside hbears (by decide +kernel)) rfl trivial
  have hanswered (g : Game) (hunbroken : g.Unbroken) (r : Result)
      (hr : Rules.resume {} g ⟨⟨1⟩, .cards [⟨2⟩]⟩ = r)
      (hpaused : r = .paused r.game ⟨⟨2⟩, ⟨1⟩, "Choose 1 permanent(s) to sacrifice", none,
        .cards [⟨4⟩, ⟨5⟩] 1 1 false⟩ r.events)
      (hstack : r.game.stack = [⟨some ⟨2⟩, .eachPlayerChooses (.sacrifice .anything 1) ⟨1⟩ []
        [(⟨0⟩, .objects [⟨2⟩])] {}⟩]) :
      (Rules.resume {} r.game ⟨⟨2⟩, .cards [⟨4⟩]⟩).isFailed = false := by
    obtain ⟨hcarried, hstands⟩ := Reachable.carried_out hunbroken.stands.1
      (Or.inr ⟨{}, _, hr.trans hpaused⟩) hstack rfl
      (show Question.check (.cards [⟨4⟩, ⟨5⟩] 1 1 false) (.cards [⟨4⟩]) = .ok () from rfl)
    exact hcarried (hstands hunbroken) {}
  exact hanswered _ hunbroken _ rfl (by decide +kernel) (by decide +kernel)

/-- When control of a permanent ends with the turn, a sacrifice picked before can no longer be
carried out, so that the next player's answer fails. -/
theorem not_carried_out_after_endOfTurn : ¬ ∀ (g g' : Game) (d : Decision) (es : List Event)
    (work : Suspension) (answer : Answer) (rules : Rules), g.Reachable →
    ((∃ rules e ctx, Rules.execute rules g e ctx = .paused g' d es) ∨
      ∃ rules r, Rules.resume rules g r = .paused g' d es) →
    g'.stack = [⟨some d.id, work⟩] → work.isLeaf = true → d.question.check answer = .ok () →
    (rules.resume g' ⟨d.id, answer⟩).isFailed = false := by
  intro h
  have hspawned {g : Game} (s : Seat) (hs : s.index < g.seats) (h : g.Reachable) :
      ((Move.spawn (.creature ⟨7⟩ "Bear" 2 2) s .battlefield).apply g).Reachable := .move _ h hs
  have hstart := Reachable.start (s := {}) rfl
  have hbears := hspawned ⟨1⟩ Nat.one_lt_two (hspawned ⟨1⟩ Nat.one_lt_two
    (hspawned ⟨1⟩ Nat.one_lt_two (hspawned ⟨0⟩ Nat.zero_lt_two hstart)))
  have hstolen := Reachable.move
    (.execute {} (.continuous (.gainControl (.target 0) .endOfTurn)) { targets := [⟨3⟩] })
    hbears trivial
  have hasked := Reachable.move
    (.execute {} (.eachPlayerChooses .eachPlayer (.sacrifice .anything 1)) {}) hstolen trivial
  have hended := Reachable.move .endOfTurn hasked trivial
  have hanswered (g : Game) (hreachable : g.Reachable) (r : Result)
      (hr : Rules.resume {} g ⟨⟨1⟩, .cards [⟨3⟩]⟩ = r)
      (hpaused : r = .paused r.game ⟨⟨2⟩, ⟨1⟩, "Choose 1 permanent(s) to sacrifice", none,
        .cards [⟨3⟩, ⟨4⟩, ⟨5⟩] 1 1 false⟩ r.events)
      (hstack : r.game.stack = [⟨some ⟨2⟩, .eachPlayerChooses (.sacrifice .anything 1) ⟨1⟩ []
        [(⟨0⟩, .objects [⟨3⟩])] {}⟩]) :
      (Rules.resume {} r.game ⟨⟨2⟩, .cards [⟨4⟩]⟩).isFailed = false :=
    h g _ _ _ _ (.cards [⟨4⟩]) {} hreachable (Or.inr ⟨{}, _, hr.trans hpaused⟩) hstack rfl rfl
  have hcarried := hanswered _ hended _ rfl (by decide +kernel) (by decide +kernel)
  revert hcarried
  decide +kernel

end Game

end CardGame
