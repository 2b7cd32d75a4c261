import CardGame.Proofs.Play.Reachable
import CardGame.Proofs.Resolve.Stopping

/-!
What players are asked over whole runs. Whenever a decision is pending its question is fair and goes
with the work in the topmost frame, and what is at stake lies where the work will look for it
(`Game.Answerable`). So there is an answer that fits, and an answer is turned down exactly if it
does not fit, before any work is done.
-/

namespace CardGame

open Resolve

variable {rules : Rules} {stood : Prop}

theorem Result.conclude_eq_paused {plan : Resolve (Option Stop)} {p : Progress} {before g : Game}
    {d : Decision} {es : List Event}
    (h : Result.conclude before (plan p) = .paused g d es) :
    ∃ stop q, plan p = .ok (some stop, q) ∧ g = (q.stoppedAt stop).settled.game ∧
      d = stop.request.decision ⟨q.game.nextDecision⟩ := by
  cases hrun : plan p with
  | error failure =>
    rw [hrun] at h
    cases h
  | ok result =>
    obtain ⟨stop, q⟩ := result
    rw [hrun] at h
    cases stop with
    | none => cases h
    | some stop =>
      cases h
      exact ⟨stop, q, rfl, rfl, rfl⟩

namespace Game

variable {g g' : Game} {d : Decision} {work : Suspension} {q : Question}

/-- Players control what they controlled. -/
def KeepsControl (g g' : Game) : Prop := ∀ o s, g.Controls s o → g'.Controls s o

theorem keepsControl_of_eq
    (hbase : ∀ o, (Characteristics.base? g' o).map (·.controller) =
      (Characteristics.base? g o).map (·.controller))
    (hactive : g'.floating.filter g'.isActive = g.floating.filter g.isActive) :
    g.KeepsControl g' := by
  intro o s hcontrols rules
  rw [Rules.controller?_project_congr (hbase o) hactive]
  exact hcontrols rules

/-- The pending decision awaits an answer, for which the topmost frame holds the work. -/
structure Awaits (stood : Prop) (g : Game) (d : Decision) (work : Suspension) : Prop where
  pending : g.pending = some d
  top : ∃ below, g.stack = ⟨some d.id, work⟩ :: below
  awaits : work.Awaits stood d.question g

end Game

theorem Suspension.Awaits.congr {work : Suspension} {q : Question} {g g' : Game}
    (h : work.Awaits stood q g) (hstays : g.Stays g') (hcontrol : g.KeepsControl g') :
    work.Awaits stood q g' where
  fair := h.fair
  consumes := h.consumes
  holds := h.holds.stays hstays
  commands := h.commands.congr hcontrol
  stand hstood := (h.stand hstood).congr hcontrol

/-- What a plan that stops in order leaves behind awaits an answer in order. -/
theorem Resolve.Stops.awaits {P : Game → Prop} {plan : Resolve (Option Stop)} {p : Progress}
    {before g : Game} {d : Decision} {es : List Event}
    (hstops : Stops P plan (Request.Proper stood)) (hsound : p.game.Sound) (hp : P p.game)
    (h : Result.conclude before (plan p) = .paused g d es) : ∃ work, g.Awaits stood d work := by
  obtain ⟨stop, q, hrun, rfl, rfl⟩ := Result.conclude_eq_paused h
  have hproper := hstops.stops hsound hp hrun
  refine ⟨stop.request.work, rfl, ⟨_, rfl⟩, hproper.congr (fun _ _ => id) ?_⟩
  refine Game.keepsControl_of_eq (fun _ => rfl) ?_
  change (q.game.floating.filter q.game.isActive).filter q.game.isActive = _
  rw [List.filter_filter]
  simp only [Bool.and_self]

namespace Rules

theorem stops_planGroups (groups : List Group) (hgroups : ∀ group ∈ groups, group.1 ≠ []) :
    Stops (fun _ => True) (rules.planGroups groups) (Request.Proper stood) := by
  induction groups with
  | nil => exact .none
  | cons group rest ih =>
    have hrest : ∀ group ∈ rest, group.1 ≠ [] := fun group hgroup =>
      hgroups group (List.mem_cons_of_mem _ hgroup)
    exact .followedBy (Effect.directly_planAll _ _ fun _ _ => trivial)
      (Effect.stops_planAll _ _) (ih hrest)

theorem stops_planAnswer {d : Decision} {work : Suspension} {answer : Answer}
    {groups : List Group} (hfair : d.question.Fair) (hconsumes : work.Consumes d.question)
    (haccepts : d.question.Accepts answer) (hgroups : ∀ group ∈ groups, group.1 ≠ []) :
    Stops (fun g => work.Ready answer g ∧ work.Ripe stood d.question g)
      (rules.planAnswer d work answer groups) (Request.Proper stood) := by
  refine .followedBy ((work.directly_plan answer).of_pre fun _ h => h.1) ?_
    (stops_planGroups groups hgroups)
  exact (work.stops_plan rfl hfair (hconsumes.receives haccepts)).of_pre fun _ h => h.2

/-- What executing an effect asks awaits an answer in order. -/
theorem awaits_of_execute {g g' : Game} {e : Effect} {ctx : Context} {d : Decision}
    {es : List Event} (hsound : g.Sound) (h : rules.execute g e ctx = .paused g' d es) :
    ∃ work, g'.Awaits stood d work := by
  cases hpending : g.pending with
  | some d' =>
    unfold execute at h
    rw [hpending] at h
    cases h
  | none =>
    rw [execute_eq hsound hpending] at h
    exact Stops.awaits (Effect.stops_plan e ctx) hsound trivial h

end Rules

namespace Game

variable {g g' : Game} {d d' : Decision} {work : Suspension}

/-- If a decision is pending, its question is fair and goes with the topmost frame, and what is at
stake is in its place. -/
def Answerable (g : Game) : Prop :=
  ∀ d work below, g.pending = some d → g.stack = ⟨some d.id, work⟩ :: below →
    d.question.Fair ∧ work.Consumes d.question ∧ work.Holds d.question g

theorem answerable_of_idle (hpending : g.pending = none) : g.Answerable := by
  intro d work below hd
  rw [hpending] at hd
  cases hd

theorem Awaits.answerable (h : g.Awaits stood d work) : g.Answerable := by
  intro d' work' below hpending hstack
  obtain ⟨below', htop⟩ := h.top
  rw [h.pending] at hpending
  cases hpending
  rw [htop] at hstack
  cases hstack
  exact ⟨h.awaits.fair, h.awaits.consumes, h.awaits.holds⟩

/-- While the player thinks things may change, as long as nothing leaves its zone. -/
theorem Answerable.congr (h : g.Answerable) (hcontrol : SameControl g g') (hstays : g.Stays g') :
    g'.Answerable := by
  intro d work below hpending hstack
  rw [hcontrol.pending] at hpending
  rw [hcontrol.stack] at hstack
  obtain ⟨hfair, hconsumes, hholds⟩ := h d work below hpending hstack
  exact ⟨hfair, hconsumes, hholds.stays hstays⟩

end Game

namespace Game

/-- In a round of choices, what is offered and what was picked for a sacrifice is controlled by the
players. -/
def RoundStands (g : Game) : Prop :=
  ∀ d work below, g.pending = some d → g.stack = ⟨some d.id, work⟩ :: below →
    work.RoundStands d.question g

end Game

/-- What going on after an answer asks awaits an answer in order. In a round of choices, if what was
picked and offered is still controlled by the players, so is what has been picked now. -/
theorem Rules.awaits_of_resume {g g' : Game} {r : Response} {d : Decision} {es : List Event}
    (hsound : g.Sound) (hpoised : g.Poised) (hanswerable : g.Answerable)
    (hstood : stood → g.RoundStands) (h : rules.resume g r = .paused g' d es) :
    ∃ work, g'.Awaits stood d work := by
  cases hpoised with
  | idle hpending =>
    rw [resume_idle hpending] at h
    cases h
  | waiting d₀ work groups hpending hstack hgroups hissued hfits =>
    obtain ⟨hfair, hconsumes, hholds⟩ := hanswerable d₀ work _ hpending hstack
    cases hobjection : objection d₀ r with
    | some failure =>
      rw [resume_waiting hpending hstack, hobjection] at h
      cases h
    | none =>
      rcases resume_eq hsound hfits hpending hstack hobjection with ⟨-, hlong⟩ | hplan
      · rw [hlong] at h
        cases h
      · rw [hplan] at h
        have hcheck := (objection_eq_none hobjection).2
        have hready := Suspension.ready_of_fits hfits hcheck
        have haccepts := Question.check_eq_ok_iff.mp hcheck
        refine Stops.awaits (stops_planAnswer hfair hconsumes haccepts hgroups)
          (sound_answering hsound) ⟨hready.congr fun _ _ => id, ?_⟩ h
        refine ⟨hholds.stays fun _ _ => id, fun hstanding hround => ?_⟩
        obtain ⟨hcommands, hstand⟩ := hstood hstanding d₀ work _ hpending hstack hround
        have hkeeps : g.KeepsControl { g with pending := none, stack := [] } :=
          Game.keepsControl_of_eq (fun _ => rfl) rfl
        exact ⟨hcommands.congr hkeeps, hstand.congr hkeeps⟩

namespace Game

variable {g g' : Game} {d : Decision}

theorem Tidied.stays (h : Tidied g g') : g.Stays g' :=
  fun o _ hzone => (h.standing.zone? o).trans hzone

private theorem answerable_result {before : Game} {r : Result} (hproper : r.Proper before)
    (hbefore : before.Answerable)
    (hpaused : ∀ g d es, r = .paused g d es → ∃ work, g.Awaits False d work) :
    r.game.Answerable := by
  cases r with
  | success g es => exact answerable_of_idle hproper.2.1
  | paused g d es =>
    obtain ⟨work, hawaits⟩ := hpaused g d es rfl
    exact hawaits.answerable
  | failed g failure =>
    cases hproper
    exact hbefore

/-- In every game that comes up, a pending decision can be answered. -/
theorem Reachable.answerable (h : g.Reachable) : g.Answerable := by
  induction h with
  | start h =>
    obtain ⟨-, rfl⟩ := start_eq_ok h
    exact answerable_of_idle rfl
  | @move g m hreachable hseated ih =>
    have hsound := hreachable.sound
    have hpoised := hreachable.poised
    have htidied {g' : Game} (h : Tidied g g') : g'.Answerable := ih.congr h.control h.stays
    cases m with
    | spawn card owner kind =>
      obtain ⟨o, g', hspawn, happly⟩ := spawnCard_cases hsound.housed card kind hseated
      rw [happly]
      exact ih.congr (sameControl_spawn hspawn) fun o z => zone?_of_spawn hspawn
    | execute rules e ctx =>
      refine answerable_result (rules.proper_execute hsound hpoised e ctx) ih ?_
      intro g' d es hpaused
      exact Rules.awaits_of_execute hsound hpaused
    | resume rules r =>
      refine answerable_result (rules.proper_resume hsound hpoised r) ih ?_
      intro g' d es hpaused
      exact Rules.awaits_of_resume hsound hpoised ih False.elim hpaused
    | endOfTurn => exact htidied tidied_endOfTurn
    | endOfCombat => exact htidied (tidied_expire _)
    | beginTurn s => exact htidied (tidied_expire _)
    | sweep => exact htidied (tidied_expire _)
    | schedule turn => exact htidied ⟨.of_eq rfl rfl rfl rfl, ⟨rfl, rfl, rfl⟩, rfl, rfl, id⟩

/-- What executing or resuming asks awaits an answer. -/
theorem Reachable.awaits {es : List Event} (h : g.Reachable)
    (hpaused : (∃ rules e ctx, Rules.execute rules g e ctx = .paused g' d es) ∨
      ∃ rules r, Rules.resume rules g r = .paused g' d es) : ∃ work, g'.Awaits False d work := by
  rcases hpaused with ⟨rules, e, ctx, hexecute⟩ | ⟨rules, r, hresume⟩
  · exact Rules.awaits_of_execute h.sound hexecute
  · exact Rules.awaits_of_resume h.sound h.poised h.answerable False.elim hresume

/-- Nobody is asked what cannot be answered: the question is fair, and if what is to be divided is a
number of one word, as every amount is, there is an answer that fits. -/
theorem Reachable.fair_of_paused {es : List Event} (h : g.Reachable)
    (hpaused : (∃ rules e ctx, Rules.execute rules g e ctx = .paused g' d es) ∨
      ∃ rules r, Rules.resume rules g r = .paused g' d es) :
    d.question.Fair ∧ (d.question.Representable → ∃ a, d.question.check a = .ok ()) := by
  obtain ⟨work, hawaits⟩ := h.awaits hpaused
  have hfair := hawaits.awaits.fair
  refine ⟨hfair, fun hrepresentable => ?_⟩
  obtain ⟨a, haccepts⟩ := hfair.exists_accepts hrepresentable
  exact ⟨a, Question.check_eq_ok_iff.mpr haccepts⟩

/-- Three counters can be distributed among three targets of which two are the same. -/
theorem fair_of_paused_distribution : ∃ g₀ g es, start {} = .ok g₀ ∧
    let bear : CardDefinition := .creature ⟨7⟩ "Bear" 2 2
    let question : Question := .distribution 3 [⟨2⟩, ⟨3⟩, ⟨3⟩] 1
    Rules.execute {} ((Move.spawn bear ⟨1⟩ .battlefield).apply
        ((Move.spawn bear ⟨0⟩ .battlefield).apply g₀))
      (.permanent (.distributeCounters .plusOnePlusOne (.fixed 3)))
      { targets := [⟨2⟩, ⟨3⟩, ⟨3⟩] } =
        .paused g ⟨⟨1⟩, ⟨0⟩, "Distribute 3 counters", none, question⟩ es ∧
      question.Fair ∧ ∃ a, question.check a = .ok () := by
  have hreachable {g₀ : Game} (hstart : Game.start {} = .ok g₀) (m m' : Move)
      (hseated : m.Seated g₀) (hseated' : m'.Seated (m.apply g₀)) :
      (m'.apply (m.apply g₀)).Reachable := .move _ (.move m (.start hstart) hseated) hseated'
  refine ⟨_, _, _, rfl, rfl, ?_⟩
  have hfair := Reachable.fair_of_paused
    (hreachable rfl (.spawn (.creature ⟨7⟩ "Bear" 2 2) ⟨0⟩ .battlefield)
      (.spawn (.creature ⟨7⟩ "Bear" 2 2) ⟨1⟩ .battlefield) Nat.zero_lt_two Nat.one_lt_two)
    (Or.inl ⟨{}, .permanent (.distributeCounters .plusOnePlusOne (.fixed 3)),
      { targets := [⟨2⟩, ⟨3⟩, ⟨3⟩] }, rfl⟩)
  have hrepresentable : 3 ≤ maxTotal := by decide
  exact ⟨hfair.1, hfair.2 hrepresentable⟩

end Game

namespace Rules

/-- Going on with an answer that the work can go on with finds no fault with it. -/
theorem blameless_proceed (rules : Rules) (d : Decision) {work : Suspension} {answer : Answer}
    (h : work.Receives d.question answer) : Blameless (rules.proceed d work answer) := by
  refine .bind (blameless_update _) fun _ => ?_
  refine .bind (blameless_emit _) fun _ => ?_
  exact .bind (work.blameless_resume rules rfl h) fun outcome =>
    (rules.woven_chain trivial _ outcome).blameless

/-- An answer to the pending decision is turned down for a fault of its own exactly if it does not
fit the question. -/
theorem fault_resume_iff {g : Game} {d : Decision} {work : Suspension} {below : List Frame}
    {answer : Answer} {failure : Failure} (hpending : g.pending = some d)
    (hstack : g.stack = ⟨some d.id, work⟩ :: below) (hconsumes : work.Consumes d.question) :
    (rules.resume g ⟨d.id, answer⟩ = .failed g failure ∧ failure.isAnswerFault = true) ↔
      d.question.check answer = .error failure := by
  rw [resume_waiting hpending hstack, objection, if_pos rfl]
  cases hcheck : d.question.check answer with
  | error failure' =>
    simp only [Result.failed.injEq, true_and, Except.error.injEq]
    constructor
    · exact fun h => h.1
    · rintro rfl
      exact ⟨rfl, Question.fault_check hcheck⟩
  | ok u =>
    have hreceives := hconsumes.receives (Question.check_eq_ok_iff.mp hcheck)
    have hblameless := blameless_settled (rules.blameless_proceed d hreceives)
    refine iff_of_false ?_ (by simp)
    rintro ⟨hfailed, hfault⟩
    change Result.ofRun g (Resolve.settled _ _) = _ at hfailed
    cases hrun : Resolve.settled (rules.proceed d work answer) { game := g } with
    | error failure' =>
      rw [hrun] at hfailed
      cases hfailed
      have hfine := hblameless.blames hrun
      rw [hfault] at hfine
      cases hfine
    | ok result =>
      obtain ⟨outcome, q⟩ := result
      rw [hrun] at hfailed
      cases outcome <;> cases hfailed

end Rules

/-- Whenever a decision is pending, the topmost frame's work goes with its question. So an answer
to it is turned down, as no answer to this question, exactly if it does not fit, and for the reason
that it does not fit. -/
theorem Game.Reachable.paired {g : Game} {d : Decision} (h : g.Reachable)
    (hpending : g.pending = some d) :
    ∃ work below, g.stack = ⟨some d.id, work⟩ :: below ∧ work.Consumes d.question ∧
      ∀ (rules : Rules) (answer : Answer) (failure : Failure),
        (rules.resume g ⟨d.id, answer⟩ = .failed g failure ∧ failure.isAnswerFault = true) ↔
          d.question.check answer = .error failure := by
  have hanswerable := h.answerable
  cases h.poised with
  | idle hidle =>
    rw [hidle] at hpending
    cases hpending
  | waiting d' work groups hpending' hstack =>
    rw [hpending'] at hpending
    cases hpending
    obtain ⟨-, hconsumes, -⟩ := hanswerable d work _ hpending' hstack
    exact ⟨work, _, hstack, hconsumes, fun rules answer failure =>
      Rules.fault_resume_iff hpending' hstack hconsumes⟩

/-- A player asked yes or no waits with an optional effect, and whoever answers with a color is told
that it is the wrong kind of answer. -/
theorem Game.paired_of_may : ∃ g₀ g, start {} = .ok g₀ ∧
    g = (Move.execute {} (.may "Gain?" (.gainLife 1)) {}).apply g₀ ∧
    ∃ work below, g.stack = ⟨some ⟨1⟩, work⟩ :: below ∧ work.Consumes .yesNo ∧
      Rules.resume {} g ⟨⟨1⟩, .color .red⟩ = .failed g (.wrongAnswer "yes/no" "color") := by
  have hreachable {g₀ : Game} (hstart : Game.start {} = .ok g₀) (m : Move)
      (hseated : m.Seated g₀) : (m.apply g₀).Reachable := .move m (.start hstart) hseated
  refine ⟨_, _, rfl, rfl, ?_⟩
  obtain ⟨work, below, hstack, hconsumes, hfault⟩ := Reachable.paired
    (hreachable rfl (.execute {} (.may "Gain?" (.gainLife 1)) {}) trivial) rfl
  exact ⟨work, below, hstack, hconsumes,
    ((hfault {} (.color .red) (.wrongAnswer "yes/no" "color")).mpr rfl).1⟩

end CardGame
