import CardGame.Play
import CardGame.Proofs.Decision
import CardGame.Proofs.Resolve.Resume

/-!
The course of executing and resuming. Effects put off are resolved group by group, which is what the
chain does with the frames they lie in, unless it gets too long. So executing and resuming both
follow a plan and conclude with what it comes to.
-/

namespace CardGame

open Resolve

namespace Progress

/-- The progress with the question and the effects put off on the stack. -/
def stoppedAt (stop : Stop) (p : Progress) : Progress where
  game := { p.game with
    nextDecision := p.game.nextDecision + 1
    stack := ⟨some ⟨p.game.nextDecision⟩, stop.request.work⟩ ::
      (stop.later.map Frame.ofGroup ++ p.game.stack)
    pending := some (stop.request.decision ⟨p.game.nextDecision⟩) }
  events := p.events ++ [.decisionRequested ⟨p.game.nextDecision⟩ stop.request.player]

/-- The progress without floating effects that no longer work. -/
def settled (p : Progress) : Progress where
  game := p.game.sweep.1
  events := p.events ++ p.game.sweep.2

end Progress

namespace Resolve

theorem forM_emit (es : List Event) (p : Progress) :
    es.forM emit p = .ok ((), { p with events := p.events ++ es }) := by
  induction es generalizing p with
  | nil =>
    change Except.ok ((), p) = _
    rw [List.append_nil]
  | cons e rest ih =>
    change rest.forM emit { p with events := p.events ++ [e] } = _
    rw [ih, List.append_assoc]
    rfl

theorem settled_apply (r : Resolve Outcome) (p : Progress) :
    settled r p = (r p).map fun result => (result.1, result.2.settled) := by
  unfold settled
  rw [bind_apply]
  cases r p with
  | error failure => rfl
  | ok result =>
    obtain ⟨outcome, q⟩ := result
    change ((q.game.sweep.2.forM emit >>= fun _ => pure outcome) : Resolve Outcome)
      { q with game := q.game.sweep.1 } = _
    rw [bind_apply, forM_emit]
    rfl

end Resolve

/-- What a resolution of a game comes to, given how its plan ends. -/
def Result.conclude (g : Game) : Except Failure (Option Stop × Progress) → Result
  | .error failure => .failed g failure
  | .ok (none, p) => .success p.settled.game p.settled.events
  | .ok (some stop, p) =>
    .paused (p.stoppedAt stop).settled.game (stop.request.decision ⟨p.game.nextDecision⟩)
      (p.stoppedAt stop).settled.events

/-- Whether an answer set too much going. -/
def Result.isTooLong : Result → Bool
  | .failed _ (.chainTooLong _) => true
  | _ => false

theorem Result.ofRun_settled (g : Game) (r : Resolve Outcome) (plan : Resolve (Option Stop))
    (p q : Progress) (h : r p = (plan >>= suspend) q) :
    Result.ofRun g (Resolve.settled r p) = .conclude g (plan q) := by
  rw [settled_apply, h, bind_apply]
  cases plan q with
  | error failure => rfl
  | ok result =>
    obtain ⟨stop, q'⟩ := result
    cases stop <;> rfl

namespace Rules

variable {rules : Rules}

/-- What effects put off do, group by group, up to their first question. -/
def planGroups (rules : Rules) : List Group → Resolve (Option Stop)
  | [] => return none
  | group :: rest => (Effect.planAll rules group.1 group.2).followedBy (planGroups rules rest) rest

/-- What an answer sets going: the work that waited for it, then the effects put off. -/
def planAnswer (rules : Rules) (d : Decision) (work : Suspension) (answer : Answer)
    (groups : List Group) : Resolve (Option Stop) :=
  (work.plan rules d answer).followedBy (planGroups rules groups) groups

theorem planGroups_append (xs ys : List Group) :
    rules.planGroups (xs ++ ys) = (rules.planGroups xs).followedBy (rules.planGroups ys) ys := by
  induction xs with
  | nil => rfl
  | cons x xs ih =>
    rw [List.cons_append, planGroups, planGroups, ih, followedBy_assoc]

private theorem suspend_onStack (stop : Stop) (groups : List Group) (p : Progress) :
    suspend (some stop) (p.onStack (groups.map Frame.ofGroup)) =
      suspend (some (stop.andThen groups)) (p.onStack []) := by
  rw [suspend_some, suspend_some]
  simp only [Progress.onStack, Stop.andThen, List.map_append, List.append_nil]

theorem chain_paused (steps : Nat) (decision : Decision) :
    rules.chain steps (.paused decision) = pure (.paused decision) := by
  unfold chain
  rfl

/-- The chain resolves the effects put off, unless there are more groups than it may take steps. -/
theorem chain_eq_plan (groups : List Group) (steps : Nat) {p : Progress}
    (hsound : p.game.Sound) :
    (steps < groups.length ∧ rules.chain steps .done (p.onStack (groups.map Frame.ofGroup)) =
        .error (.chainTooLong rules.chainLimit)) ∨
      rules.chain steps .done (p.onStack (groups.map Frame.ofGroup)) =
        (rules.planGroups groups >>= suspend) (p.onStack []) := by
  induction groups generalizing steps p with
  | nil =>
    refine Or.inr ?_
    unfold chain
    rfl
  | cons group rest ih =>
    cases steps with
    | zero =>
      refine Or.inl ⟨Nat.succ_pos _, ?_⟩
      unfold chain
      rfl
    | succ steps =>
      have hchain : rules.chain (steps + 1) .done
          (p.onStack ((group :: rest).map Frame.ofGroup)) =
          (Effect.resolveAll rules group.1 group.2
            (p.onStack (rest.map Frame.ofGroup))).bind fun r => rules.chain steps r.1 r.2 := by
        rw [chain]
        rfl
      have hplan : Directly (fun _ => True) (fun _ => True)
          (Effect.planAll rules group.1 group.2) Stopping :=
        Effect.directly_planAll _ _ fun _ _ => trivial
      have hstack (frames : List Frame) := hplan.onStack frames hsound trivial trivial
      rw [hchain, Effect.resolveAll_eq_plan _ _ (sound_onStack hsound _), planGroups,
        followedBy, bind_assoc, bind_apply, bind_apply, hstack, hstack]
      cases hrun : Effect.planAll rules group.1 group.2 p with
      | error failure => exact Or.inr rfl
      | ok result =>
        obtain ⟨stop, q⟩ := result
        have hq := (hplan.runs hsound trivial hrun).1.sound hsound
        cases stop with
        | none => exact (ih steps hq).imp_left fun h => ⟨Nat.succ_lt_succ h.1, h.2⟩
        | some stop =>
          refine Or.inr ?_
          have hpaused := suspend_onStack stop rest q
          simp only [Except.map, Except.bind, hpaused]
          rw [pure_bind, suspend_some]
          simp only [chain_paused]
          rfl

/-- Going on after an answer is following the plan of the answer, unless the chain would have to
take more steps than it may. -/
theorem proceed_eq_plan (rules : Rules) (d : Decision) {work : Suspension} {answer : Answer}
    {groups : List Group} {g : Game} {top : Option DecisionId} (hsound : g.Sound)
    (hready : work.Ready answer g)
    (hstack : g.stack = ⟨top, work⟩ :: groups.map Frame.ofGroup) (es : List Event) :
    (rules.chainLimit < groups.length ∧
        rules.proceed d work answer ⟨g, es⟩ = .error (.chainTooLong rules.chainLimit)) ∨
      rules.proceed d work answer ⟨g, es⟩ =
        (rules.planAnswer d work answer groups >>= suspend)
          ⟨{ g with pending := none, stack := [] }, es ++ [.decisionResolved d.id d.player]⟩ := by
  let p : Progress :=
    ⟨{ g with pending := none }, es ++ [.decisionResolved d.id d.player]⟩
  have hp : p.game.Sound := hsound.congr (.of_eq rfl rfl rfl rfl) hsound.housed.consistent rfl rfl
  have hproceed : rules.proceed d work answer ⟨g, es⟩ =
      (work.resume rules d answer (p.onStack (groups.map Frame.ofGroup))).bind fun r =>
        rules.chain rules.chainLimit r.1 r.2 := by
    have htail : g.stack.tail = groups.map Frame.ofGroup := by rw [hstack, List.tail_cons]
    unfold proceed
    rw [← htail]
    rfl
  have hplan : Directly (fun _ => True) (work.Ready answer) (work.plan rules d answer) Stopping :=
    work.directly_plan answer
  have hstill (frames : List Frame) : work.Ready answer (p.onStack frames).game :=
    hready.congr fun _ _ => id
  have hon (frames : List Frame) := hplan.onStack frames hp (hstill _) (hstill _)
  have hempty : (⟨{ g with pending := none, stack := [] },
      es ++ [.decisionResolved d.id d.player]⟩ : Progress) = p.onStack [] := rfl
  rw [hproceed, work.resume_eq_plan answer (sound_onStack hp _) (hstill _), hempty, planAnswer,
    followedBy, bind_assoc, bind_apply, bind_apply, hon, hon]
  cases hrun : work.plan rules d answer p with
  | error failure => exact Or.inr rfl
  | ok result =>
    obtain ⟨stop, q⟩ := result
    have hq := (hplan.runs hp (hstill _) hrun).1.sound hp
    cases stop with
    | none => exact chain_eq_plan groups rules.chainLimit hq
    | some stop =>
      refine Or.inr ?_
      have hpaused := suspend_onStack stop groups q
      simp only [Except.map, Except.bind, hpaused]
      rw [pure_bind, suspend_some]
      simp only [chain_paused]
      rfl

/-- Executing an effect concludes with what the effect's plan comes to. -/
theorem execute_eq {g : Game} (hsound : g.Sound) (hpending : g.pending = none) (e : Effect)
    (ctx : Context) : rules.execute g e ctx = .conclude g (e.plan rules ctx { game := g }) := by
  unfold execute
  rw [hpending]
  exact Result.ofRun_settled g _ _ _ _ (e.resolve_eq_plan ctx hsound)

/-- What is wrong with a response to a pending decision, before anything is resolved. -/
def objection (d : Decision) (r : Response) : Option Failure :=
  if d.id = r.decision then
    match d.question.check r.answer with
    | .error failure => some failure
    | .ok () => none
  else some (.otherDecisionPending d.id r.decision)

theorem objection_eq_none {d : Decision} {r : Response} (h : objection d r = none) :
    d.id = r.decision ∧ d.question.check r.answer = .ok () := by
  unfold objection at h
  split at h
  · next hid =>
    split at h
    · cases h
    · next hcheck => exact ⟨hid, hcheck⟩
  · cases h

/-- An answer that is turned down does not find the work missing. -/
theorem objection_ne_nothingToResume {d : Decision} {r : Response} {id : DecisionId} :
    objection d r ≠ some (.nothingToResume id) := by
  unfold objection
  split
  · split
    · next failure hcheck =>
      rintro ⟨⟩
      cases Question.fault_check hcheck
    · simp
  · simp

theorem resume_idle {g : Game} (hpending : g.pending = none) (r : Response) :
    rules.resume g r = .failed g .noDecisionPending := by
  unfold resume expected
  rw [hpending]

theorem resume_waiting {d : Decision} {work : Suspension} {below : List Frame} {g : Game}
    (hpending : g.pending = some d) (hstack : g.stack = ⟨some d.id, work⟩ :: below) (r : Response) :
    rules.resume g r = match objection d r with
      | some failure => .failed g failure
      | none => (Resolve.settled (proceed rules d work r.answer)).resultIn g := by
  unfold resume expected objection
  rw [hpending, hstack]
  by_cases hid : d.id = r.decision
  · simp only [hid, ne_eq, not_true_eq_false, if_false, if_true]
    cases d.question.check r.answer <;> rfl
  · simp [hid]

/-- Resuming with an answer to the pending decision concludes with what the plan of the answer comes
to, unless the chain would have to take more steps than it may. -/
theorem resume_eq {d : Decision} {work : Suspension} {groups : List Group} {g : Game}
    {r : Response} (hsound : g.Sound) (hfits : work.Fits d.question g)
    (hpending : g.pending = some d)
    (hstack : g.stack = ⟨some d.id, work⟩ :: groups.map Frame.ofGroup)
    (hobjection : objection d r = none) :
    (rules.chainLimit < groups.length ∧
        rules.resume g r = .failed g (.chainTooLong rules.chainLimit)) ∨
      rules.resume g r = .conclude g (rules.planAnswer d work r.answer groups
        ⟨{ g with pending := none, stack := [] }, [.decisionResolved d.id d.player]⟩) := by
  have hready := Suspension.ready_of_fits hfits (objection_eq_none hobjection).2
  rw [resume_waiting hpending hstack, hobjection]
  rcases rules.proceed_eq_plan d hsound hready hstack [] with ⟨hmore, hlong⟩ | hplan
  · refine Or.inl ⟨hmore, ?_⟩
    change Result.ofRun g (Resolve.settled _ _) = _
    rw [settled_apply, hlong]
    rfl
  · exact Or.inr (Result.ofRun_settled g _ _ _ _ hplan)

end Rules

end CardGame
