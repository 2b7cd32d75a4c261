import CardGame.Proofs.Play.Timestamps

/-!
What a call comes to when its resolution asks, fails or is done with nothing left on the stack.
Every game that comes up has been swept, so that asking leaves all of it alone but the suspended
work and the pending decision.
-/

namespace CardGame

open Resolve

namespace Game

variable {g g' : Game}

/-- Which floating effects work is a matter of where objects are and what they are attached to. -/
theorem isActive_congr (hzone : ∀ o, g'.zone? o = g.zone? o)
    (hattached : ∀ o, (g'.facets o).byKind.find? .attached =
      (g.facets o).byKind.find? .attached) : g'.isActive = g.isActive := by
  have hthere : g'.onBattlefield = g.onBattlefield := by
    refine funext fun o => ?_
    change (g'.zone? o).any _ = (g.zone? o).any _
    rw [hzone]
  have hhost (o : ObjectId) : (g'.facets o).host? = (g.facets o).host? := by
    unfold Facets.host?
    rw [hattached]
  funext e
  unfold isActive
  rw [hthere]
  simp only [hhost]

/-- The game while it waits for the answer to a question. -/
def waiting (g : Game) (r : Request) : Game :=
  { g with
    nextDecision := g.nextDecision + 1
    stack := ⟨some ⟨g.nextDecision⟩, r.work⟩ :: g.stack
    pending := some (r.decision ⟨g.nextDecision⟩) }

theorem stack_waiting (hstack : g.stack = []) (r : Request) :
    (g.waiting r).stack = [⟨some ⟨g.nextDecision⟩, r.work⟩] := by
  rw [waiting, hstack]

/-- A sweep finds nothing in a game that has been swept. -/
theorem Swept.sweep_eq (h : g.Swept) : g.sweep = (g, []) := by
  have hactive : g.floating.filter g.isActive = g.floating := List.filter_eq_self.mpr h
  have hnone : g.floating.filter (!g.isActive ·) = [] := by
    refine List.filter_eq_nil_iff.mpr fun e he => ?_
    simp [h e he]
  rw [sweep, expire, hactive, hnone]
  rfl

theorem Swept.waiting (h : g.Swept) (r : Request) : (g.waiting r).Swept := h

/-- Nothing is suspended in a game that comes up in which nobody is asked. -/
theorem Poised.stack_eq_nil (h : g.Poised) (hidle : g.pending = none) : g.stack = [] := by
  cases h with
  | idle _ hstack => exact hstack
  | waiting d work groups hpending =>
    rw [hidle] at hpending
    cases hpending

end Game

/-- A question that is asked with nothing on the stack is all that is suspended. -/
theorem Resolve.waits_of_ask {p q : Progress} {r : Request} {d : Decision}
    (hstack : p.game.stack = []) (h : ask (some r) p = .ok (.paused d, q)) :
    q.settled.game.pending = some d ∧ q.settled.game.stack = [⟨some d.id, r.work⟩] ∧
      d.question = r.question ∧ q.settled.game.zones = p.game.zones := by
  cases h
  refine ⟨rfl, ?_, rfl, rfl⟩
  change ⟨some _, r.work⟩ :: p.game.stack = _
  rw [hstack]

/-- A resolution that succeeds has come to its end before the sweep. -/
theorem Result.ofRun_settled_eq_success {g g' : Game} {r : Resolve Outcome} {p : Progress}
    {es : List Event} (h : Result.ofRun g (Resolve.settled r p) = .success g' es) :
    ∃ q, r p = .ok (.done, q) ∧ g' = q.settled.game ∧ es = q.settled.events := by
  rw [settled_apply] at h
  cases hrun : r p with
  | error failure =>
    rw [hrun] at h
    cases h
  | ok result =>
    obtain ⟨outcome, q⟩ := result
    rw [hrun] at h
    cases outcome with
    | paused d => cases h
    | done =>
      cases h
      exact ⟨q, rfl, rfl, rfl⟩

/-- A resolution that stops at a decision has got there before the sweep. -/
theorem Result.ofRun_settled_eq_paused {g g' : Game} {r : Resolve Outcome} {p : Progress}
    {d : Decision} {es : List Event} (h : Result.ofRun g (Resolve.settled r p) = .paused g' d es) :
    ∃ q, r p = .ok (.paused d, q) ∧ g' = q.settled.game ∧ es = q.settled.events := by
  rw [settled_apply] at h
  cases hrun : r p with
  | error failure =>
    rw [hrun] at h
    cases h
  | ok result =>
    obtain ⟨outcome, q⟩ := result
    rw [hrun] at h
    cases outcome with
    | done => cases h
    | paused d' =>
      cases h
      exact ⟨q, rfl, rfl, rfl⟩

namespace Rules

variable {rules : Rules} {g g' : Game} {e : Effect} {ctx : Context} {es : List Event}

/-- An effect that is executed with success has been resolved to its end. -/
theorem execute_eq_success (hidle : g.pending = none)
    (h : rules.execute g e ctx = .success g' es) :
    ∃ q, e.resolve rules ctx { game := g } = .ok (.done, q) ∧ g' = q.settled.game ∧
      es = q.settled.events := by
  unfold execute at h
  rw [hidle] at h
  exact Result.ofRun_settled_eq_success h

/-- An effect that asks first of all leaves the game waiting for the answer, and swept. -/
theorem execute_of_asks_sweep (hidle : g.pending = none) {r : Request}
    (hrun : e.resolve rules ctx { game := g } = ask (some r) { game := g }) :
    rules.execute g e ctx = .paused (g.waiting r).sweep.1 (r.decision ⟨g.nextDecision⟩)
      (.decisionRequested ⟨g.nextDecision⟩ r.player :: (g.waiting r).sweep.2) := by
  unfold execute
  rw [hidle]
  change Result.ofRun g (Resolve.settled (e.resolve rules ctx) { game := g }) = _
  rw [settled_apply, hrun, ask_some]
  rfl

/-- An effect that asks before it changes anything leaves the game waiting for the answer, whatever
it has told by then. -/
theorem execute_of_asks_telling (hidle : g.pending = none) (hswept : g.Swept) {r : Request}
    {told : List Event} (hrun : e.resolve rules ctx { game := g } = ask (some r) ⟨g, told⟩) :
    rules.execute g e ctx = .paused (g.waiting r) (r.decision ⟨g.nextDecision⟩)
      (told ++ [.decisionRequested ⟨g.nextDecision⟩ r.player]) := by
  unfold execute
  rw [hidle]
  change Result.ofRun g (Resolve.settled (e.resolve rules ctx) { game := g }) = _
  rw [settled_apply, hrun, ask_some]
  change Result.paused (g.waiting r).sweep.1 _ (_ ++ (g.waiting r).sweep.2) = _
  rw [(hswept.waiting r).sweep_eq, List.append_nil]

/-- An effect that asks first of all leaves the game waiting for the answer. -/
theorem execute_of_asks (hidle : g.pending = none) (hswept : g.Swept) {r : Request}
    (hrun : e.resolve rules ctx { game := g } = ask (some r) { game := g }) :
    rules.execute g e ctx = .paused (g.waiting r) (r.decision ⟨g.nextDecision⟩)
      [.decisionRequested ⟨g.nextDecision⟩ r.player] :=
  execute_of_asks_telling hidle hswept hrun

/-- An effect that is done without anything suspended is followed by a sweep. -/
theorem execute_of_done (hidle : g.pending = none) {q : Progress}
    (hrun : e.resolve rules ctx { game := g } = .ok (.done, q)) :
    rules.execute g e ctx = .success q.settled.game q.settled.events := by
  unfold execute
  rw [hidle]
  change Result.ofRun g (Resolve.settled (e.resolve rules ctx) { game := g }) = _
  rw [settled_apply, hrun]
  rfl

theorem execute_of_paused (hidle : g.pending = none) {d : Decision} {q : Progress}
    (hrun : e.resolve rules ctx { game := g } = .ok (.paused d, q)) :
    rules.execute g e ctx = .paused q.settled.game d q.settled.events := by
  unfold execute
  rw [hidle]
  change Result.ofRun g (Resolve.settled (e.resolve rules ctx) { game := g }) = _
  rw [settled_apply, hrun]
  rfl

/-- An effect that is executed up to a decision has been resolved up to it. -/
theorem execute_eq_paused {d : Decision} (hidle : g.pending = none)
    (h : rules.execute g e ctx = .paused g' d es) :
    ∃ q, e.resolve rules ctx { game := g } = .ok (.paused d, q) ∧ g' = q.settled.game ∧
      es = q.settled.events := by
  unfold execute at h
  rw [hidle] at h
  exact Result.ofRun_settled_eq_paused h

/-- Effects that are resolved alike are executed alike. -/
theorem execute_congr {e' : Effect} {ctx' : Context}
    (hrun : e.resolve rules ctx { game := g } = e'.resolve rules ctx' { game := g }) :
    rules.execute g e ctx = rules.execute g e' ctx' := by
  have hsettled : Resolve.settled (e.resolve rules ctx) { game := g } =
      Resolve.settled (e'.resolve rules ctx') { game := g } := by
    rw [settled_apply, settled_apply, hrun]
  unfold execute
  cases g.pending with
  | some d => rfl
  | none => exact congrArg (Result.ofRun g) hsettled

/-- An effect that cannot be resolved leaves the game as it was. -/
theorem execute_of_fails (hidle : g.pending = none) {failure : Failure}
    (hrun : e.resolve rules ctx { game := g } = .error failure) :
    rules.execute g e ctx = .failed g failure := by
  unfold execute
  rw [hidle]
  change Result.ofRun g (Resolve.settled (e.resolve rules ctx) { game := g }) = _
  rw [settled_apply, hrun]
  rfl

/-- An answer with which the suspended work cannot go on leaves the question pending. -/
theorem resume_of_fails {d : Decision} {work : Suspension} {below : List Frame} {answer : Answer}
    {failure : Failure} (hpending : g.pending = some d)
    (hstack : g.stack = ⟨some d.id, work⟩ :: below) (hcheck : d.question.check answer = .ok ())
    (hrun : ∀ p, work.resume rules d answer p = .error failure) :
    rules.resume g ⟨d.id, answer⟩ = .failed g failure := by
  have hproceed (p : Progress) : rules.proceed d work answer p = .error failure := by
    change (work.resume rules d answer _).bind _ = _
    rw [hrun]
    rfl
  rw [resume_waiting hpending hstack, objection, if_pos rfl, hcheck]
  change Result.ofRun g (Resolve.settled (rules.proceed d work answer) { game := g }) = _
  rw [settled_apply, hproceed]
  rfl

/-- Work that comes to its end with an answer, with nothing left to do, ends the resolution. -/
theorem resume_of_done {d : Decision} {work : Suspension} {answer : Answer} {q : Progress}
    (hpending : g.pending = some d) (hstack : g.stack = [⟨some d.id, work⟩])
    (hcheck : d.question.check answer = .ok ())
    (hrun : work.resume rules d answer (.resolving g d) = .ok (.done, q))
    (hdone : q.game.stack = []) :
    rules.resume g ⟨d.id, answer⟩ = .success q.settled.game q.settled.events := by
  rw [resume_waiting hpending hstack, objection, if_pos rfl, hcheck]
  change Result.ofRun g (Resolve.settled (rules.proceed d work answer) { game := g }) = _
  rw [settled_apply, rules.proceed_alone hstack, hrun]
  change Result.ofRun g ((rules.chain rules.chainLimit .done q).map _) = _
  rw [rules.chain_of_stack_nil _ hdone]
  rfl

/-- Work that asks again with an answer leaves the game waiting once more. -/
theorem resume_of_asks {d : Decision} {work : Suspension} {answer : Answer} {r : Request}
    (hswept : g.Swept) (hpending : g.pending = some d) (hstack : g.stack = [⟨some d.id, work⟩])
    (hcheck : d.question.check answer = .ok ())
    (hrun : work.resume rules d answer (.resolving g d) = ask (some r) (.resolving g d)) :
    rules.resume g ⟨d.id, answer⟩ =
      .paused ((Progress.resolving g d).game.waiting r) (r.decision ⟨g.nextDecision⟩)
        [.decisionResolved d.id d.player, .decisionRequested ⟨g.nextDecision⟩ r.player] := by
  have hsweep : ((Progress.resolving g d).game.waiting r).sweep =
      ((Progress.resolving g d).game.waiting r, []) := Game.Swept.sweep_eq hswept
  rw [resume_waiting hpending hstack, objection, if_pos rfl, hcheck]
  change Result.ofRun g (Resolve.settled (rules.proceed d work answer) { game := g }) = _
  rw [settled_apply, rules.proceed_alone hstack, hrun, ask_some]
  change Result.ofRun g ((rules.chain rules.chainLimit (.paused _) _).map _) = _
  rw [chain_paused]
  change Result.paused ((Progress.resolving g d).game.waiting r).sweep.1 _
    (_ ++ ((Progress.resolving g d).game.waiting r).sweep.2) = _
  rw [hsweep]
  rfl

/-- An answer with which resuming succeeds fits the question, and the work that waited for it has
come to its end. -/
theorem resume_eq_success {d : Decision} {work : Suspension} {answer : Answer}
    (h : g.WaitsWith d work) (hresume : rules.resume g ⟨d.id, answer⟩ = .success g' es) :
    d.question.check answer = .ok () ∧
      ∃ q, work.resume rules d answer (.resolving g d) = .ok (.done, q) ∧ g' = q.settled.game ∧
        es = q.settled.events := by
  have hcheck : d.question.check answer = .ok () := by
    rw [resume_waiting h.pending h.stack, objection, if_pos rfl] at hresume
    cases hcheck : d.question.check answer with
    | ok u => rfl
    | error failure =>
      rw [hcheck] at hresume
      cases hresume
  rw [rules.resume_eq_ofRun h hcheck] at hresume
  exact ⟨hcheck, Result.ofRun_settled_eq_success hresume⟩

end Rules

end CardGame
