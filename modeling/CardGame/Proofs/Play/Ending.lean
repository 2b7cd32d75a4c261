import CardGame.Proofs.Play.Answering
import CardGame.Proofs.Play.Flattening
import CardGame.Proofs.Resolve.Counting

/-!
Every resolution ends. The stack of suspended work is good for so many questions
(`Game.questionsLeft`): executing an effect leaves at most the questions of the effect, and every
answer that is accepted leaves fewer than before. The chain takes each frame from the stack that was
there when the answer came, and no others.
-/

namespace CardGame

open Resolve

/-- The question that a frame waits for, and the most that come after it. -/
def Frame.questions (n : Nat) (f : Frame) : Nat :=
  (if f.decision.isSome then 1 else 0) + f.work.questions n

/-- The most questions still to be answered before nothing is suspended. -/
def Game.questionsLeft (g : Game) : Nat := (g.stack.map (Frame.questions g.seats)).sum

variable {rules : Rules} {P : Game → Prop} {g : Game}

/-- A failure leaves the game as it was. -/
theorem Result.Proper.game_of_isFailed {before : Game} {r : Result} (h : r.Proper before)
    (hfailed : r.isFailed = true) : r.game = before := by
  cases r with
  | failed g failure => exact h
  | _ => cases hfailed

theorem Frame.sum_questions_ofGroup (n : Nat) (groups : List Group) :
    ((groups.map Frame.ofGroup).map (Frame.questions n)).sum = Group.questions n groups := by
  have hframe : Frame.questions n ∘ Frame.ofGroup = fun group =>
      Effect.questionsOfAll n group.1 := by
    funext group
    simp [Frame.questions, Frame.ofGroup, Suspension.questions]
  rw [List.map_map, hframe, Group.questions]

theorem Game.questionsLeft_waiting {id : DecisionId} {work : Suspension} {groups : List Group}
    (hstack : g.stack = ⟨some id, work⟩ :: groups.map Frame.ofGroup) :
    g.questionsLeft = work.questions g.seats + Group.questions g.seats groups + 1 := by
  rw [questionsLeft, hstack, List.map_cons, List.sum_cons, Frame.sum_questions_ofGroup]
  simp only [Frame.questions, Option.isSome_some, if_true]
  omega

/-- Where a plan stops is all that the stack is good for. -/
theorem Result.questionsLeft_conclude {plan : Resolve (Option Stop)} {p : Progress} {before : Game}
    {w : Nat} (hplan : Directly (fun _ => True) P plan Stopping) (hsound : p.game.Sound)
    (hp : P p.game) (hstack : p.game.stack = [])
    (hwithin : ∀ {q : Progress} {stop : Stop}, plan p = .ok (some stop, q) →
      stop.questions p.game.seats ≤ w)
    (haccepted : (Result.conclude before (plan p)).isFailed = false) :
    (Result.conclude before (plan p)).game.questionsLeft ≤ w := by
  cases hrun : plan p with
  | error failure =>
    rw [hrun] at haccepted
    cases haccepted
  | ok result =>
    obtain ⟨stop, q⟩ := result
    have hchanges := (hplan.runs hsound hp hrun).1
    have hbelow : q.game.stack = [] := hchanges.sameControl.stack.trans hstack
    cases stop with
    | none =>
      have hempty : q.settled.game.questionsLeft = 0 := by
        have hsettled : q.settled.game.stack = [] := hbelow
        simp [Game.questionsLeft, hsettled]
      exact hempty.trans_le (Nat.zero_le _)
    | some stop =>
      have hseats : (q.stoppedAt stop).settled.game.seats = p.game.seats := hchanges.seats hsound
      have hstopped : (q.stoppedAt stop).settled.game.stack =
          ⟨some ⟨q.game.nextDecision⟩, stop.request.work⟩ :: stop.later.map Frame.ofGroup := by
        change ⟨some _, _⟩ :: (stop.later.map Frame.ofGroup ++ q.game.stack) = _
        rw [hbelow, List.append_nil]
      have hleft := Game.questionsLeft_waiting hstopped
      rw [hseats] at hleft
      exact hleft.trans_le (hwithin hrun)

namespace Rules

theorem within_planGroups {n : Nat} (groups : List Group)
    (hgroups : ∀ group ∈ groups, group.1 ≠ []) :
    Within n (rules.planGroups groups) (Group.questions n groups) := by
  induction groups with
  | nil => exact .none
  | cons group rest ih =>
    have hrest : ∀ group ∈ rest, group.1 ≠ [] := fun group hgroup =>
      hgroups group (List.mem_cons_of_mem _ hgroup)
    exact .followedBy (Effect.directly_planAll _ _ fun _ _ => trivial)
      (Effect.within_planAll group.1 group.2) (ih hrest) (Nat.le_refl _)

/-- An effect leaves at most the questions that it may put. -/
theorem questionsLeft_execute (hsound : g.Sound) (hpoised : g.Poised) (e : Effect) (ctx : Context)
    (haccepted : (rules.execute g e ctx).isFailed = false) :
    (rules.execute g e ctx).game.questionsLeft ≤ e.questions g.seats := by
  cases hpoised with
  | waiting d work groups hpending =>
    unfold execute at haccepted
    rw [hpending] at haccepted
    cases haccepted
  | idle hpending hstack =>
    rw [execute_eq hsound hpending] at haccepted ⊢
    have hplan : Directly (fun _ => True) (fun _ => True) (e.plan rules ctx) Stopping :=
      e.directly_plan ctx fun _ _ => trivial
    exact Result.questionsLeft_conclude hplan hsound trivial hstack
      (fun hrun => (e.within_plan ctx).within hsound rfl hrun) haccepted

/-- An answer that is accepted leaves fewer questions than there were before. -/
theorem questionsLeft_resume (hsound : g.Sound) (hpoised : g.Poised) (r : Response)
    (haccepted : (rules.resume g r).isFailed = false) :
    (rules.resume g r).game.questionsLeft < g.questionsLeft := by
  cases hpoised with
  | idle hpending hstack =>
    rw [resume_idle hpending] at haccepted
    cases haccepted
  | waiting d work groups hpending hstack hgroups hissued hfits =>
    cases hobjection : objection d r with
    | some failure =>
      rw [resume_waiting hpending hstack, hobjection] at haccepted
      cases haccepted
    | none =>
      rcases resume_eq hsound hfits hpending hstack hobjection with ⟨-, hlong⟩ | hplan
      · rw [hlong] at haccepted
        cases haccepted
      · have hready := Suspension.ready_of_fits hfits (objection_eq_none hobjection).2
        have hwaits : work.Ready r.answer { g with pending := none, stack := [] } :=
          hready.congr fun _ _ => id
        rw [hplan] at haccepted ⊢
        have hleft := Result.questionsLeft_conclude
          (directly_planAnswer d work r.answer groups hgroups) (sound_answering hsound) hwaits rfl
          (Within.followedBy_at (work.directly_plan r.answer) (work.within_plan d r.answer)
            (within_planGroups groups hgroups) (Nat.le_refl _) (sound_answering hsound) hwaits rfl)
          haccepted
        rw [Game.questionsLeft_waiting hstack]
        exact Nat.lt_succ_of_le hleft

/-- From any result on, no more answers are accepted than there are questions left. -/
theorem countP_answerAll (responses : List Response) {r : Result} (hsound : r.game.Sound)
    (hpoised : r.game.Poised) :
    (rules.answerAll r responses).tail.countP (!·.isFailed) ≤ r.game.questionsLeft := by
  induction responses generalizing r with
  | nil => exact Nat.zero_le _
  | cons response rest ih =>
    have hproper := rules.proper_resume hsound hpoised response
    obtain ⟨hsound', hpoised'⟩ := hproper.sound_poised hsound hpoised
    have hrest := ih hsound' hpoised'
    have hresults (q : Result) : rules.answerAll q rest = q :: (rules.answerAll q rest).tail := by
      cases rest <;> rfl
    rw [answerAll, List.tail_cons, hresults, List.countP_cons]
    -- What is turned down leaves the game as it was; only what is accepted costs a question.
    cases hfailed : (rules.resume r.game response).isFailed with
    | true =>
      rw [hproper.game_of_isFailed hfailed] at hrest
      simpa using hrest
    | false =>
      have hfewer := questionsLeft_resume hsound hpoised response hfailed
      simp only [Bool.not_false, if_true]
      omega

/-- The chain takes no more steps than there are groups of effects put off: given more it does the
same, and it does not get too long. -/
theorem chain_enough (groups : List Group) {steps limit : Nat} {p : Progress}
    (hsound : p.game.Sound) (hgroups : ∀ group ∈ groups, group.1 ≠ [])
    (henough : groups.length ≤ steps) :
    rules.chain steps .done (p.onStack (groups.map Frame.ofGroup)) =
        rules.chain groups.length .done (p.onStack (groups.map Frame.ofGroup)) ∧
      rules.chain steps .done (p.onStack (groups.map Frame.ofGroup)) ≠
        .error (.chainTooLong limit) := by
  have hplan (steps : Nat) (henough : groups.length ≤ steps) :
      rules.chain steps .done (p.onStack (groups.map Frame.ofGroup)) =
        (rules.planGroups groups >>= suspend) (p.onStack []) := by
    rcases rules.chain_eq_plan groups steps hsound with ⟨hmore, -⟩ | hplan
    · omega
    · exact hplan
  have hdirect : Directly (fun _ => True) (fun _ => True) (rules.planGroups groups) Stopping :=
    directly_planGroups groups hgroups fun _ _ _ _ => trivial
  constructor
  · rw [hplan steps henough, hplan groups.length (Nat.le_refl _)]
  · rw [hplan steps henough, bind_apply]
    cases hrun : rules.planGroups groups (p.onStack []) with
    | error failure =>
      rintro ⟨⟩
      have hplain := hdirect.fails (sound_onStack hsound []) trivial hrun
      cases hplain
    | ok result =>
      obtain ⟨stop, q⟩ := result
      cases stop with
      | none => exact fun h => nomatch h
      | some stop => exact fun h => nomatch h

/-- Once the work that waited for an answer has gone on, the chain takes at most the frames that lay
beneath it. -/
theorem chain_after_work (hsound : g.Sound) (hpoised : g.Poised) {r : Response} {d : Decision}
    {work : Suspension} {outcome : Outcome} {p : Progress} {steps limit : Nat}
    (hexpected : expected g r = .ok (d, work)) (hcheck : d.question.check r.answer = .ok ())
    (hresume : work.resume rules d r.answer ⟨{ g with pending := none, stack := g.stack.tail },
      [.decisionResolved d.id d.player]⟩ = .ok (outcome, p))
    (henough : g.stack.tail.length ≤ steps) :
    rules.chain steps outcome p = rules.chain g.stack.tail.length outcome p ∧
      rules.chain steps outcome p ≠ .error (.chainTooLong limit) := by
  obtain ⟨groups, hpending, hstack, hgroups, hfits⟩ := of_expected hpoised hexpected
  let start : Progress := ⟨{ g with pending := none }, [.decisionResolved d.id d.player]⟩
  have htail : g.stack.tail = groups.map Frame.ofGroup := by rw [hstack, List.tail_cons]
  have hstart : start.game.Sound :=
    hsound.congr (.of_eq rfl rfl rfl rfl) hsound.housed.consistent rfl rfl
  have hready (frames : List Frame) : work.Ready r.answer (start.onStack frames).game :=
    (Suspension.ready_of_fits hfits hcheck).congr fun _ _ => id
  have hplan : Directly (fun _ => True) (work.Ready r.answer) (work.plan rules d r.answer)
      Stopping := work.directly_plan r.answer
  rw [htail, List.length_map] at henough ⊢
  have hrun : work.resume rules d r.answer (start.onStack (groups.map Frame.ofGroup)) =
      .ok (outcome, p) := by
    rw [← hresume, htail]
    rfl
  rw [work.resume_eq_plan r.answer (sound_onStack hstart _) (hready _), bind_apply,
    hplan.onStack _ hstart (hready start.game.stack) (hready _)] at hrun
  cases hwork : work.plan rules d r.answer start with
  | error failure =>
    rw [hwork] at hrun
    cases hrun
  | ok result =>
    obtain ⟨stop, q⟩ := result
    rw [hwork] at hrun
    have hq := (hplan.runs hstart (hready start.game.stack) hwork).1.sound hstart
    cases stop with
    | none =>
      cases hrun
      exact chain_enough groups hq hgroups henough
    | some stop =>
      simp only [Except.map, Except.bind, suspend_some] at hrun
      cases hrun
      rw [chain_paused, chain_paused]
      exact ⟨rfl, fun h => nomatch h⟩

/-- No answer sets too much going that finds at most so many frames beneath the topmost one as the
chain may take. -/
theorem resume_ne_tooLong (hsound : g.Sound) (hpoised : g.Poised) (r : Response) {limit : Nat}
    (hshort : g.stack.tail.length ≤ rules.chainLimit) {g' : Game} :
    rules.resume g r ≠ .failed g' (.chainTooLong limit) := by
  cases hpoised with
  | idle hpending hstack =>
    rw [resume_idle hpending]
    rintro ⟨⟩
  | waiting d work groups hpending hstack hgroups hissued hfits =>
    rw [hstack, List.tail_cons, List.length_map] at hshort
    cases hobjection : objection d r with
    | some failure =>
      rw [resume_waiting hpending hstack, hobjection]
      rintro ⟨⟩
      revert hobjection
      unfold objection
      split
      · split
        · next hcheck =>
          rintro ⟨⟩
          cases Question.fault_check hcheck
        · simp
      · simp
    | none =>
      have hcases : (rules.chainLimit < groups.length ∧ _) ∨ _ :=
        resume_eq hsound hfits hpending hstack hobjection
      rcases hcases with ⟨hmore, -⟩ | hplan
      · omega
      · have hready := Suspension.ready_of_fits hfits (objection_eq_none hobjection).2
        rw [hplan]
        intro htoo
        have hplain := Result.fails_conclude (directly_planAnswer d work r.answer groups hgroups)
          (sound_answering hsound) (hready.congr fun _ _ h => h) htoo
        cases hplain

end Rules

namespace Game

/-- Whatever is answered, resolving ends. -/
structure Ends (rules : Rules) (g : Game) : Prop where
  /-- After an effect no more answers are accepted than the effect puts questions. -/
  bounded : ∀ (e : Effect) (ctx : Context) (responses : List Response), g.pending = none →
    (rules.run g e ctx responses).tail.countP (!·.isFailed) ≤ e.questions g.seats
  /-- Every answer that is accepted leaves fewer questions. -/
  decreases : ∀ r : Response, (rules.resume g r).isFailed = false →
    (rules.resume g r).game.questionsLeft < g.questionsLeft
  /-- After the work that was answered, the chain takes at most the frames that lay beneath it. -/
  chained : ∀ {r : Response} {d : Decision} {work : Suspension} {outcome : Outcome} {p : Progress}
    (steps limit : Nat), Rules.expected g r = .ok (d, work) →
    d.question.check r.answer = .ok () →
    work.resume rules d r.answer ⟨{ g with pending := none, stack := g.stack.tail },
      [.decisionResolved d.id d.player]⟩ = .ok (outcome, p) →
    g.stack.tail.length ≤ steps →
    rules.chain steps outcome p = rules.chain g.stack.tail.length outcome p ∧
      rules.chain steps outcome p ≠ .error (.chainTooLong limit)
  short : ∀ (r : Response) (limit : Nat) (g' : Game), g.stack.tail.length ≤ rules.chainLimit →
    rules.resume g r ≠ .failed g' (.chainTooLong limit)

/-- Every resolution ends after boundedly many answers: at most as many are accepted as the effect
has questions for the players at the table, each of them brings the end nearer, and none sets more
going than the frames that were suspended before. -/
theorem Reachable.ends (h : g.Reachable) (rules : Rules) : g.Ends rules where
  bounded e ctx responses hidle := by
    obtain ⟨hsound, hpoised⟩ := (rules.proper_execute h.sound h.poised e ctx).sound_poised
      h.sound h.poised
    have hcount : (rules.run g e ctx responses).tail.countP (!·.isFailed) ≤ _ :=
      Rules.countP_answerAll responses hsound hpoised
    cases hfailed : (rules.execute g e ctx).isFailed with
    | false =>
      have hleft := Rules.questionsLeft_execute h.sound h.poised e ctx hfailed
      exact hcount.trans hleft
    | true =>
      have hnone : (rules.execute g e ctx).game.questionsLeft = 0 := by
        rw [(rules.proper_execute h.sound h.poised e ctx).game_of_isFailed hfailed]
        cases h.poised with
        | idle hpending hstack => simp [questionsLeft, hstack]
        | waiting d work groups hpending =>
          rw [hidle] at hpending
          cases hpending
      omega
  decreases r haccepted := Rules.questionsLeft_resume h.sound h.poised r haccepted
  chained steps limit hexpected hcheck hresume henough :=
    Rules.chain_after_work h.sound h.poised hexpected hcheck hresume henough
  short r limit g' hshort := Rules.resume_ne_tooLong h.sound h.poised r hshort

/-- Two questions one after the other, and an answer that comes too late: the bound is reached. -/
theorem ends_of_two_mays : ∃ g, start {} = .ok g ∧
    let e : Effect := .composite [.may "Gain?" (.gainLife 1), .may "More?" (.gainLife 2)]
    let yes (id : Nat) : Response := { decision := ⟨id⟩, answer := .yesNo true }
    let accepted := (Rules.run {} g e {} [yes 1, yes 2, yes 2]).tail.countP (!·.isFailed)
    accepted ≤ e.questions g.seats ∧ accepted = 2 := by
  refine ⟨_, rfl, (Reachable.ends (.start (s := {}) rfl) {}).bounded _ _ _ rfl, ?_⟩
  decide +kernel

end Game

end CardGame
