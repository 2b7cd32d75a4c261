import CardGame.Proofs.Resolve.Library

/-!
What an effect does without the stack of suspended work: it acts directly until it is done or has a
question, and then answers the question and the effects put off until later. `Effect.plan` says so
by recursion on the effect, and `Effect.resolve_eq_plan` that resolving an effect is to follow its
plan and to suspend what is left.
-/

namespace CardGame

open Resolve

/-- Effects put off until later, with the context in which they are to be resolved. -/
abbrev Group := List Effect × Context

/-- The frame that keeps a group of effects. -/
def Frame.ofGroup (group : Group) : Frame := ⟨none, .effects group.1 group.2⟩

/-- Where a resolution stops: a question, and the effects put off until it is answered, those to be
resolved first in front. -/
structure Stop where
  request : Request
  later : List Group

namespace Stop

/-- A question with nothing put off. -/
def only (request : Request) : Stop := ⟨request, []⟩

/-- The stop with more groups put off after the others. -/
def andThen (stop : Stop) (groups : List Group) : Stop :=
  { stop with later := stop.later ++ groups }

/-- The group of the effects that follow in a composite, unless there are none. -/
def rest (es : List Effect) (ctx : Context) : List Group := if es.isEmpty then [] else [(es, ctx)]

end Stop

namespace Resolve

/-- Puts frames beneath the topmost one. -/
def beneathTop (frames : List Frame) (g : Game) : Game :=
  { g with stack := g.stack.take 1 ++ frames ++ g.stack.drop 1 }

/-- Ends a resolution where it stops: puts the question and the effects put off on the stack. -/
def suspend : Option Stop → Resolve Outcome
  | none => return .done
  | some stop => do
    let outcome ← ask (some stop.request)
    update (beneathTop (stop.later.map Frame.ofGroup))
    return outcome

theorem suspend_some (stop : Stop) (p : Progress) :
    suspend (some stop) p = .ok (.paused (stop.request.decision ⟨p.game.nextDecision⟩),
      { game := { p.game with
          nextDecision := p.game.nextDecision + 1
          stack := ⟨some ⟨p.game.nextDecision⟩, stop.request.work⟩ ::
            (stop.later.map Frame.ofGroup ++ p.game.stack)
          pending := some (stop.request.decision ⟨p.game.nextDecision⟩) }
        events := p.events ++ [.decisionRequested ⟨p.game.nextDecision⟩ stop.request.player] }) :=
  rfl

theorem suspend_only (request : Option Request) :
    suspend (request.map Stop.only) = ask request := by
  cases request with
  | none => rfl
  | some r => rfl

/-- What a resolution stops at fits the game, and no group of effects put off is empty. -/
def Stopping (stop : Option Stop) (g : Game) : Prop :=
  ∀ s ∈ stop, s.request.work.Fits s.request.question g ∧ ∀ group ∈ s.later, group.1 ≠ []

/-- Does something that may ask, and holds the question back. -/
def stopAt (r : Resolve Outcome) : Resolve (Option Stop) := do
  return (← heldBack r).map Stop.only

/-- Does one thing and then another. If the one stops, the groups stand for the other among what is
put off. -/
def followedBy (r next : Resolve (Option Stop)) (groups : List Group) : Resolve (Option Stop) := do
  match ← r with
  | none => next
  | some stop => return some (stop.andThen groups)

theorem followedBy_assoc (r s t : Resolve (Option Stop)) (gs hs : List Group) :
    (r.followedBy s gs).followedBy t hs = r.followedBy (s.followedBy t hs) (gs ++ hs) := by
  funext p
  unfold followedBy
  rw [bind_assoc, bind_apply, bind_apply]
  cases r p with
  | error failure => rfl
  | ok result =>
    obtain ⟨stop, q⟩ := result
    cases stop with
    | none => rfl
    | some stop =>
      have hlater := List.append_assoc stop.later gs hs
      exact congrArg (fun later => Except.ok (some (Stop.mk stop.request later), q)) hlater

theorem followedBy_none (r : Resolve (Option Stop)) : r.followedBy (return none) [] = r := by
  funext p
  unfold followedBy
  rw [bind_apply]
  cases r p with
  | error failure => rfl
  | ok result =>
    obtain ⟨stop, q⟩ := result
    cases stop with
    | none => rfl
    | some stop =>
      have hlater := List.append_nil stop.later
      exact congrArg (fun later => Except.ok (some (Stop.mk stop.request later), q)) hlater

theorem stopAt_eq_some {r : Resolve Outcome} {p q : Progress} {stop : Stop}
    (h : stopAt r p = .ok (some stop, q)) :
    ∃ request, heldBack r p = .ok (some request, q) ∧ stop = .only request := by
  obtain ⟨request, s, hheld, hstop⟩ := bind_eq_ok h
  cases request with
  | none => cases hstop
  | some request =>
    cases hstop
    exact ⟨request, hheld, rfl⟩

/-- What comes of one thing and then another comes of the other, unless the one stops. -/
theorem followedBy_eq_ok {r next : Resolve (Option Stop)} {groups : List Group} {p q : Progress}
    {stop : Option Stop} (h : r.followedBy next groups p = .ok (stop, q)) :
    (∃ s, r p = .ok (none, s) ∧ next s = .ok (stop, q)) ∨
      ∃ first, r p = .ok (some first, q) ∧ stop = some (first.andThen groups) := by
  obtain ⟨first, s, hfirst, hrest⟩ := bind_eq_ok h
  cases first with
  | none => exact .inl ⟨s, hfirst, hrest⟩
  | some first =>
    cases hrest
    exact .inr ⟨first, hfirst, rfl⟩

theorem stopAt_pause (player : Seat) (prompt : String) (question : Question)
    (source : Option ObjectId) (work : Suspension) :
    stopAt (pause player prompt question source work) =
      return some (.only ⟨player, prompt, question, source, work⟩) := by
  funext p
  have hevents (e : Event) : (p.events ++ [e]).dropLast = p.events := List.dropLast_concat
  exact congrArg (fun events => Except.ok (_, Progress.mk p.game events)) (hevents _)

theorem stopping_none {g : Game} : Stopping none g := by
  intro s hs
  cases hs

theorem Stopping.andThen {stop : Stop} {groups : List Group} {g : Game}
    (h : Stopping (some stop) g) (hgroups : ∀ group ∈ groups, group.1 ≠ []) :
    Stopping (some (stop.andThen groups)) g := by
  intro s hs
  cases hs
  obtain ⟨hfits, hlater⟩ := h stop rfl
  refine ⟨hfits, fun group hgroup => ?_⟩
  rcases List.mem_append.mp hgroup with hold | hnew
  · exact hlater group hold
  · exact hgroups group hnew

/-- What is done without a question is done by elementary changes. -/
theorem Directly.changes_of_done {lasting : Duration → Prop} {P : Game → Prop}
    {plan : Resolve (Option Stop)} {p q : Progress} (h : Directly lasting P plan Stopping)
    (hsound : p.game.Sound) (hp : P p.game) (hdone : (plan >>= suspend) p = .ok (.done, q)) :
    p.Changes lasting q := by
  obtain ⟨stop, q', hrun, hsuspend⟩ := bind_eq_ok hdone
  cases stop with
  | some stop => cases hsuspend
  | none =>
    cases hsuspend
    exact (h.runs hsound hp hrun).1

/-- What is done without a question leaves a sound game, with the same work suspended. -/
theorem Directly.done {lasting : Duration → Prop} {P : Game → Prop}
    {plan : Resolve (Option Stop)} {p q : Progress} (h : Directly lasting P plan Stopping)
    (hsound : p.game.Sound) (hp : P p.game) (hdone : (plan >>= suspend) p = .ok (.done, q)) :
    q.game.Sound ∧ q.game.stack = p.game.stack := by
  have hchanges := h.changes_of_done hsound hp hdone
  exact ⟨hchanges.sound hsound, hchanges.sameControl.stack⟩

theorem rest_nonempty {es : List Effect} {ctx : Context} :
    ∀ group ∈ Stop.rest es ctx, group.1 ≠ [] := by
  intro group hgroup
  unfold Stop.rest at hgroup
  split at hgroup
  · cases hgroup
  · next hsome =>
    rw [List.mem_singleton.mp hgroup]
    simpa using hsome

variable {lasting : Duration → Prop} {P : Game → Prop}

theorem Asking.directly_stopAt {r : Resolve Outcome} (h : Asking lasting P r) :
    Directly lasting P (stopAt r) Stopping := by
  refine .bind h.directly fun request => .pure _ ?_
  intro g hfits s hs
  obtain ⟨r, hr, rfl⟩ := Option.map_eq_some_iff.mp hs
  exact ⟨hfits r hr, by simp [Stop.only]⟩

theorem Asking.eq_stopAt {r : Resolve Outcome} (h : Asking (fun _ => True) P r) {p : Progress}
    (hsound : p.game.Sound) (hp : P p.game) : r p = (stopAt r >>= suspend) p := by
  rw [h.eq_ask hsound hp, stopAt, bind_assoc]
  simp only [pure_bind, suspend_only]

theorem Directly.followedBy {r next : Resolve (Option Stop)} {groups : List Group}
    (hr : Directly lasting P r Stopping) (hnext : Directly lasting (fun _ => True) next Stopping)
    (hgroups : ∀ group ∈ groups, group.1 ≠ []) :
    Directly lasting P (r.followedBy next groups) Stopping := by
  refine .bind hr fun stop => ?_
  cases stop with
  | none => exact hnext.of_pre fun _ _ => trivial
  | some stop => exact .pure _ fun hstop => hstop.andThen hgroups

end Resolve

namespace Effect

mutual

/-- How long the floating effects last that an effect may start, now or after an answer. -/
def durations : Effect → List Duration
  | .continuous e => e.durations
  | .permanent _ | .removal _ | .damage _ | .library _ | .eachPlayerChooses _ _ => []
  | .composite es => durationsOfAll es
  | .conditional _ yes no => durations yes ++ durationsOfOption no
  | .may _ e => durations e
  | .modal modes _ _ => durationsOfModes modes
  | .payOrSuffer _ _ e => durations e
  | .chooseTargets _ e => durations e

def durationsOfAll : List Effect → List Duration
  | [] => []
  | e :: rest => durations e ++ durationsOfAll rest

def durationsOfOption : Option Effect → List Duration
  | none => []
  | some e => durations e

def durationsOfModes : List (String × Effect) → List Duration
  | [] => []
  | (_, e) :: rest => durations e ++ durationsOfModes rest

end

mutual

/-- What an effect does up to its first question. -/
def plan (rules : Rules) : Effect → Context → Resolve (Option Stop)
  | .continuous e, ctx => stopAt (e.resolve rules ctx)
  | .permanent e, ctx => stopAt (e.resolve rules ctx)
  | .removal e, ctx => stopAt (e.resolve rules ctx)
  | .damage e, ctx => stopAt (e.resolve rules ctx)
  | .library e, ctx => stopAt (e.resolve rules ctx)
  | .composite es, ctx => planAll rules es ctx
  | .conditional c yes no, ctx => do
    if (← Resolve.view rules).holds ctx c then plan rules yes ctx
    else planOption rules no ctx
  | .may prompt e, ctx => stopAt (askMay ctx prompt e)
  | .modal modes fewest most, ctx => stopAt (askModes ctx modes fewest most)
  | .payOrSuffer selector cost suffer, ctx => do
    let v ← Resolve.view rules
    match v.players ctx selector with
    | [] => return none
    | payer :: _ =>
      if cost.isPayable v ctx payer then
        stopAt (Resolve.pause payer cost.prompt .yesNo ctx.source
          (.payOrSuffer payer cost suffer ctx))
      else plan rules suffer ctx
  | .chooseTargets spec e, ctx => do
    match targeting (← Resolve.view rules) ctx spec with
    | .tooFew => return none
    | .untargeted => plan rules e (ctx.withTargets [])
    | .choose legal fewest most =>
      stopAt (Resolve.pause ctx.controller "Choose targets" (.targets legal fewest most) ctx.source
        (.chooseTargets e ctx))
  | .eachPlayerChooses selector choice, ctx =>
    stopAt (do choice.start rules ctx (← Resolve.players rules ctx selector))

def planOption (rules : Rules) : Option Effect → Context → Resolve (Option Stop)
  | none, _ => return none
  | some e, ctx => plan rules e ctx

/-- What effects do one after the other up to the first question of any. -/
def planAll (rules : Rules) : List Effect → Context → Resolve (Option Stop)
  | [], _ => return none
  | e :: rest, ctx => (plan rules e ctx).followedBy (planAll rules rest ctx) (Stop.rest rest ctx)

end

section

variable {lasting : Duration → Prop} {rules : Rules} {ctx : Context}

theorem targeting_core (b : Bool) (v : View) (ctx : Context) (spec : TargetSpec) :
    targeting (v.core b) ctx spec = targeting v ctx spec := by
  unfold targeting
  rw [View.legalTargets_core]

theorem asking_askMay (prompt : String) (e : Effect) :
    Asking lasting (fun _ => True) (askMay ctx prompt e) := .pause fun _ => trivial

theorem asking_askModes (modes : List Mode) (fewest most : Nat) :
    Asking lasting (fun _ => True) (askModes ctx modes fewest most) := by
  apply Asking.ite
  · intro hempty
    exact .done
  · intro hsome
    exact .pause fun _ => trivial

theorem asking_payOrSuffer (payer : Seat) (cost : Cost) (suffer : Effect) :
    Asking lasting (fun _ => True) (Resolve.pause payer cost.prompt .yesNo ctx.source
      (.payOrSuffer payer cost suffer ctx)) := .pause fun _ => trivial

theorem asking_chooseTargets (e : Effect) (legal : List ObjectId) (fewest most : Nat) :
    Asking lasting (fun _ => True) (Resolve.pause ctx.controller "Choose targets"
      (.targets legal fewest most) ctx.source (.chooseTargets e ctx)) := .pause fun _ => trivial

theorem asking_eachPlayerChooses (selector : Selector) (choice : PlayerChoice) :
    Asking lasting (fun _ => True)
      (do choice.start rules ctx (← Resolve.players rules ctx selector)) := by
  refine .bind (directly_players rules ctx selector) fun players => ?_
  exact PlayerChoice.asking_start rules ctx choice players

mutual

theorem directly_plan (e : Effect) (ctx : Context) (h : ∀ d ∈ e.durations, lasting d) :
    Directly lasting (fun _ => True) (plan rules e ctx) Stopping := by
  cases e with
  | continuous e => exact (e.asking_resolve rules ctx h).directly_stopAt
  | permanent e => exact (e.asking_resolve rules ctx).directly_stopAt
  | removal e => exact (e.asking_resolve rules ctx).directly_stopAt
  | damage e => exact (e.asking_resolve rules ctx).directly_stopAt
  | library e => exact (e.asking_resolve rules ctx).directly_stopAt
  | composite es => exact directly_planAll es ctx h
  | conditional c yes no =>
    have hyes : ∀ d ∈ yes.durations, lasting d := fun d hd => h d (List.mem_append_left _ hd)
    have hno : ∀ d ∈ durationsOfOption no, lasting d := fun d hd => h d (List.mem_append_right _ hd)
    refine .view (fun b v => by rw [View.holds_core]) fun v => ?_
    apply Directly.ite
    · intro hholds
      exact directly_plan yes ctx hyes
    · intro hfails
      exact directly_planOption no ctx hno
  | may prompt e => exact (asking_askMay prompt e).directly_stopAt
  | modal modes fewest most => exact (asking_askModes modes fewest most).directly_stopAt
  | payOrSuffer selector cost suffer =>
    refine .view (fun b v => ?_) fun v => ?_
    · simp only [View.players_core, Cost.isPayable_core]
    · split
      · exact .pure _ fun _ => stopping_none
      · apply Directly.ite
        · intro hpayable
          exact (asking_payOrSuffer _ cost suffer).directly_stopAt
        · intro hunpayable
          exact directly_plan suffer ctx h
  | chooseTargets spec e =>
    refine .view (fun b v => by rw [targeting_core]) fun v => ?_
    split
    · exact .pure _ fun _ => stopping_none
    · exact directly_plan e _ h
    · exact (asking_chooseTargets e _ _ _).directly_stopAt
  | eachPlayerChooses selector choice =>
    exact (asking_eachPlayerChooses selector choice).directly_stopAt

theorem directly_planOption (e : Option Effect) (ctx : Context)
    (h : ∀ d ∈ durationsOfOption e, lasting d) :
    Directly lasting (fun _ => True) (planOption rules e ctx) Stopping := by
  cases e with
  | none => exact .pure _ fun _ => stopping_none
  | some e => exact directly_plan e ctx h

theorem directly_planAll (es : List Effect) (ctx : Context)
    (h : ∀ d ∈ durationsOfAll es, lasting d) :
    Directly lasting (fun _ => True) (planAll rules es ctx) Stopping := by
  cases es with
  | nil => exact .pure _ fun _ => stopping_none
  | cons e rest =>
    have hfirst : ∀ d ∈ e.durations, lasting d := fun d hd => h d (List.mem_append_left _ hd)
    have hrest : ∀ d ∈ durationsOfAll rest, lasting d := fun d hd =>
      h d (List.mem_append_right _ hd)
    exact .followedBy (directly_plan e ctx hfirst) (directly_planAll rest ctx hrest) rest_nonempty

end

/-- Effects that follow are put beneath whatever the effect before them left on the stack. -/
private theorem insertFrame_suspended (g : Game) (top : Frame) (above : List Frame) (f : Frame) :
    ({ g with stack := top :: (above ++ g.stack) } : Game).insertFrame g.stack.length f =
      { g with stack := top :: (above ++ f :: g.stack) } := by
  have habove : (top :: (above ++ g.stack)).length - g.stack.length = (top :: above).length := by
    simp only [List.length_cons, List.length_append]
    omega
  have hstack : (top :: (above ++ g.stack)).take (top :: above).length ++
      f :: (top :: (above ++ g.stack)).drop (top :: above).length =
      top :: (above ++ f :: g.stack) := by
    rw [← List.cons_append, List.take_left, List.drop_left, List.cons_append]
  unfold Game.insertFrame
  simp only [habove, hstack]

/-- What a composite does about the effects that follow the one that stopped. -/
def putOff (rest : List Effect) (ctx : Context) (depth : Nat) (outcome : Outcome) :
    Resolve Outcome := do
  if !rest.isEmpty then Resolve.update (·.insertFrame depth (.ofGroup (rest, ctx)))
  return outcome

private theorem suspend_putOff (stop : Stop) (rest : List Effect) (p : Progress) :
    (suspend (some stop) >>= putOff rest ctx p.game.stack.length) p =
      suspend (some (stop.andThen (Stop.rest rest ctx))) p := by
  rw [bind_apply, suspend_some, suspend_some]
  unfold putOff Stop.rest Stop.andThen
  cases hrest : rest.isEmpty with
  | true =>
    rw [if_pos rfl, List.append_nil]
    rfl
  | false =>
    have hinsert := insertFrame_suspended
      { p.game with
        nextDecision := p.game.nextDecision + 1
        pending := some (stop.request.decision ⟨p.game.nextDecision⟩) }
      ⟨some ⟨p.game.nextDecision⟩, stop.request.work⟩ (stop.later.map Frame.ofGroup)
      (.ofGroup (rest, ctx))
    rw [if_neg Bool.false_ne_true, List.map_append, List.append_assoc]
    exact congrArg (fun game => Except.ok (Outcome.paused _, Progress.mk game _)) hinsert

mutual

/-- Resolving an effect is following its plan and suspending what is left of it. -/
theorem resolve_eq_plan (e : Effect) (ctx : Context) {p : Progress} (hsound : p.game.Sound) :
    resolve rules e ctx p = (plan rules e ctx >>= suspend) p := by
  cases e with
  | continuous e =>
    exact (e.asking_resolve rules ctx fun _ _ => trivial).eq_stopAt hsound trivial
  | permanent e =>
    exact (e.asking_resolve rules ctx).eq_stopAt hsound trivial
  | removal e =>
    exact (e.asking_resolve rules ctx).eq_stopAt hsound trivial
  | damage e =>
    exact (e.asking_resolve rules ctx).eq_stopAt hsound trivial
  | library e =>
    exact (e.asking_resolve rules ctx).eq_stopAt hsound trivial
  | composite es => exact resolveAll_eq_plan es ctx hsound
  | conditional c yes no =>
    rw [resolve, plan, bind_assoc, view_bind, view_bind]
    split
    · exact resolve_eq_plan yes ctx hsound
    · exact resolveOption_eq_plan no ctx hsound
  | may prompt e =>
    exact (asking_askMay prompt e).eq_stopAt hsound trivial
  | modal modes fewest most =>
    exact (asking_askModes modes fewest most).eq_stopAt hsound trivial
  | payOrSuffer selector cost suffer =>
    rw [resolve, plan, bind_assoc, view_bind, view_bind]
    cases (rules.view p.game).players ctx selector with
    | nil => rfl
    | cons payer others =>
      simp only []
      split
      · exact (asking_payOrSuffer payer cost suffer).eq_stopAt hsound trivial
      · exact resolve_eq_plan suffer ctx hsound
  | chooseTargets spec e =>
    rw [resolve, plan, bind_assoc, view_bind, view_bind]
    cases targeting (rules.view p.game) ctx spec with
    | tooFew => rfl
    | untargeted => exact resolve_eq_plan e (ctx.withTargets []) hsound
    | choose legal fewest most =>
      exact (asking_chooseTargets e legal fewest most).eq_stopAt hsound trivial
  | eachPlayerChooses selector choice =>
    exact (asking_eachPlayerChooses selector choice).eq_stopAt hsound trivial

theorem resolveOption_eq_plan (e : Option Effect) (ctx : Context) {p : Progress}
    (hsound : p.game.Sound) :
    resolveOption rules e ctx p = (planOption rules e ctx >>= suspend) p := by
  cases e with
  | none => rfl
  | some e => exact resolve_eq_plan e ctx hsound

theorem resolveAll_eq_plan (es : List Effect) (ctx : Context) {p : Progress}
    (hsound : p.game.Sound) :
    resolveAll rules es ctx p = (planAll rules es ctx >>= suspend) p := by
  cases es with
  | nil => rfl
  | cons e rest =>
    have hresolve : resolveAll rules (e :: rest) ctx p =
        (resolve rules e ctx p).bind fun r =>
          match r.1 with
          | .done => resolveAll rules rest ctx r.2
          | .paused decision => putOff rest ctx p.game.stack.length (.paused decision) r.2 := by
      rw [resolveAll, game_bind, bind_apply]
      refine congrArg (Except.bind _) (funext fun r => ?_)
      cases r.1 <;> rfl
    rw [hresolve, resolve_eq_plan e ctx hsound, planAll, followedBy, bind_apply, bind_apply,
      bind_apply]
    cases hrun : plan rules e ctx p with
    | error failure => rfl
    | ok result =>
      obtain ⟨stop, q⟩ := result
      have hplan : Directly (fun _ => True) (fun _ => True) (plan rules e ctx) Stopping :=
        directly_plan e ctx fun _ _ => trivial
      obtain ⟨hchanges, -⟩ := hplan.runs hsound trivial hrun
      cases stop with
      | none => exact resolveAll_eq_plan rest ctx (hchanges.sound hsound)
      | some stop =>
        have hdepth := hchanges.sameControl.stack
        rw [← hdepth]
        exact suspend_putOff stop rest q

end

theorem changes_of_done (e : Effect) (ctx : Context) {p q : Progress} (hsound : p.game.Sound)
    (h : resolve rules e ctx p = .ok (.done, q)) : p.Changes (fun _ => True) q := by
  rw [resolve_eq_plan e ctx hsound] at h
  have hplan : Directly (fun _ => True) (fun _ => True) (plan rules e ctx) Stopping :=
    directly_plan e ctx fun _ _ => trivial
  exact hplan.changes_of_done hsound trivial h

theorem resolve_done (e : Effect) (ctx : Context) {p q : Progress} (hsound : p.game.Sound)
    (h : resolve rules e ctx p = .ok (.done, q)) :
    q.game.Sound ∧ q.game.stack = p.game.stack := by
  have hchanges := changes_of_done e ctx hsound h
  exact ⟨hchanges.sound hsound, hchanges.sameControl.stack⟩

theorem resolveAll_done (es : List Effect) (ctx : Context) {p q : Progress}
    (hsound : p.game.Sound) (h : resolveAll rules es ctx p = .ok (.done, q)) :
    q.game.Sound ∧ q.game.stack = p.game.stack := by
  rw [resolveAll_eq_plan es ctx hsound] at h
  have hplan : Directly (fun _ => True) (fun _ => True) (planAll rules es ctx) Stopping :=
    directly_planAll es ctx fun _ _ => trivial
  exact hplan.done hsound trivial h

end

end Effect

end CardGame
