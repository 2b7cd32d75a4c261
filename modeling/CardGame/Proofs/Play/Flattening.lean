import CardGame.Proofs.Effect.Flatten
import CardGame.Proofs.Play.Reachable

/-!
Splicing composites into the composites that they are part of changes nothing that players see. The
plans of an effect and of the flat effect stop at the same question and put off the same flat
effects, though in other groups. So games that differ in the grouping of the effects put off, and in
composites not spliced yet, go on alike whatever is answered.
-/

namespace CardGame

open Resolve

/-- The work with its effects flat. -/
def Suspension.flatten : Suspension → Suspension
  | .effects remaining ctx => .effects (Effect.flattenAll remaining) ctx
  | .may effect ctx => .may effect.flatten ctx
  | .modal modes ctx => .modal (Effect.flattenModes modes) ctx
  | .payOrSuffer payer cost suffer ctx => .payOrSuffer payer cost suffer.flatten ctx
  | .chooseTargets effect ctx => .chooseTargets effect.flatten ctx
  | work => work

def Request.flatten (r : Request) : Request := { r with work := r.work.flatten }

/-- Effects put off one by one, with composites spliced. -/
def eachOf (group : Group) : List Group :=
  (Effect.flattenAll group.1).map fun e => ([e], group.2)

/-- The stop with flat work, and the effects put off one by one. -/
def Stop.flatten (stop : Stop) : Stop := ⟨stop.request.flatten, stop.later.flatMap eachOf⟩

theorem eachOf_append (xs ys : List Effect) (ctx : Context) :
    eachOf (xs ++ ys, ctx) = eachOf (xs, ctx) ++ eachOf (ys, ctx) := by
  simp only [eachOf, Effect.flattenAll_append, List.map_append]

theorem eachOf_flattenAll (es : List Effect) (ctx : Context) :
    eachOf (Effect.flattenAll es, ctx) = eachOf (es, ctx) := by
  simp only [eachOf, Effect.flattenAll_flattenAll]

theorem flatMap_eachOf_rest (es : List Effect) (ctx : Context) :
    (Stop.rest es ctx).flatMap eachOf = eachOf (es, ctx) := by
  cases es with
  | nil => rfl
  | cons e rest => exact List.append_nil _

theorem flatMap_eachOf_singles (es : List Effect) (ctx : Context) :
    (es.map fun e => ([e], ctx)).flatMap eachOf = eachOf (es, ctx) := by
  induction es with
  | nil => rfl
  | cons e rest ih =>
    rw [List.map_cons, List.flatMap_cons, ih]
    exact (eachOf_append [e] rest ctx).symm

/-- Effects put off one by one already are put off as they are. -/
theorem flatMap_eachOf_flatMap (groups : List Group) :
    (groups.flatMap eachOf).flatMap eachOf = groups.flatMap eachOf := by
  induction groups with
  | nil => rfl
  | cons group rest ih =>
    have hgroup : (eachOf group).flatMap eachOf = eachOf group :=
      (flatMap_eachOf_singles _ _).trans (eachOf_flattenAll group.1 group.2)
    rw [List.flatMap_cons, List.flatMap_append, ih, hgroup]

theorem Stop.flatten_andThen (stop : Stop) (groups : List Group) :
    (stop.andThen groups).flatten = stop.flatten.andThen (groups.flatMap eachOf) :=
  congrArg (Stop.mk _) List.flatMap_append

namespace Resolve

/-- The plan with whatever it stops at flat. -/
def flattened (r : Resolve (Option Stop)) : Resolve (Option Stop) := do
  return (← r).map Stop.flatten

theorem flattened_apply (r : Resolve (Option Stop)) (p : Progress) :
    flattened r p = (r p).map fun result => (result.1.map Stop.flatten, result.2) := by
  unfold flattened
  rw [bind_apply]
  cases r p <;> rfl

theorem flattened_bind {α : Type} (m : Resolve α) (k : α → Resolve (Option Stop)) :
    flattened (m >>= k) = m >>= fun a => flattened (k a) :=
  bind_assoc _ _ _

theorem flattened_followedBy (r next : Resolve (Option Stop)) (groups : List Group) :
    flattened (r.followedBy next groups) =
      (flattened r).followedBy (flattened next) (groups.flatMap eachOf) := by
  funext p
  unfold followedBy
  rw [flattened_apply, bind_apply, bind_apply, flattened_apply]
  cases r p with
  | error failure => rfl
  | ok result =>
    obtain ⟨stop, q⟩ := result
    cases stop with
    | none => exact (flattened_apply next q).symm
    | some stop =>
      exact congrArg (fun flat => Except.ok (some flat, q)) (stop.flatten_andThen groups)

theorem flattened_pause {player : Seat} {prompt : String} {question : Question}
    {source : Option ObjectId} {work work' : Suspension} (h : work.flatten = work'.flatten) :
    flattened (stopAt (pause player prompt question source work)) =
      flattened (stopAt (pause player prompt question source work')) := by
  rw [stopAt_pause, stopAt_pause]
  let stop (work : Suspension) : Stop := .only ⟨player, prompt, question, source, work⟩
  exact congrArg (fun work => (return some (stop work) : Resolve (Option Stop))) h

end Resolve

namespace Effect

variable {rules : Rules}

theorem planAll_parts (e : Effect) (ctx : Context) :
    planAll rules e.parts ctx = plan rules e ctx := by
  cases e with
  | composite es => rfl
  | _ => exact followedBy_none _

theorem flattened_planAll_append (xs ys : List Effect) (ctx : Context) :
    flattened (planAll rules (xs ++ ys) ctx) = (flattened (planAll rules xs ctx)).followedBy
      (flattened (planAll rules ys ctx)) (eachOf (ys, ctx)) := by
  induction xs with
  | nil => rfl
  | cons x xs ih =>
    rw [List.cons_append, planAll, planAll, flattened_followedBy, flattened_followedBy, ih,
      followedBy_assoc, flatMap_eachOf_rest, flatMap_eachOf_rest, eachOf_append]

mutual

/-- Splicing composites changes nothing of what an effect does up to its first question. -/
theorem flattened_plan_flatten (e : Effect) (ctx : Context) :
    flattened (plan rules e.flatten ctx) = flattened (plan rules e ctx) := by
  cases e with
  | composite es => exact flattened_planAll_flattenAll es ctx
  | conditional c yes no =>
    rw [flatten, plan, plan, flattened_bind, flattened_bind]
    refine congrArg _ (funext fun v => ?_)
    split
    · exact flattened_plan_flatten yes ctx
    · exact flattened_planOption_flattenOption no ctx
  | may prompt e => exact flattened_pause (congrArg (Suspension.may · ctx) e.flatten_flatten)
  | modal modes fewest most =>
    have hprompts : (flattenModes modes).map (·.1) = modes.map (·.1) := by
      simp [flattenModes_eq_map]
    have hlength : (flattenModes modes).length = modes.length := by simp [flattenModes_eq_map]
    have hempty : (flattenModes modes).isEmpty = modes.isEmpty := by simp [flattenModes_eq_map]
    rw [flatten, plan, plan, askModes, askModes, hprompts, hlength, hempty]
    split
    · rfl
    · exact flattened_pause
        (congrArg (Suspension.modal · ctx) (flattenModes_flattenModes modes))
  | payOrSuffer selector cost suffer =>
    rw [flatten, plan, plan, flattened_bind, flattened_bind]
    refine congrArg _ (funext fun v => ?_)
    split
    · rfl
    · split
      · exact flattened_pause
          (congrArg (Suspension.payOrSuffer _ cost · ctx) suffer.flatten_flatten)
      · exact flattened_plan_flatten suffer ctx
  | chooseTargets spec e =>
    rw [flatten, plan, plan, flattened_bind, flattened_bind]
    refine congrArg _ (funext fun v => ?_)
    split
    · rfl
    · exact flattened_plan_flatten e _
    · exact flattened_pause (congrArg (Suspension.chooseTargets · ctx) e.flatten_flatten)
  | _ => rfl

theorem flattened_planAll_flattenAll (es : List Effect) (ctx : Context) :
    flattened (planAll rules (flattenAll es) ctx) = flattened (planAll rules es ctx) := by
  cases es with
  | nil => rfl
  | cons e rest =>
    rw [flattenAll, flattened_planAll_append, planAll_parts, flattened_plan_flatten e,
      flattened_planAll_flattenAll rest, planAll, flattened_followedBy, flatMap_eachOf_rest,
      eachOf_flattenAll]

theorem flattened_planOption_flattenOption (e : Option Effect) (ctx : Context) :
    flattened (planOption rules (flattenOption e) ctx) = flattened (planOption rules e ctx) := by
  cases e with
  | none => rfl
  | some e => exact flattened_plan_flatten e ctx

end

end Effect

namespace Suspension

variable {rules : Rules} {d : Decision}

theorem modeEffects_flattenModes (modes : List Mode) (chosen : List Nat) :
    modeEffects (Effect.flattenModes modes) chosen =
      (modeEffects modes chosen).map (List.map Effect.flatten) := by
  induction chosen with
  | nil => rfl
  | cons i rest ih =>
    unfold modeEffects
    rw [ih, Effect.flattenModes_eq_map, List.getElem?_map]
    cases modes[i]? with
    | none => rfl
    | some m =>
      obtain ⟨description, e⟩ := m
      cases modeEffects modes rest <;> rfl

theorem flattened_planAll_map_flatten (es : List Effect) (ctx : Context) :
    flattened (Effect.planAll rules (es.map Effect.flatten) ctx) =
      flattened (Effect.planAll rules es ctx) := by
  rw [← Effect.flattened_planAll_flattenAll, Effect.flattenAll_map_flatten,
    Effect.flattened_planAll_flattenAll]

/-- Flat work does the same with an answer, up to the next question. -/
theorem flattened_plan_flatten (work : Suspension) (answer : Answer) :
    flattened (work.flatten.plan rules d answer) = flattened (work.plan rules d answer) := by
  cases work with
  | may effect ctx =>
    cases answer with
    | yesNo yes =>
      cases yes with
      | true => exact effect.flattened_plan_flatten ctx
      | false => rfl
    | _ => rfl
  | modal modes ctx =>
    cases answer with
    | modes chosen =>
      simp only [flatten, plan, modeEffects_flattenModes]
      cases modeEffects modes (SortedSet.ofList chosen).toList with
      | error failure => rfl
      | ok es =>
        simp only [Except.map]
        rw [flattened_bind, flattened_bind]
        exact congrArg _ (funext fun _ => flattened_planAll_map_flatten es ctx)
    | _ => rfl
  | payOrSuffer payer cost suffer ctx =>
    cases answer with
    | yesNo yes =>
      cases yes with
      | true =>
        simp only [flatten, plan, if_true]
        rw [flattened_bind, flattened_bind]
        refine congrArg _ (funext fun v => ?_)
        split
        · rfl
        · exact suffer.flattened_plan_flatten ctx
      | false => exact suffer.flattened_plan_flatten ctx
    | _ => rfl
  | chooseTargets effect ctx =>
    cases answer with
    | targets chosen => exact effect.flattened_plan_flatten _
    | _ => rfl
  | _ => rfl

end Suspension

namespace Rules

variable {rules : Rules}

theorem flattened_planGroups_singles (es : List Effect) (ctx : Context) :
    flattened (rules.planGroups (es.map fun e => ([e], ctx))) =
      flattened (Effect.planAll rules es ctx) := by
  induction es with
  | nil => rfl
  | cons e rest ih =>
    let singles := rest.map fun e => ([e], ctx)
    have hfirst : rules.planGroups (([e], ctx) :: singles) =
        (Effect.plan rules e ctx).followedBy (rules.planGroups singles) singles :=
      congrArg (followedBy · _ singles) (followedBy_none _)
    rw [List.map_cons, hfirst, Effect.planAll, flattened_followedBy, flattened_followedBy, ih,
      flatMap_eachOf_singles, flatMap_eachOf_rest]

/-- Effects put off do the same one by one, up to the first question. -/
theorem flattened_planGroups_flatMap (groups : List Group) :
    flattened (rules.planGroups (groups.flatMap eachOf)) = flattened (rules.planGroups groups) := by
  induction groups with
  | nil => rfl
  | cons group rest ih =>
    have hgroup : flattened (rules.planGroups (eachOf group)) =
        flattened (Effect.planAll rules group.1 group.2) :=
      (flattened_planGroups_singles _ _).trans (Effect.flattened_planAll_flattenAll _ _)
    rw [List.flatMap_cons, planGroups_append, planGroups, flattened_followedBy,
      flattened_followedBy, ih, hgroup, flatMap_eachOf_flatMap]

/-- What an answer sets going depends on the flat work and the flat effects put off only. -/
theorem flattened_planAnswer {work work' : Suspension} {groups groups' : List Group}
    (hwork : work.flatten = work'.flatten)
    (hgroups : groups.flatMap eachOf = groups'.flatMap eachOf) (d : Decision) (answer : Answer) :
    flattened (rules.planAnswer d work answer groups) =
      flattened (rules.planAnswer d work' answer groups') := by
  rw [planAnswer, planAnswer, flattened_followedBy, flattened_followedBy,
    ← Suspension.flattened_plan_flatten work, ← Suspension.flattened_plan_flatten work',
    ← flattened_planGroups_flatMap groups, ← flattened_planGroups_flatMap groups', hwork, hgroups]

end Rules

def Frame.flatten (f : Frame) : Frame := { f with work := f.work.flatten }

/-- A frame for each of the effects that a frame puts off; any other frame by itself. -/
def Frame.singles : Frame → List Frame
  | ⟨none, .effects remaining ctx⟩ => remaining.map fun e => ⟨none, .effects [e] ctx⟩
  | f => [f]

namespace Game

/-- The game with every composite in suspended work spliced. -/
def flatten (g : Game) : Game := { g with stack := g.stack.map Frame.flatten }

/-- The game with every effect put off in a frame of its own. Two games agree on this when they
differ in the grouping of the effects put off only: adjacent frames with one context hold, taken
together, the same effects in the same order. -/
def ungrouped (g : Game) : Game := { g with stack := g.stack.flatMap Frame.singles }

/-- The stack of the game when it is flat and ungrouped. -/
def flatStack (frames : List Frame) : List Frame := (frames.map Frame.flatten).flatMap Frame.singles

theorem flatStack_append (above below : List Frame) :
    flatStack (above ++ below) = flatStack above ++ flatStack below := by
  simp only [flatStack, List.map_append, List.flatMap_append]

theorem flatStack_asked (id : DecisionId) (work : Suspension) (below : List Frame) :
    flatStack (⟨some id, work⟩ :: below) = ⟨some id, work.flatten⟩ :: flatStack below := rfl

theorem flatStack_ofGroup (groups : List Group) :
    flatStack (groups.map Frame.ofGroup) = (groups.flatMap eachOf).map Frame.ofGroup := by
  induction groups with
  | nil => rfl
  | cons group rest ih =>
    have hfirst : (Frame.ofGroup group).flatten.singles = (eachOf group).map Frame.ofGroup := by
      simp [Frame.ofGroup, Frame.flatten, Suspension.flatten, Frame.singles, eachOf]
    have hcons : flatStack ((group :: rest).map Frame.ofGroup) =
        (Frame.ofGroup group).flatten.singles ++ flatStack (rest.map Frame.ofGroup) := rfl
    rw [hcons, hfirst, ih, List.flatMap_cons, List.map_append]

theorem ofGroup_injective : Function.Injective Frame.ofGroup := by
  rintro ⟨es, ctx⟩ ⟨es', ctx'⟩ h
  injection h with _ hwork
  injection hwork with hes hctx
  exact Prod.ext hes hctx

/-- Games that agree once they are flat differ in their stacks only. -/
theorem eq_of_flatten_eq {g g' : Game} (h : g.flatten.ungrouped = g'.flatten.ungrouped) :
    g' = { g with stack := g'.stack } ∧ flatStack g.stack = flatStack g'.stack :=
  ⟨(congrArg (fun h : Game => { h with stack := g'.stack }) h).symm, congrArg Game.stack h⟩

end Game

namespace Result

/-- The result with its game changed. -/
def onGame (f : Game → Game) : Result → Result
  | .success g es => .success (f g) es
  | .paused g d es => .paused (f g) d es
  | .failed g failure => .failed (f g) failure

/-- The result with its game flat and ungrouped. -/
def flat (r : Result) : Result := r.onGame fun g => g.flatten.ungrouped

theorem flat_game {r r' : Result} (h : r.flat = r'.flat) :
    r.game.flatten.ungrouped = r'.game.flatten.ungrouped := by
  have hgame (r : Result) : r.flat.game = r.game.flatten.ungrouped := by cases r <;> rfl
  rw [← hgame, ← hgame, h]

theorem flat_stoppedAt (stop : Stop) (p : Progress) :
    (p.stoppedAt stop).settled.game.flatten.ungrouped =
      { (p.stoppedAt stop.flatten).settled.game with
        stack := ⟨some ⟨p.game.nextDecision⟩, stop.flatten.request.work⟩ ::
          (stop.flatten.later.map Frame.ofGroup ++ Game.flatStack p.game.stack) } := by
  have hstack : Game.flatStack (p.stoppedAt stop).game.stack =
      ⟨some ⟨p.game.nextDecision⟩, stop.flatten.request.work⟩ ::
        (stop.flatten.later.map Frame.ofGroup ++ Game.flatStack p.game.stack) := by
    change Game.flatStack (⟨some _, _⟩ :: (stop.later.map Frame.ofGroup ++ p.game.stack)) = _
    rw [Game.flatStack_asked, Game.flatStack_append, Game.flatStack_ofGroup]
    rfl
  let rest : Game := (p.stoppedAt stop.flatten).settled.game
  exact congrArg (fun stack => ({ rest with stack } : Game)) hstack

/-- Plans that come to the same once they are flat are concluded with the same. -/
theorem flat_conclude {g g' : Game} {plan plan' : Resolve (Option Stop)} {p : Progress}
    (hgame : g.flatten.ungrouped = g'.flatten.ungrouped)
    (hplan : flattened plan p = flattened plan' p) :
    (conclude g (plan p)).flat = (conclude g' (plan' p)).flat := by
  rw [flattened_apply, flattened_apply] at hplan
  cases hrun : plan p <;> cases hrun' : plan' p <;> rw [hrun, hrun'] at hplan <;>
    simp only [Except.map, Except.ok.injEq, Except.error.injEq, Prod.mk.injEq,
      reduceCtorEq] at hplan
  · rw [hplan]
    exact congrArg (Result.failed · _) hgame
  · next result result' =>
    obtain ⟨stop, q⟩ := result
    obtain ⟨stop', q'⟩ := result'
    obtain ⟨hstop, rfl⟩ := hplan
    cases stop <;> cases stop' <;> simp only [Option.map, reduceCtorEq, Option.some.injEq] at hstop
    · rfl
    · next stop stop' =>
      have hflat (g : Game) (stop : Stop) : (conclude g (.ok (some stop, q))).flat =
          .paused { (q.stoppedAt stop.flatten).settled.game with
            stack := ⟨some ⟨q.game.nextDecision⟩, stop.flatten.request.work⟩ ::
              (stop.flatten.later.map Frame.ofGroup ++ Game.flatStack q.game.stack) }
            (stop.flatten.request.decision ⟨q.game.nextDecision⟩)
            (q.stoppedAt stop.flatten).settled.events :=
        congrArg (Result.paused · _ _) (flat_stoppedAt stop q)
      rw [hflat, hflat, hstop]

end Result

namespace Rules

/-- The results of answers, one after the other, from a result on. -/
def answerAll (rules : Rules) (r : Result) : List Response → List Result
  | [] => [r]
  | response :: rest => r :: answerAll rules (rules.resume r.game response) rest

/-- The results of executing an effect and of the answers that follow. -/
def run (rules : Rules) (g : Game) (e : Effect) (ctx : Context) (responses : List Response) :
    List Result :=
  rules.answerAll (rules.execute g e ctx) responses

variable {rules : Rules}

/-- Games that agree once they are flat go on alike, unless one answer sets too much going. -/
theorem flat_resume {g g' : Game} (hsound : g.Sound) (hsound' : g'.Sound) (hpoised : g.Poised)
    (hpoised' : g'.Poised) (hgame : g.flatten.ungrouped = g'.flatten.ungrouped) (r : Response)
    (hshort : (rules.resume g r).isTooLong = false)
    (hshort' : (rules.resume g' r).isTooLong = false) :
    (rules.resume g r).flat = (rules.resume g' r).flat := by
  obtain ⟨hsame, hstacks⟩ := Game.eq_of_flatten_eq hgame
  have hpending' : g'.pending = g.pending := (congrArg Game.pending hgame).symm
  cases hpoised with
  | idle hpending hstack =>
    rw [resume_idle hpending, resume_idle (hpending'.trans hpending)]
    exact congrArg (Result.failed · _) hgame
  | waiting d work groups hpending hstack hgroups hissued hfits =>
    cases hpoised' with
    | idle hnone =>
      rw [hnone, hpending] at hpending'
      cases hpending'
    | waiting d' work' groups' hpending₁ hstack' hgroups' hissued' hfits' =>
      obtain rfl : d = d' := by
        rw [hpending₁, hpending] at hpending'
        exact (Option.some.inj hpending').symm
      rw [hstack, hstack', Game.flatStack_asked, Game.flatStack_asked, Game.flatStack_ofGroup,
        Game.flatStack_ofGroup] at hstacks
      injection hstacks with htop hbelow
      injection htop with _ hwork
      have hlater := List.map_injective_iff.mpr Game.ofGroup_injective hbelow
      cases hobjection : objection d r with
      | some failure =>
        rw [resume_waiting hpending hstack, resume_waiting hpending₁ hstack', hobjection]
        exact congrArg (Result.failed · _) hgame
      | none =>
        rcases resume_eq hsound hfits hpending hstack hobjection with ⟨-, hlong⟩ | hplan
        · rw [hlong] at hshort
          cases hshort
        · rcases resume_eq hsound' hfits' hpending₁ hstack' hobjection with ⟨-, hlong⟩ | hplan'
          · rw [hlong] at hshort'
            cases hshort'
          · have hstart : ({ g' with pending := none, stack := [] } : Game) =
                { g with pending := none, stack := [] } :=
              congrArg (fun g : Game => { g with pending := none, stack := [] }) hsame
            rw [hplan, hplan', hstart]
            exact Result.flat_conclude hgame
              (congrFun (flattened_planAnswer hwork hlater d r.answer) _)

theorem flat_execute {g : Game} (hsound : g.Sound) (e : Effect) (ctx : Context) :
    (rules.execute g e.flatten ctx).flat = (rules.execute g e ctx).flat := by
  cases hpending : g.pending with
  | none =>
    rw [execute_eq hsound hpending, execute_eq hsound hpending]
    exact Result.flat_conclude rfl (congrFun (e.flattened_plan_flatten ctx) _)
  | some d =>
    unfold execute
    rw [hpending]

theorem flat_answerAll {r r' : Result} (responses : List Response)
    (hgame : r.game.Sound ∧ r.game.Poised) (hgame' : r'.game.Sound ∧ r'.game.Poised)
    (hflat : r.flat = r'.flat) (hshort : ∀ q ∈ rules.answerAll r responses, q.isTooLong = false)
    (hshort' : ∀ q ∈ rules.answerAll r' responses, q.isTooLong = false) :
    (rules.answerAll r responses).map Result.flat =
      (rules.answerAll r' responses).map Result.flat := by
  induction responses generalizing r r' with
  | nil => exact congrArg (fun q => [q]) hflat
  | cons response rest ih =>
    have hfirst {q : Result} : q ∈ rules.answerAll q rest := by
      cases rest <;> exact List.mem_cons_self
    have hresume := flat_resume hgame.1 hgame'.1 hgame.2 hgame'.2 (Result.flat_game hflat) response
      (hshort _ (List.mem_cons_of_mem _ hfirst)) (hshort' _ (List.mem_cons_of_mem _ hfirst))
    have hrest := ih
      ((rules.proper_resume hgame.1 hgame.2 response).sound_poised hgame.1 hgame.2)
      ((rules.proper_resume hgame'.1 hgame'.2 response).sound_poised hgame'.1 hgame'.2) hresume
      (fun q hq => hshort q (List.mem_cons_of_mem _ hq))
      fun q hq => hshort' q (List.mem_cons_of_mem _ hq)
    rw [answerAll, answerAll, List.map_cons, List.map_cons, hflat, hrest]

end Rules

/-- Players cannot tell an effect from its flat version. Whatever is answered, both come to the same
results: the same failures, decisions and events, and games that differ only in how the effects put
off are grouped and in composites not spliced yet. -/
theorem Game.Reachable.run_flatten {g : Game} (h : g.Reachable) (rules : Rules) (e : Effect)
    (ctx : Context) (responses : List Response)
    (hshort : ∀ r ∈ rules.run g e ctx responses, r.isTooLong = false)
    (hshort' : ∀ r ∈ rules.run g e.flatten ctx responses, r.isTooLong = false) :
    (rules.run g e.flatten ctx responses).map Result.flat =
      (rules.run g e ctx responses).map Result.flat := by
  have hproper (e : Effect) := (rules.proper_execute h.sound h.poised e ctx).sound_poised
    h.sound h.poised
  exact Rules.flat_answerAll responses (hproper _) (hproper _) (Rules.flat_execute h.sound e ctx)
    hshort' hshort

/-- An answered question in a composite of composites. -/
theorem Game.run_flatten_of_nested_may : ∃ g, start {} = .ok g ∧
    let e : Effect := .composite [.composite [.may "Gain?" (.gainLife 1), .gainLife 2], .gainLife 3]
    let yes : Response := { decision := ⟨1⟩, answer := .yesNo true }
    (Rules.run {} g e.flatten {} [yes]).map Result.flat =
      (Rules.run {} g e {} [yes]).map Result.flat := by
  refine ⟨_, rfl, Reachable.run_flatten (.start (s := {}) rfl) _ _ _ _ ?_ ?_⟩ <;> decide +kernel

/-- Until composites are spliced the games may differ in more than the grouping: an effect put off
is a composite in the one and its parts in the other. -/
theorem Game.not_run_flatten_ungrouped : ¬ ∀ (g : Game) (rules : Rules) (e : Effect) (ctx : Context)
    (responses : List Response), g.Reachable → g.pending = none →
    (∀ r ∈ rules.run g e ctx responses, r.isTooLong = false) →
    (∀ r ∈ rules.run g e.flatten ctx responses, r.isTooLong = false) →
    (rules.run g e.flatten ctx responses).map (Result.onGame ungrouped) =
      (rules.run g e ctx responses).map (Result.onGame ungrouped) := by
  intro h
  let e : Effect :=
    .composite [.may "Gain?" (.gainLife 1), .composite [.gainLife 1, .gainLife 2]]
  have hsame := h _ {} e {} [] (.start (s := {}) rfl) rfl (by decide +kernel) (by decide +kernel)
  have hframes := congrArg (List.map fun r : Result => r.game.stack.length) hsame
  revert hframes
  decide +kernel

end CardGame
