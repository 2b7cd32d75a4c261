import CardGame.Decision.Check
import CardGame.Proofs.Resolve.Plan
import Mathlib.Algebra.GroupWithZero.Nat
import Mathlib.Algebra.Order.BigOperators.Group.List
import Mathlib.Algebra.Order.Group.Nat
import Mathlib.Data.List.Perm.Subperm

/-!
What answers set going. `Suspension.plan` is the plan of suspended work that goes on with an answer,
and it does not matter to a plan what else lies on the stack.
-/

namespace CardGame

open Resolve

/-- Two games with one core and the same suspended work are one game. -/
theorem Game.eq_of_core {g₁ g₂ : Game} (hcore : g₁.core false = g₂.core false)
    (hcontrol : SameControl g₁ g₂) : g₁ = g₂ := by
  have hwhole (g : Game) : g = { g.core false with
      stack := g.stack, pending := g.pending, nextDecision := g.nextDecision } := by
    simp [core]
  rw [hwhole g₁, hwhole g₂, hcore, hcontrol.stack, hcontrol.pending, hcontrol.nextDecision]

/-- The same progress with other suspended work. -/
def Progress.onStack (p : Progress) (frames : List Frame) : Progress :=
  { p with game := { p.game with stack := frames } }

namespace Resolve

variable {α : Type} {lasting : Duration → Prop} {P : Game → Prop} {Q : α → Game → Prop}

theorem sound_onStack {p : Progress} (hsound : p.game.Sound) (frames : List Frame) :
    (p.onStack frames).game.Sound :=
  hsound.congr (.of_eq rfl rfl rfl rfl) hsound.housed.consistent rfl rfl

/-- A part that asks nobody does the same on top of other suspended work. -/
theorem Directly.onStack {r : Resolve α} (h : Directly lasting P r Q) {p : Progress}
    (frames : List Frame) (hsound : p.game.Sound) (hp : P p.game)
    (hp' : P (p.onStack frames).game) :
    r (p.onStack frames) = (r p).map fun result => (result.1, result.2.onStack frames) := by
  have hsound' := sound_onStack hsound frames
  have hagree : Agree false p.events p.events (r p) (r (p.onStack frames)) :=
    h.agrees hsound hsound' hp hp' ⟨rfl, [], by simp, by simp [Progress.onStack]⟩
  cases hrun : r p <;> cases hrun' : r (p.onStack frames) <;> rw [hrun, hrun'] at hagree
  all_goals cases hagree
  · rfl
  · next a q q' hlike =>
    have hcontrol := (h.runs hsound hp hrun).1.sameControl
    have hcontrol' := (h.runs hsound' hp' hrun').1.sameControl
    obtain ⟨es, hevents, hevents'⟩ := hlike.events
    have hgame : q'.game = (q.onStack frames).game := by
      refine Game.eq_of_core hlike.core.symm ⟨hcontrol'.stack.symm, ?_, ?_⟩
      · exact hcontrol.pending.trans hcontrol'.pending.symm
      · exact hcontrol.nextDecision.trans hcontrol'.nextDecision.symm
    have hq : q' = q.onStack frames := by
      rw [show q' = ⟨q'.game, q'.events⟩ from rfl, hgame, hevents', ← hevents]
      rfl
    rw [hq]
    rfl

end Resolve

namespace Suspension

/-- What work does with an answer up to its next question. -/
def plan (rules : Rules) (d : Decision) : Suspension → Answer → Resolve (Option Stop)
  | .may effect ctx, .yesNo yes => if yes then effect.plan rules ctx else return none
  | .modal modes ctx, .modes chosen =>
    match modeEffects modes (SortedSet.ofList chosen).toList with
    | .error failure => throw failure
    | .ok es => do
      Resolve.emit (.modesChosen d.player (SortedSet.ofList chosen).toList)
      Effect.planAll rules es ctx
  | .payOrSuffer payer cost suffer ctx, .yesNo yes =>
    if yes then do
      if cost.isPayable (← Resolve.view rules) ctx payer then stopAt (cost.pay rules ctx payer)
      else suffer.plan rules ctx
    else suffer.plan rules ctx
  | .chooseTargets effect ctx, .targets chosen => effect.plan rules (ctx.withTargets chosen)
  | work, answer => stopAt (work.resume rules d answer)

/-- The answer says what to do with objects that are still where they were offered. -/
def Ready : Suspension → Answer → Game → Prop
  | .scry s, .cards chosen, g => ∀ o ∈ chosen, g.zone? o = some (.library s)
  | _, _, _ => True

theorem Ready.congr {work : Suspension} {answer : Answer} {g g' : Game}
    (h : work.Ready answer g) (hzone : ∀ o z, g.zone? o = some z → g'.zone? o = some z) :
    work.Ready answer g' := by
  unfold Ready at *
  split
  · exact fun o ho => hzone o _ (h o ho)
  · trivial

theorem ready_of_fits {work : Suspension} {question : Question} {answer : Answer} {g : Game}
    (hfits : work.Fits question g) (hcheck : question.check answer = .ok ()) :
    work.Ready answer g := by
  have hchosen {what : String} {offered chosen seen : List ObjectId} {o : ObjectId}
      (h : Question.checkChosen what offered chosen seen = .ok ()) (ho : o ∈ chosen) :
      o ∈ offered := by
    induction chosen generalizing seen with
    | nil => cases ho
    | cons o' rest ih =>
      unfold Question.checkChosen at h
      split at h
      · cases h
      · next hoffered =>
        split at h
        · cases h
        · rcases List.mem_cons.mp ho with rfl | hrest
          · simpa using hoffered
          · exact ih h hrest
  unfold Ready
  split
  · next s chosen =>
    cases question with
    | cards options fewest most ordered =>
      intro o ho
      have hcount : ∃ u, Question.checkCount "cards" chosen.length fewest most = .ok u ∧
          Question.checkChosen "cards" options chosen [] = .ok () := by
        cases hcount : Question.checkCount "cards" chosen.length fewest most with
        | error failure =>
          simp only [Question.check, hcount] at hcheck
          cases hcheck
        | ok u =>
          simp only [Question.check, hcount] at hcheck
          exact ⟨u, rfl, hcheck⟩
      obtain ⟨-, -, hall⟩ := hcount
      exact hfits o (hchosen hall ho)
    | _ => cases hcheck
  · trivial

variable {rules : Rules} {d : Decision}

/-- Work that goes on without resolving an effect. -/
def isSimple : Suspension → Bool
  | .may _ _ | .modal _ _ | .payOrSuffer _ _ _ _ | .chooseTargets _ _ => false
  | _ => true

theorem asking_resume {work : Suspension} (hsimple : work.isSimple = true) (answer : Answer) :
    Asking (fun _ => True) (work.Ready answer) (work.resume rules d answer) := by
  cases work with
  | search player destination tapped =>
    cases answer with
    | cards chosen => exact LibraryEffect.asking_finishSearch _ _ _ _
    | _ => exact .throw rfl
  | scry player =>
    cases answer with
    | cards chosen => exact LibraryEffect.asking_finishScry _ _
    | _ => exact .throw rfl
  | reorder player =>
    cases answer with
    | order objects => exact LibraryEffect.asking_finishReorder _ _
    | _ => exact .throw rfl
  | separatePiles chooser revealed source =>
    cases answer with
    | firstPile pile => exact .pause fun _ => trivial
    | _ => exact .throw rfl
  | choosePile player first second =>
    cases answer with
    | option index => exact LibraryEffect.asking_takePile _ _ _ _ _
    | _ => exact .throw rfl
  | payCost payer cost =>
    cases answer with
    | cards chosen => exact .andDone (cost.direct_payWith _ _ _)
    | _ => exact .throw rfl
  | chooseColor target duration ctx =>
    cases answer with
    | color color => exact ContinuousEffect.asking_protect _ _ _ _ trivial
    | _ => exact .throw rfl
  | distributeCounters kind ctx =>
    cases answer with
    | distribution shares => exact .andDone (PermanentEffect.direct_placeShares _ _)
    | _ => exact .throw rfl
  | divideDamage ctx =>
    cases answer with
    | distribution shares => exact .andDone (DamageEffect.direct_dealShares _ _ _)
    | _ => exact .throw rfl
  | eachPlayerChooses choice current remaining picks ctx =>
    cases hpick : PlayerChoice.pickOf d.question answer with
    | error failure =>
      simp only [resume, hpick]
      exact .throw ((PlayerChoice.plain_pickOf _ _).fault _ hpick)
    | ok pick =>
      simp only [resume, hpick]
      exact PlayerChoice.asking_goOn _ _ _ _ _
  | effects remaining ctx => exact .throw rfl
  | _ => cases hsimple

/-- The plan of simple work is what it does, up to its question. -/
theorem plan_of_simple {work : Suspension} (hsimple : work.isSimple = true) (answer : Answer) :
    work.plan rules d answer = stopAt (work.resume rules d answer) := by
  cases work with
  | may | modal | payOrSuffer | chooseTargets => cases hsimple
  | _ => rfl

private theorem asking_wrongAnswer {P : Game → Prop} (expected actual : String) :
    Asking (fun _ => True) P (throw (.wrongAnswer expected actual)) := .throw rfl

theorem directly_plan (work : Suspension) (answer : Answer) :
    Directly (fun _ => True) (work.Ready answer) (work.plan rules d answer) Stopping := by
  have hanything {ds : List Duration} : ∀ d ∈ ds, True := fun _ _ => trivial
  cases work with
  | may effect ctx =>
    cases answer with
    | yesNo yes =>
      apply Directly.ite
      · intro hyes
        exact effect.directly_plan ctx hanything
      · intro hno
        exact .pure _ fun _ => stopping_none
    | _ => exact (asking_wrongAnswer _ _).directly_stopAt
  | modal modes ctx =>
    cases answer with
    | modes chosen =>
      cases hmodes : modeEffects modes (SortedSet.ofList chosen).toList with
      | error failure =>
        simp only [plan, hmodes]
        exact .throw ((plain_modeEffects _ _).fault _ hmodes)
      | ok es =>
        simp only [plan, hmodes]
        refine .bind (.emit rfl) fun _ => ?_
        exact Effect.directly_planAll es ctx hanything
    | _ => exact (asking_wrongAnswer _ _).directly_stopAt
  | payOrSuffer payer cost suffer ctx =>
    cases answer with
    | yesNo yes =>
      apply Directly.ite
      · intro hyes
        refine .view (fun b v => by rw [Cost.isPayable_core]) fun v => ?_
        apply Directly.ite
        · intro hpayable
          exact (Cost.asking_pay rules ctx payer cost).directly_stopAt
        · intro hunpayable
          exact suffer.directly_plan ctx hanything
      · intro hno
        exact suffer.directly_plan ctx hanything
    | _ => exact (asking_wrongAnswer _ _).directly_stopAt
  | chooseTargets effect ctx =>
    cases answer with
    | targets chosen => exact effect.directly_plan _ hanything
    | _ => exact (asking_wrongAnswer _ _).directly_stopAt
  | _ =>
    rw [plan_of_simple rfl]
    exact (asking_resume rfl answer).directly_stopAt

/-- Going on with work is following its plan and suspending what is left of it. -/
theorem resume_eq_plan (work : Suspension) (answer : Answer) {p : Progress}
    (hsound : p.game.Sound) (hready : work.Ready answer p.game) :
    work.resume rules d answer p = (work.plan rules d answer >>= suspend) p := by
  cases work with
  | may effect ctx =>
    cases answer with
    | yesNo yes =>
      cases yes with
      | true => exact effect.resolve_eq_plan ctx hsound
      | false => rfl
    | _ => rfl
  | modal modes ctx =>
    cases answer with
    | modes chosen =>
      simp only [resume, resolveModes, plan]
      cases modeEffects modes (SortedSet.ofList chosen).toList with
      | error failure => rfl
      | ok es =>
        exact Effect.resolveAll_eq_plan es ctx (p := { p with
          events := p.events ++ [.modesChosen d.player (SortedSet.ofList chosen).toList] }) hsound
    | _ => rfl
  | payOrSuffer payer cost suffer ctx =>
    cases answer with
    | yesNo yes =>
      cases yes with
      | true =>
        have hplan : plan rules d (.payOrSuffer payer cost suffer ctx) (.yesNo true) = (do
            if cost.isPayable (← Resolve.view rules) ctx payer then
              stopAt (cost.pay rules ctx payer)
            else suffer.plan rules ctx) := rfl
        have hresume : resume rules d (.payOrSuffer payer cost suffer ctx) (.yesNo true) =
            payOrElse rules payer cost suffer ctx := rfl
        rw [hresume, hplan, payOrElse, bind_assoc, view_bind, view_bind]
        split
        · exact (Cost.asking_pay rules ctx payer cost).eq_stopAt hsound trivial
        · exact suffer.resolve_eq_plan ctx hsound
      | false => exact suffer.resolve_eq_plan ctx hsound
    | _ => rfl
  | chooseTargets effect ctx =>
    cases answer with
    | targets chosen => exact effect.resolve_eq_plan _ hsound
    | _ => rfl
  | _ =>
    rw [plan_of_simple rfl]
    exact (asking_resume rfl answer).eq_stopAt hsound hready

theorem resume_done (work : Suspension) {answer : Answer} {p q : Progress}
    (hsound : p.game.Sound) (hready : work.Ready answer p.game)
    (h : work.resume rules d answer p = .ok (.done, q)) :
    q.game.Sound ∧ q.game.stack = p.game.stack := by
  rw [work.resume_eq_plan answer hsound hready] at h
  exact (work.directly_plan answer).done hsound hready h

theorem modeEffects_eq_ok {modes : List Mode} {chosen : List Nat} {es : List Effect}
    (h : modeEffects modes chosen = .ok es) :
    (∀ i ∈ chosen, i < modes.length) ∧ es = chosen.filterMap ((modes.map (·.2))[·]?) := by
  induction chosen generalizing es with
  | nil =>
    cases h
    simp
  | cons i rest ih =>
    unfold modeEffects at h
    split at h
    · cases h
    · next prompt e hmode =>
      cases hrest : modeEffects modes rest with
      | error failure =>
        rw [hrest] at h
        cases h
      | ok es' =>
        rw [hrest] at h
        cases h
        obtain ⟨hwithin, rfl⟩ := ih hrest
        have hi : i < modes.length := (List.getElem?_eq_some_iff.mp hmode).1
        have hfound : (modes.map (·.2))[i]? = some e := by rw [List.getElem?_map, hmode]; rfl
        refine ⟨List.forall_mem_cons.mpr ⟨hi, hwithin⟩, ?_⟩
        rw [List.filterMap_cons, hfound]

private theorem filterMap_range {α : Type} (xs : List α) :
    (List.range xs.length).filterMap (xs[·]?) = xs := by
  induction xs with
  | nil => rfl
  | cons x rest ih =>
    rw [List.length_cons, List.range_succ_eq_map, List.filterMap_cons, List.filterMap_map]
    exact congrArg (x :: ·) ih

/-- Every mode can be chosen once, so the chosen modes are some of all. -/
theorem subperm_modeEffects {modes : List Mode} {chosen : List Nat} {es : List Effect}
    (hnodup : chosen.Nodup) (h : modeEffects modes chosen = .ok es) :
    es.Subperm (modes.map (·.2)) := by
  obtain ⟨hwithin, rfl⟩ := modeEffects_eq_ok h
  have hsubset : chosen ⊆ List.range (modes.map (·.2)).length := by
    intro i hi
    rw [List.length_map]
    exact List.mem_range.mpr (hwithin i hi)
  obtain ⟨sorted, hperm, hsub⟩ := List.subperm_of_subset hnodup hsubset
  have hall := hsub.filterMap ((modes.map (·.2))[·]?)
  rw [filterMap_range] at hall
  exact ⟨_, hperm.filterMap _, hall⟩

/-- What the chosen modes come to is at most what all modes come to. -/
theorem sum_modeEffects_le (size : Effect → Nat) {modes : List Mode} {chosen : List Nat}
    {es : List Effect} (hnodup : chosen.Nodup) (h : modeEffects modes chosen = .ok es) :
    (es.map size).sum ≤ (modes.map fun mode => size mode.2).sum := by
  obtain ⟨es', hperm, hsub⟩ := subperm_modeEffects hnodup h
  have hall : (es'.map size).sum ≤ ((modes.map (·.2)).map size).sum :=
    (hsub.map size).sum_le_sum fun _ _ => Nat.zero_le _
  rw [List.map_map] at hall
  rw [← (hperm.map size).sum_nat]
  exact hall

end Suspension

end CardGame
