import CardGame.Proofs.Play.Decisions
import CardGame.Proofs.Resolve.Deed

/-!
Executing and resuming, deed by deed. Whatever a result comes to, the deeds that its events tell of
lead from the game before to the game after.
-/

namespace CardGame

open Resolve

namespace Resolve

/-- Floating effects that have stopped working end, and each is told. -/
theorem Accounted.settled {P : Game → Prop} {r : Resolve Outcome} (h : Accounted P r) :
    Accounted P (settled r) := by
  refine ⟨fun {p q outcome} hp hr => ?_⟩
  rw [settled_apply] at hr
  cases hrun : r p with
  | error failure =>
    rw [hrun] at hr
    cases hr
  | ok result =>
    rw [hrun] at hr
    cases hr
    exact (h.accounts hp hrun).trans (.once (.expire _ _))

/-- The result of a resolution tells what was done. A failure tells nothing and does nothing. -/
theorem Accounted.deeds {P : Game → Prop} {r : Resolve Outcome} {g : Game} (h : Accounted P r)
    (hp : P g) : g.Deeds (r.resultIn g).events (r.resultIn g).game := by
  have hresult : r.resultIn g = .ofRun g (r { game := g }) := rfl
  rw [hresult]
  cases hrun : r { game := g } with
  | error failure => exact .refl g
  | ok result =>
    obtain ⟨outcome, q⟩ := result
    obtain ⟨es, hevents, hdeeds⟩ := h.accounts (p := { game := g }) hp hrun
    rw [List.nil_append] at hevents
    subst hevents
    cases outcome with
    | done => exact hdeeds
    | paused decision => exact hdeeds

end Resolve

namespace Rules

variable {rules : Rules}

/-- Executing an effect is a course of deeds, and its events tell of them. -/
theorem deeds_execute (g : Game) (e : Effect) (ctx : Context) :
    g.Deeds (rules.execute g e ctx).events (rules.execute g e ctx).game := by
  unfold execute
  split
  · exact .refl g
  · have hwoven : Woven True (fun _ => True) (e.resolve rules ctx) :=
      e.woven_resolve ctx trivial fun _ => trivial
    exact hwoven.accounted.settled.deeds trivial

/-- Going on with an answer that the work can go on with is a course of deeds, if the objects that
the answer names are still where they were offered. -/
theorem accounted_proceed {d : Decision} {work : Suspension} {q : Question} {answer : Answer}
    (hquestion : d.question = q) (hreceives : work.Receives q answer) :
    Accounted (fun g => g.pending = some d ∧ work.Ready answer g)
      (rules.proceed d work answer) := by
  have hresume : Accounted (work.Ready answer) (work.resume rules d answer) := by
    by_cases hscry : ∃ player, work = .scry player
    · obtain ⟨player, rfl⟩ := hscry
      cases hreceives with
      | scry => exact accounted_finishScry player _
    · have hwoven := work.woven_resume rules hquestion hreceives
        (fun player hplayer => hscry ⟨player, hplayer⟩) work.grantsTo_anybody fun _ => trivial
      exact hwoven.accounted.of_pre fun _ => trivial
  refine ⟨fun {p q a} hp hr => ?_⟩
  obtain ⟨hpending, hready⟩ := hp
  have hgoOn : Accounted (work.Ready answer) (do
      rules.chain rules.chainLimit (← work.resume rules d answer)) :=
    .bind hresume fun outcome => (rules.woven_chain trivial _ outcome).accounted
  have hanswered := Progress.Told.once (p := p) (.answer hpending)
  exact hanswered.trans (hgoOn.accounts (hready.congr fun _ _ => id) hr)

/-- Either a response is turned down before anything is resolved, or the work that waits for it goes
on with an answer that it can receive. -/
theorem resume_eq_settled (rules : Rules) {g : Game} (h : g.Reachable) (r : Response) :
    (∃ failure, rules.resume g r = .failed g failure) ∨
      ∃ d work below, g.pending = some d ∧ g.stack = ⟨some d.id, work⟩ :: below ∧
        work.Receives d.question r.answer ∧ work.Ready r.answer g ∧
        rules.resume g r = (settled (rules.proceed d work r.answer)).resultIn g := by
  cases h.poised with
  | idle hpending => exact .inl ⟨_, resume_idle hpending r⟩
  | waiting d work groups hpending hstack hgroups hissued hfits =>
    rw [resume_waiting hpending hstack]
    cases hobjection : objection d r with
    | some failure => exact .inl ⟨failure, rfl⟩
    | none =>
      obtain ⟨-, hcheck⟩ := objection_eq_none hobjection
      obtain ⟨-, hconsumes, -⟩ := h.answerable d work _ hpending hstack
      have hreceives := hconsumes.receives (Question.check_eq_ok_iff.mp hcheck)
      have hready := Suspension.ready_of_fits hfits hcheck
      exact .inr ⟨d, work, _, hpending, hstack, hreceives, hready, rfl⟩

/-- Resuming with an answer is a course of deeds, and its events tell of them. -/
theorem deeds_resume {g : Game} (h : g.Reachable) (r : Response) :
    g.Deeds (rules.resume g r).events (rules.resume g r).game := by
  obtain ⟨failure, hfailed⟩ | ⟨d, work, -, hpending, -, hreceives, hready, hresumed⟩ :=
    rules.resume_eq_settled h r
  · rw [hfailed]
    exact .refl g
  · rw [hresumed]
    exact (accounted_proceed rfl hreceives).settled.deeds ⟨hpending, hready⟩

end Rules

end CardGame
