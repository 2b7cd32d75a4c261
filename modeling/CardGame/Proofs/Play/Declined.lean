import CardGame.Proofs.Play.Waiting

/-!
Targets that are declined. A spec may accept that no targets are chosen, and the effect is then
resolved without any. An effect on the first target cannot be: it refers to a target that is not
there, so the resolution fails. Where the player was asked, the answer fails and the question stays
(`Game.Reachable.declined`).
-/

namespace CardGame

open Resolve

/-- The reference to the only object that an effect acts on. -/
def ContinuousEffect.target? : ContinuousEffect → Option Reference
  | .modifyStats r .. | .setBase r .. | .animate r .. | .grantKeyword r .. | .removeKeyword r ..
  | .gainControl r .. | .regenerate r | .exileOnDeath r | .protectFromColor r .. => some r
  | .modifyGroup .. | .grantKeywordToGroup .. => none

@[inherit_doc ContinuousEffect.target?]
def PermanentEffect.target? : PermanentEffect → Option Reference
  | .tap r | .untap r | .addCounters r .. | .removeCounters r .. => some r
  | .distributeCounters .. => none

@[inherit_doc ContinuousEffect.target?]
def RemovalEffect.target? : RemovalEffect → Option Reference
  | .destroy r | .exile r | .returnToHand r => some r
  | .destroyAll .. | .sacrifice .. => none

@[inherit_doc ContinuousEffect.target?]
def DamageEffect.target? : DamageEffect → Option Reference
  | .deal r _ => some r
  | .divide .. | .gainLife .. | .loseLife .. => none

@[inherit_doc ContinuousEffect.target?]
def Effect.target? : Effect → Option Reference
  | .continuous e => e.target?
  | .permanent e => e.target?
  | .removal e => e.target?
  | .damage e => e.target?
  | _ => none

variable {rules : Rules} {ctx : Context} {r : Reference} {p : Progress}

namespace Resolve

variable {α β : Type}

theorem amount_bind (a : Amount) (k : Int → Resolve α) :
    (amount rules ctx a >>= k) p = k ((rules.view p.game).evaluate ctx a) p := rfl

theorem count_bind (a : Amount) (k : Nat → Resolve α) :
    (count rules ctx a >>= k) p = k ((rules.view p.game).evaluateCount ctx a) p := rfl

theorem object_of_unbound (hunbound : View.object? ctx r = none) :
    object ctx r p = .error (.unboundReference r) := by
  unfold object
  rw [hunbound]
  rfl

theorem permanent_of_unbound (hunbound : View.object? ctx r = none) :
    permanent rules ctx r p = .error (.unboundReference r) :=
  bind_of_error (object_of_unbound hunbound)

end Resolve

theorem ContinuousEffect.resolve_of_unbound {e : ContinuousEffect} (he : e.target? = some r)
    (hunbound : View.object? ctx r = none) :
    e.resolve rules ctx p = .error (.unboundReference r) := by
  have hpermanent (changes : List Modification) (duration : Duration) :
      onPermanent rules ctx r changes duration p = .error (.unboundReference r) :=
    bind_of_error (permanent_of_unbound hunbound)
  cases e with
  | modifyGroup | grantKeywordToGroup => cases he
  | protectFromColor =>
    cases he
    exact bind_of_error (permanent_of_unbound hunbound)
  | _ =>
    cases he
    exact hpermanent _ _

theorem PermanentEffect.resolve_of_unbound {e : PermanentEffect} (he : e.target? = some r)
    (hunbound : View.object? ctx r = none) :
    e.resolve rules ctx p = .error (.unboundReference r) := by
  cases e with
  | distributeCounters => cases he
  | tap | untap =>
    cases he
    exact bind_of_error (permanent_of_unbound hunbound)
  | addCounters | removeCounters =>
    cases he
    exact (count_bind _ _).trans (bind_of_error (object_of_unbound hunbound))

theorem RemovalEffect.resolve_of_unbound {e : RemovalEffect} (he : e.target? = some r)
    (hunbound : View.object? ctx r = none) :
    e.resolve rules ctx p = .error (.unboundReference r) := by
  cases e with
  | destroyAll | sacrifice => cases he
  | destroy =>
    cases he
    exact bind_of_error (permanent_of_unbound hunbound)
  | exile | returnToHand =>
    cases he
    exact bind_of_error (object_of_unbound hunbound)

theorem DamageEffect.resolve_of_unbound {e : DamageEffect} (he : e.target? = some r)
    (hunbound : View.object? ctx r = none) :
    e.resolve rules ctx p = .error (.unboundReference r) := by
  cases e with
  | divide | gainLife | loseLife => cases he
  | deal =>
    cases he
    exact (amount_bind _ _).trans (bind_of_error (object_of_unbound hunbound))

namespace Effect

variable {e : Effect}

/-- An effect on an object that is not there cannot be resolved. -/
theorem resolve_of_unbound (he : e.target? = some r) (hunbound : View.object? ctx r = none) :
    e.resolve rules ctx p = .error (.unboundReference r) := by
  cases e with
  | continuous e => exact ContinuousEffect.resolve_of_unbound he hunbound
  | permanent e => exact PermanentEffect.resolve_of_unbound he hunbound
  | removal e => exact RemovalEffect.resolve_of_unbound he hunbound
  | damage e => exact DamageEffect.resolve_of_unbound he hunbound
  | _ => cases he

/-- An effect on one of the targets cannot be resolved without targets. -/
theorem resolve_without_targets {i : Nat} (he : e.target? = some (.target i)) :
    e.resolve rules (ctx.withTargets []) p = .error (.unboundReference (.target i)) :=
  resolve_of_unbound he (by rfl)

/-- The question for the targets of an effect, as many as may be chosen and are there. -/
def targetRequest (rules : Rules) (g : Game) (ctx : Context) (spec : TargetSpec) (e : Effect) :
    Request :=
  let legal := rules.legalTargets g ctx spec.requirement
  { player := ctx.controller
    prompt := "Choose targets"
    question := .targets legal 0 (min (spec.bounds legal.length).2 legal.length)
    source := ctx.source
    work := .chooseTargets e ctx }

/-- Whether there are targets to choose. -/
def hasChoice (rules : Rules) (g : Game) (ctx : Context) (spec : TargetSpec) : Prop :=
  let legal := rules.legalTargets g ctx spec.requirement
  legal ≠ [] ∧ (spec.bounds legal.length).2 ≠ 0

/-- Where choosing no targets is accepted, the player is asked if there are targets to choose, and
else the effect goes on without any. -/
theorem resolve_chooseTargets {spec : TargetSpec}
    (haccepts : (rules.view p.game).acceptsSelection ctx spec [] = true) :
    (hasChoice rules p.game ctx spec → (chooseTargets spec e).resolve rules ctx p =
      ask (some (targetRequest rules p.game ctx spec e)) p) ∧
    (¬hasChoice rules p.game ctx spec → (chooseTargets spec e).resolve rules ctx p =
      e.resolve rules (ctx.withTargets []) p) := by
  have hfewest :
      (spec.bounds ((rules.view p.game).legalTargets ctx spec.requirement).length).1 = 0 := by
    simp only [View.acceptsSelection, List.length_nil, Bool.and_eq_true, decide_eq_true_eq]
      at haccepts
    exact Nat.le_zero.mp haccepts.1.1
  have hmost : min (spec.bounds ((rules.view p.game).legalTargets ctx spec.requirement).length).2
      ((rules.view p.game).legalTargets ctx spec.requirement).length = 0 ↔
      ¬hasChoice rules p.game ctx spec := by
    rw [hasChoice, Rules.legalTargets, ne_eq, ← List.length_eq_zero_iff]
    omega
  rw [resolve, view_bind]
  unfold targeting
  simp only [hfewest, Nat.not_lt_zero, if_false]
  constructor
  · intro hsome
    rw [if_neg fun h => hmost.mp h hsome]
    rfl
  · intro hnone
    rw [if_pos (hmost.mpr hnone)]

end Effect

namespace Game

variable {g : Game} {e : Effect}

/-- If no targets are chosen for an effect on the first target, because there are none to choose or
because the player declines, the effect cannot be resolved: executing it fails, or the answer does
and the question stays. -/
theorem Reachable.declined (h : g.Reachable) (he : e.target? = some (.target 0)) :
    (∀ rules ctx spec, g.pending = none → (rules.view g).acceptsSelection ctx spec [] = true →
      let asked := Effect.targetRequest rules g ctx spec e
      (¬Effect.hasChoice rules g ctx spec → rules.execute g (.chooseTargets spec e) ctx =
        .failed g (.unboundReference (.target 0))) ∧
      (Effect.hasChoice rules g ctx spec → rules.execute g (.chooseTargets spec e) ctx =
          .paused (g.waiting asked) (asked.decision ⟨g.nextDecision⟩)
            [.decisionRequested ⟨g.nextDecision⟩ ctx.controller] ∧
        ∀ rules', Rules.resume rules' (g.waiting asked) ⟨⟨g.nextDecision⟩, .targets []⟩ =
          .failed (g.waiting asked) (.unboundReference (.target 0)))) ∧
    ∀ d ctx below, g.pending = some d → g.stack = ⟨some d.id, .chooseTargets e ctx⟩ :: below →
      d.question.check (.targets []) = .ok () → ∀ rules,
        Rules.resume rules g ⟨d.id, .targets []⟩ = .failed g (.unboundReference (.target 0)) := by
  have hanswer {g : Game} {d : Decision} {ctx : Context} {below : List Frame}
      (hpending : g.pending = some d)
      (hstack : g.stack = ⟨some d.id, .chooseTargets e ctx⟩ :: below)
      (hcheck : d.question.check (.targets []) = .ok ()) (rules : Rules) :
      rules.resume g ⟨d.id, .targets []⟩ = .failed g (.unboundReference (.target 0)) :=
    Rules.resume_of_fails hpending hstack hcheck fun p => Effect.resolve_without_targets he
  refine ⟨fun rules ctx spec hidle haccepts => ?_, fun d ctx below hpending hstack hcheck rules =>
    hanswer hpending hstack hcheck rules⟩
  obtain ⟨hasks, hgoes⟩ := Effect.resolve_chooseTargets (p := { game := g }) (e := e) haccepts
  constructor
  · intro hnone
    exact Rules.execute_of_fails hidle ((hgoes hnone).trans (Effect.resolve_without_targets he))
  · intro hsome
    refine ⟨Rules.execute_of_asks hidle h.swept (hasks hsome), fun rules' => ?_⟩
    exact hanswer (d := (Effect.targetRequest rules g ctx spec e).decision ⟨g.nextDecision⟩) rfl
      rfl rfl rules'

/-- A player who may destroy a creature, and declines, is asked on and on. -/
theorem declined_of_creature : ∃ g₀, start {} = .ok g₀ ∧
    let g := (Move.spawn (.creature ⟨7⟩ "Bear" 2 2) ⟨0⟩ .battlefield).apply g₀
    let spec : TargetSpec := { requirement := .creature {}, optional := true }
    let asked := Effect.targetRequest {} g {} spec .destroyTarget
    g.pending = none ∧ (Rules.view {} g).acceptsSelection {} spec [] = true ∧
    asked.question = .targets [⟨2⟩] 0 1 ∧
    Rules.execute {} g (.chooseTargets spec .destroyTarget) {} =
      .paused (g.waiting asked) (asked.decision ⟨1⟩) [.decisionRequested ⟨1⟩ ⟨0⟩] ∧
    Rules.resume {} (g.waiting asked) ⟨⟨1⟩, .targets []⟩ =
      .failed (g.waiting asked) (.unboundReference (.target 0)) := by
  refine ⟨_, rfl, by decide +kernel, by decide +kernel, by decide +kernel, ?_⟩
  have hspawned := Reachable.move (.spawn (.creature ⟨7⟩ "Bear" 2 2) ⟨0⟩ .battlefield)
    (.start (s := {}) rfl) Nat.zero_lt_two
  have hdeclined := (Reachable.declined hspawned (e := .destroyTarget) rfl).1 {} {}
    { requirement := .creature {}, optional := true } (by decide +kernel) (by decide +kernel)
  obtain ⟨hpaused, hfails⟩ := hdeclined.2 ⟨by decide +kernel, by decide +kernel⟩
  exact ⟨hpaused, hfails {}⟩

/-- Where a spec accepts that no targets are chosen, the effect may fail for want of one: both when
there is nothing to choose and when the player declines. -/
theorem not_declined_in_peace :
    (¬ ∀ (g : Game) (rules : Rules) (spec : TargetSpec) (e : Effect) (ctx : Context), g.Reachable →
      g.pending = none → e.target? = some (.target 0) →
      (rules.view g).acceptsSelection ctx spec [] = true →
      rules.legalTargets g ctx spec.requirement = [] →
      (rules.execute g (.chooseTargets spec e) ctx).isFailed = false) ∧
    ¬ ∀ (g g' : Game) (rules : Rules) (spec : TargetSpec) (e : Effect) (ctx : Context)
      (d : Decision) (es : List Event), g.Reachable →
      e.target? = some (.target 0) → (rules.view g).acceptsSelection ctx spec [] = true →
      rules.execute g (.chooseTargets spec e) ctx = .paused g' d es →
      (rules.resume g' ⟨d.id, .targets []⟩).isFailed = false := by
  have hstart := Reachable.start (s := {}) rfl
  constructor
  · intro h
    have hfine := h _ {} { requirement := .creature {}, optional := true } .destroyTarget {} hstart
      rfl rfl (by decide +kernel) (by decide +kernel)
    revert hfine
    decide +kernel
  · intro h
    have hspawned := Reachable.move (.spawn (.creature ⟨7⟩ "Bear" 2 2) ⟨0⟩ .battlefield) hstart
      Nat.zero_lt_two
    have hanswered (g : Game) (hreachable : g.Reachable) (r : Result)
        (haccepts : (Rules.view {} g).acceptsSelection {}
          { requirement := .creature {}, optional := true } [] = true)
        (hr : Rules.execute {} g (.chooseTargets
          { requirement := .creature {}, optional := true } .destroyTarget) {} = r)
        (hpaused : r = .paused r.game ⟨⟨1⟩, ⟨0⟩, "Choose targets", none, .targets [⟨2⟩] 0 1⟩
          r.events) : (Rules.resume {} r.game ⟨⟨1⟩, .targets []⟩).isFailed = false :=
      h g _ {} _ .destroyTarget {} _ _ hreachable rfl haccepts (hr.trans hpaused)
    have hfine := hanswered _ hspawned _ (by decide +kernel) rfl (by decide +kernel)
    revert hfine
    decide +kernel

end Game

end CardGame
