import CardGame.Proofs.Play.Waiting
import CardGame.Proofs.Resolve.Stopping

/-!
Selections of targets. A spec accepts the selections of different legal targets within its bounds
(`View.acceptsSelection_iff`), and the question for targets accepts the same ones, although it cuts
the upper bound down to what is there: nobody can choose more different things than there are
(`Rules.execute_chooseTargets`).
-/

namespace CardGame

open Resolve Game

/-- A spec never asks for more than it allows. -/
theorem TargetSpec.fewest_le_most (spec : TargetSpec) (available : Nat) :
    (spec.bounds available).1 ≤ (spec.bounds available).2 :=
  Nat.min_le_right _ _

namespace Question.Selects

variable {α : Type} {offered chosen : List α} {fewest most : Nat}

/-- There are never more different things chosen than offered. -/
theorem length_le (h : Selects offered fewest most chosen) : chosen.length ≤ offered.length :=
  (List.subperm_of_subset h.once h.among).length_le

/-- Allowing more than is offered allows nothing new. -/
theorem cut_iff : Selects offered fewest (min most offered.length) chosen ↔
    Selects offered fewest most chosen := by
  constructor
  · intro h
    exact ⟨h.enough, Nat.le_trans h.notTooMany (Nat.min_le_left _ _), h.once, h.among⟩
  · intro h
    exact ⟨h.enough, Nat.le_min.mpr ⟨h.notTooMany, h.length_le⟩, h.once, h.among⟩

/-- If nothing may be chosen and nothing has to be, the empty selection is the only one. -/
theorem iff_eq_nil (hnone : min most offered.length = 0) (hfree : fewest = 0) :
    Selects offered fewest most chosen ↔ chosen = [] := by
  constructor
  · intro h
    have hlength := (cut_iff.mpr h).notTooMany
    rw [hnone] at hlength
    exact List.length_eq_zero_iff.mp (Nat.le_zero.mp hlength)
  · rintro rfl
    exact ⟨Nat.le_of_eq hfree, Nat.zero_le _, List.nodup_nil, List.nil_subset _⟩

end Question.Selects

namespace View

variable {v : View} {ctx : Context} {spec : TargetSpec}

theorem distinctAmong_iff {legal chosen : List ObjectId} :
    distinctAmong legal chosen = true ↔ chosen.Nodup ∧ chosen ⊆ legal := by
  induction chosen with
  | nil => simp [distinctAmong]
  | cons o rest ih =>
    simp only [distinctAmong, Bool.and_eq_true, ih, List.contains_eq_mem, decide_eq_true_eq,
      Bool.not_eq_true', decide_eq_false_iff_not, List.nodup_cons, List.cons_subset]
    tauto

/-- Legal targets are listed once each. -/
theorem nodup_legalTargets (v : View) (ctx : Context) (r : Requirement) :
    (v.legalTargets ctx r).Nodup :=
  SortedMap.keys_nodup _

/-- A spec accepts the selections of different legal targets within its bounds. -/
theorem acceptsSelection_iff {chosen : List ObjectId} :
    v.acceptsSelection ctx spec chosen = true ↔
      Question.Selects (v.legalTargets ctx spec.requirement)
        (spec.bounds (v.legalTargets ctx spec.requirement).length).1
        (spec.bounds (v.legalTargets ctx spec.requirement).length).2 chosen := by
  simp only [acceptsSelection, Bool.and_eq_true, decide_eq_true_eq, distinctAmong_iff]
  constructor
  · rintro ⟨⟨henough, hmost⟩, honce, hamong⟩
    exact ⟨henough, hmost, honce, hamong⟩
  · rintro ⟨henough, hmost, honce, hamong⟩
    exact ⟨⟨henough, hmost⟩, honce, hamong⟩

/-- There are enough legal targets if and only if some selection is accepted: the first so many of
them are one. -/
theorem hasEnoughTargets_iff :
    v.hasEnoughTargets ctx spec = true ↔ ∃ chosen, v.acceptsSelection ctx spec chosen = true := by
  simp only [hasEnoughTargets, decide_eq_true_eq, acceptsSelection_iff]
  constructor
  · intro henough
    exact ⟨_, Question.selects_take (v.nodup_legalTargets ctx _) (spec.fewest_le_most _) henough⟩
  · rintro ⟨chosen, hselects⟩
    exact Nat.le_trans hselects.enough hselects.length_le

end View

namespace Effect

variable {v : View} {ctx : Context} {spec : TargetSpec}

/-- Too few legal targets leave no selection. -/
theorem acceptsSelection_of_tooFew (h : targeting v ctx spec = .tooFew) (chosen : List ObjectId) :
    v.acceptsSelection ctx spec chosen = false := by
  simp only [targeting] at h
  split at h
  · next hfew =>
    refine Bool.eq_false_iff.mpr fun haccepts => ?_
    have hselects := View.acceptsSelection_iff.mp haccepts
    exact absurd (Nat.le_trans hselects.enough hselects.length_le) (Nat.not_le.mpr hfew)
  · split at h <;> cases h

/-- Where no targets are chosen, only the empty selection is accepted. -/
theorem acceptsSelection_of_untargeted (h : targeting v ctx spec = .untargeted)
    (chosen : List ObjectId) : v.acceptsSelection ctx spec chosen = true ↔ chosen = [] := by
  simp only [targeting] at h
  split at h
  · cases h
  · next henough =>
    split at h
    · next hnone =>
      have hordered := spec.fewest_le_most (v.legalTargets ctx spec.requirement).length
      rw [View.acceptsSelection_iff, Question.Selects.iff_eq_nil hnone (by omega)]
    · cases h

/-- The question for targets lets pass what the spec accepts. -/
theorem check_targets_iff {legal : List ObjectId} {fewest most : Nat}
    (h : targeting v ctx spec = .choose legal fewest most) (chosen : List ObjectId) :
    (Question.targets legal fewest most).check (.targets chosen) = .ok () ↔
      v.acceptsSelection ctx spec chosen = true := by
  simp only [targeting] at h
  split at h
  · cases h
  · split at h
    · cases h
    · cases h
      rw [Question.check_eq_ok_iff, View.acceptsSelection_iff]
      exact Question.Selects.cut_iff

end Effect

namespace Rules

variable {g : Game} {e : Effect} {ctx : Context} {spec : TargetSpec}

/-- Both checks of a selection of targets agree. Where an effect asks for its targets, the question
lets pass what the spec accepts; where there are too few targets, nothing happens and the spec
accepts no selection; where the effect goes on without any, the spec accepts the empty selection
only. There are enough targets if and only if the spec accepts some selection. -/
theorem execute_chooseTargets (rules : Rules) (hidle : g.pending = none) (spec : TargetSpec)
    (e : Effect) (ctx : Context) :
    let v := rules.view g
    let executed := rules.execute g (.chooseTargets spec e) ctx
    (v.hasEnoughTargets ctx spec = true ↔
      ∃ chosen, v.acceptsSelection ctx spec chosen = true) ∧
    match Effect.targeting v ctx spec with
    | .tooFew => executed = .success g.sweep.1 g.sweep.2 ∧
      ∀ chosen, v.acceptsSelection ctx spec chosen = false
    | .untargeted => executed = rules.execute g e (ctx.withTargets []) ∧
      ∀ chosen, v.acceptsSelection ctx spec chosen = true ↔ chosen = []
    | .choose legal fewest most => ∃ g' d es, executed = .paused g' d es ∧
      d.question = .targets legal fewest most ∧
      g'.stack = ⟨some d.id, .chooseTargets e ctx⟩ :: g.stack ∧
      ∀ chosen, d.question.check (.targets chosen) = .ok () ↔
        v.acceptsSelection ctx spec chosen = true := by
  refine ⟨View.hasEnoughTargets_iff, ?_⟩
  have hresolve : (Effect.chooseTargets spec e).resolve rules ctx { game := g } =
      (match Effect.targeting (rules.view g) ctx spec with
      | .tooFew => pure Outcome.done
      | .untargeted => e.resolve rules (ctx.withTargets [])
      | .choose legal fewest most => ask (some ⟨ctx.controller, "Choose targets",
          .targets legal fewest most, ctx.source, .chooseTargets e ctx⟩)) { game := g } := by
    rw [Effect.resolve, view_bind]
    rfl
  cases htargeting : Effect.targeting (rules.view g) ctx spec with
  | tooFew =>
    rw [htargeting] at hresolve
    exact ⟨execute_of_done hidle hresolve, Effect.acceptsSelection_of_tooFew htargeting⟩
  | untargeted =>
    rw [htargeting] at hresolve
    exact ⟨execute_congr hresolve, Effect.acceptsSelection_of_untargeted htargeting⟩
  | choose legal fewest most =>
    rw [htargeting] at hresolve
    exact ⟨_, _, _, execute_of_asks_sweep hidle hresolve, rfl, rfl,
      Effect.check_targets_iff htargeting⟩

/-- Of up to 3 creatures, with 1 there, the question and the spec both accept that one or none. -/
theorem execute_chooseTargets_of_creature : ∃ g₀, start {} = .ok g₀ ∧
    let g := (Move.spawn (.creature ⟨7⟩ "Bear" 2 2) ⟨0⟩ .battlefield).apply g₀
    let spec : TargetSpec := { requirement := .creature {}, count := .upTo 3 }
    g.pending = none ∧ ∃ g' d es, execute {} g (.chooseTargets spec .destroyTarget) {} =
      .paused g' d es ∧ d.question = .targets [⟨2⟩] 0 1 ∧
      ∀ chosen, d.question.check (.targets chosen) = .ok () ↔
        (view {} g).acceptsSelection {} spec chosen = true := by
  have hagree (g : Game) (hidle : g.pending = none)
      (hlegal : (view {} g).legalTargets {} (.creature {}) = [⟨2⟩]) :
      ∃ g' d es, execute {} g (.chooseTargets { requirement := .creature {}, count := .upTo 3 }
        .destroyTarget) {} = .paused g' d es ∧ d.question = .targets [⟨2⟩] 0 1 ∧
        ∀ chosen, d.question.check (.targets chosen) = .ok () ↔
          (view {} g).acceptsSelection {} { requirement := .creature {}, count := .upTo 3 }
            chosen = true := by
    have hasked := (execute_chooseTargets {} hidle
      { requirement := .creature {}, count := .upTo 3 } .destroyTarget {}).2
    have htargeting : Effect.targeting (view {} g) {}
        { requirement := .creature {}, count := .upTo 3 } = .choose [⟨2⟩] 0 1 := by
      rw [Effect.targeting, hlegal]
      rfl
    rw [htargeting] at hasked
    obtain ⟨g', d, es, hpaused, hquestion, -, hcheck⟩ := hasked
    exact ⟨g', d, es, hpaused, hquestion, hcheck⟩
  exact ⟨_, rfl, by decide +kernel, hagree _ (by decide +kernel) (by decide +kernel)⟩

end Rules

end CardGame
