import CardGame.Proofs.Play.Reachable

/-!
The stack of suspended work and the pending decision. At every reachable game the topmost frame
waits for the pending decision and every other frame holds effects put off, so the game passes its
check, and a response to the pending decision always finds the work that waits for it.
-/

namespace CardGame

/-- Whether a frame holds effects put off: some effects, and no decision. -/
def Frame.IsPutOff (f : Frame) : Prop :=
  ∃ es ctx, f = ⟨none, .effects es ctx⟩ ∧ es ≠ []

theorem Frame.decision_ofGroup (groups : List Group) :
    ∀ frame ∈ groups.map Frame.ofGroup, frame.decision = none := by
  intro frame hframe
  obtain ⟨group, -, rfl⟩ := List.mem_map.mp hframe
  rfl

namespace Game

variable {g : Game}

/-- The decisions that a game names. -/
def decisionIds (g : Game) : List DecisionId :=
  (g.pending.map (·.id)).toList ++ g.stack.filterMap (·.decision)

/-- The stack of suspended work goes with the pending decision. -/
structure Controlled (g : Game) : Prop where
  idle : g.pending = none → g.stack = []
  waiting : ∀ d, g.pending = some d → ∃ work below,
    g.stack = ⟨some d.id, work⟩ :: below ∧ ∀ frame ∈ below, frame.IsPutOff
  issued : ∀ id ∈ g.decisionIds, id.val < g.nextDecision
  checked : g.check = .ok ()

theorem checkFrames_putOff {frames : List Frame} (h : ∀ frame ∈ frames, frame.decision = none)
    (rest : List Frame) (seen : List DecisionId) :
    checkFrames (frames ++ rest) seen = checkFrames rest seen := by
  induction frames with
  | nil => rfl
  | cons frame frames ih =>
    obtain ⟨decision, work⟩ := frame
    cases h _ List.mem_cons_self
    exact ih fun frame hframe => h frame (List.mem_cons_of_mem _ hframe)

/-- One decision is named by the frames of a poised game, and it is the pending one. -/
theorem Poised.check_eq_ok (h : g.Poised) (hsound : g.Sound) : g.check = .ok () := by
  have hzones := hsound.housed.consistent.check_eq_ok
  unfold check
  rw [hzones]
  cases h with
  | idle hpending hstack =>
    rw [hpending, hstack]
    rfl
  | waiting d work groups hpending hstack =>
    have hframes : checkFrames g.stack.reverse [] = .ok () := by
      rw [hstack, List.reverse_cons, checkFrames_putOff]
      · rfl
      · intro frame hframe
        exact Frame.decision_ofGroup groups frame (List.mem_reverse.mp hframe)
    rw [hframes, hpending, hstack]
    exact if_pos rfl

theorem Poised.controls (h : g.Poised) (hsound : g.Sound) : g.Controlled := by
  have hchecked := h.check_eq_ok hsound
  cases h with
  | idle hpending hstack =>
    refine ⟨fun _ => hstack, fun d hd => ?_, fun id hid => ?_, hchecked⟩
    · rw [hpending] at hd
      cases hd
    · simp [decisionIds, hpending, hstack] at hid
  | waiting d work groups hpending hstack hgroups hissued =>
    refine ⟨fun hnone => ?_, fun d' hd' => ?_, fun id hid => ?_, hchecked⟩
    · rw [hpending] at hnone
      cases hnone
    · rw [hpending] at hd'
      cases hd'
      refine ⟨work, _, hstack, fun frame hframe => ?_⟩
      obtain ⟨group, hgroup, rfl⟩ := List.mem_map.mp hframe
      exact ⟨group.1, group.2, rfl, hgroups group hgroup⟩
    · have hbelow : (groups.map Frame.ofGroup).filterMap (·.decision) = [] :=
        List.filterMap_eq_nil_iff.mpr (Frame.decision_ofGroup groups)
      have hnamed : id = d.id := by simpa [decisionIds, hpending, hstack, hbelow] using hid
      rw [hnamed]
      exact hissued

end Game

/-- A success has nothing pending and nothing suspended, and a pause waits for the decision it
announces. -/
def Result.Controlled : Result → Prop
  | .success g _ => g.pending = none ∧ g.stack = []
  | .paused g d _ => g.pending = some d
  | .failed _ _ => True

theorem Result.Proper.controls {before : Game} {r : Result} (h : r.Proper before) :
    r.Controlled := by
  cases r with
  | success g es => exact ⟨h.2.1, h.2.2.1⟩
  | paused g d es => exact h.2.1
  | failed g failure => trivial

/-- At every reachable game the stack goes with the pending decision. Executing or resuming from
there keeps to that, and resuming always finds the work that waits for the answer. -/
theorem Game.Reachable.controlled {g : Game} (h : g.Reachable) :
    g.Controlled ∧ ∀ rules : Rules, (∀ e ctx, (rules.execute g e ctx).Controlled) ∧
      ∀ r, (rules.resume g r).Controlled ∧
        ∀ g' id, rules.resume g r ≠ .failed g' (.nothingToResume id) := by
  refine ⟨h.poised.controls h.sound, fun rules => ⟨fun e ctx => ?_, fun r => ⟨?_, ?_⟩⟩⟩
  · exact (rules.proper_execute h.sound h.poised e ctx).controls
  · exact (rules.proper_resume h.sound h.poised r).controls
  · exact fun g' id => Rules.resume_ne_nothingToResume h.sound h.poised

/-- A composite in a composite that asks leaves two groups of effects put off beneath the question.
-/
theorem Game.controlled_of_nested_may : ∃ g₀ g, start {} = .ok g₀ ∧
    g = (Move.execute {} (.composite [.composite [.may "Gain?" (.gainLife 1), .gainLife 2],
      .gainLife 3]) {}).apply g₀ ∧
    g.stack.length = 3 ∧ g.Controlled ∧
      ∀ r g' id, Rules.resume {} g r ≠ .failed g' (.nothingToResume id) := by
  have hreachable (m : Move) {g₀ : Game} (hstart : Game.start {} = .ok g₀)
      (hseated : m.Seated g₀) : (m.apply g₀).Reachable := .move m (.start hstart) hseated
  refine ⟨_, _, rfl, rfl, rfl, ?_, fun r => ?_⟩
  · exact (Reachable.controlled (hreachable (.execute _ _ _) rfl trivial)).1
  · exact (((Reachable.controlled (hreachable (.execute _ _ _) rfl trivial)).2 _).2 r).2

end CardGame
