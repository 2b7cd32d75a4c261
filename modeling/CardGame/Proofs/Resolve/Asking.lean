import CardGame.Proofs.Resolve.Action

/-!
Parts of a resolution that may end by asking a player. Such a part first does something directly and
then asks, or is done: putting the question is the last thing that it does. `Resolve.heldBack` does
the same without putting the question, and answers what would have been asked.
-/

namespace CardGame

/-- A question for a player, with the work that waits for the answer. -/
structure Request where
  player : Seat
  prompt : String
  question : Question
  source : Option ObjectId
  work : Suspension
deriving DecidableEq

/-- The decision of an identity that asks the question. -/
def Request.decision (r : Request) (id : DecisionId) : Decision where
  id
  player := r.player
  prompt := r.prompt
  source := r.source
  question := r.question

/-- Work that goes on with what was offered finds it where it was: a scry offers cards that lie in
the player's library. -/
def Suspension.Fits : Suspension → Question → Game → Prop
  | .scry s, .cards options _ _ _, g => ∀ o ∈ options, g.zone? o = some (.library s)
  | _, _, _ => True

theorem Suspension.Fits.congr {work : Suspension} {question : Question} {g g' : Game}
    (h : work.Fits question g) (hzone : ∀ o z, g.zone? o = some z → g'.zone? o = some z) :
    work.Fits question g' := by
  unfold Fits at *
  split
  · exact fun o ho => hzone o _ (h o ho)
  · trivial

namespace Resolve

open Progress

/-- Puts a question to a player if there is one. -/
def ask : Option Request → Resolve Outcome
  | none => return .done
  | some r => pause r.player r.prompt r.question r.source r.work

theorem ask_some (r : Request) (p : Progress) :
    ask (some r) p = .ok (.paused (r.decision ⟨p.game.nextDecision⟩),
      { game := { p.game with
          nextDecision := p.game.nextDecision + 1
          stack := ⟨some ⟨p.game.nextDecision⟩, r.work⟩ :: p.game.stack
          pending := some (r.decision ⟨p.game.nextDecision⟩) }
        events := p.events ++ [.decisionRequested ⟨p.game.nextDecision⟩ r.player] }) := rfl

/-- What is asked fits the game. -/
def Fitting (request : Option Request) (g : Game) : Prop :=
  ∀ r ∈ request, r.work.Fits r.question g

/-- A part of a resolution that acts directly and then may ask. -/
def Asking (lasting : Duration → Prop) (P : Game → Prop) (r : Resolve Outcome) : Prop :=
  ∃ plan : Resolve (Option Request), Directly lasting P plan Fitting ∧ r = plan >>= ask

variable {α : Type} {lasting : Duration → Prop} {P P' : Game → Prop}

namespace Asking

theorem done : Asking lasting P (pure .done) := by
  refine ⟨pure none, .pure _ ?_, rfl⟩
  intro g _ r hr
  cases hr

protected theorem throw {failure : Failure} (hplain : failure.isOfCalls = false) :
    Asking lasting P (throw failure) :=
  ⟨throw failure, .throw hplain, rfl⟩

protected theorem pause {player : Seat} {prompt : String} {question : Question}
    {source : Option ObjectId} {work : Suspension}
    (hfits : ∀ {g : Game}, P g → work.Fits question g) :
    Asking lasting P (pause player prompt question source work) := by
  refine ⟨pure (some ⟨player, prompt, question, source, work⟩), .pure _ ?_, rfl⟩
  rintro g hp r hr
  cases hr
  exact hfits hp

protected theorem bind {R : α → Game → Prop} {m : Resolve α} {k : α → Resolve Outcome}
    (hm : Directly lasting P m R) (hk : ∀ a, Asking lasting (R a) (k a)) :
    Asking lasting P (m >>= k) := by
  choose plan hplan heq using hk
  refine ⟨m >>= plan, .bind hm hplan, ?_⟩
  rw [bind_assoc]
  exact congrArg (m >>= ·) (funext heq)

/-- After a part that asks nobody the resolution may be over. -/
theorem andDone {Q : α → Game → Prop} {m : Resolve α} (hm : Directly lasting P m Q) :
    Asking lasting P (m >>= fun _ => pure .done) :=
  .bind hm fun _ => .done

theorem look {k : Game → Resolve Outcome} (hread : ∀ b g, k (g.core b) = k g)
    (hk : ∀ g, Asking lasting P (k g)) : Asking lasting P (game >>= k) := by
  have hchoice {r r' : Resolve Outcome} (h : Asking lasting P r) (h' : Asking lasting P r')
      (hsame : r = r') : h.choose = h'.choose := by
    subst hsame
    rfl
  refine ⟨game >>= fun g => (hk g).choose, ?_, ?_⟩
  · exact .look_anyhow (fun b g => hchoice _ _ (hread b g)) fun g => (hk g).choose_spec.1
  · rw [bind_assoc]
    exact congrArg (game >>= ·) (funext fun g => (hk g).choose_spec.2)

theorem view {rules : Rules} {k : View → Resolve Outcome} (hread : ∀ b v, k (v.core b) = k v)
    (hk : ∀ v, Asking lasting P (k v)) : Asking lasting P (Resolve.view rules >>= k) := by
  have hlook : Asking lasting P (game >>= fun g => k (rules.view g)) :=
    .look (fun b g => by rw [Rules.view_core, hread]) fun g => hk _
  exact hlook

theorem ite {c : Prop} [Decidable c] {r r' : Resolve Outcome} (hyes : c → Asking lasting P r)
    (hno : ¬c → Asking lasting P r') : Asking lasting P (if c then r else r') := by
  split
  · next h => exact hyes h
  · next h => exact hno h

/-- A part that is turned down if a condition holds. -/
theorem guard {c : Prop} [Decidable c] {failure : Failure} {r : Resolve Outcome}
    (hplain : failure.isOfCalls = false) (hr : Asking lasting P r) :
    Asking lasting P (if c then (throw failure : Resolve PUnit) >>= fun _ => r else r) := by
  have hthrow : Directly lasting P (throw failure : Resolve PUnit) fun _ => P := .throw hplain
  apply ite
  · intro hturned
    exact .bind hthrow fun _ => hr
  · intro hfine
    exact hr

end Asking

/-- The work of the topmost frame. -/
private def topWork (g : Game) : Suspension :=
  match g.stack with
  | f :: _ => f.work
  | [] => .effects [] {}

/-- Resolves up to the question, which is answered and not put. -/
def heldBack (r : Resolve Outcome) : Resolve (Option Request) := fun p =>
  match r p with
  | .error failure => .error failure
  | .ok (.done, q) => .ok (none, q)
  | .ok (.paused d, q) =>
    .ok (some ⟨d.player, d.prompt, d.question, d.source, topWork q.game⟩,
      { game := { q.game with
          stack := p.game.stack
          pending := p.game.pending
          nextDecision := p.game.nextDecision }
        events := q.events.dropLast })

theorem Directly.congr {r r' : Resolve α} {Q : α → Game → Prop} (h : Directly lasting P r Q)
    (heq : ∀ p : Progress, p.game.Sound → P p.game → r' p = r p) : Directly lasting P r' Q where
  runs {p _ _} hsound hp hr := h.runs hsound hp (heq p hsound hp ▸ hr)
  fails {p _} hsound hp hr := h.fails hsound hp (heq p hsound hp ▸ hr)
  agrees {_ _ _ p₁ p₂} h₁ h₂ hp₁ hp₂ hlike := by
    rw [heq p₁ h₁ hp₁, heq p₂ h₂ hp₂]
    exact h.agrees h₁ h₂ hp₁ hp₂ hlike

private theorem heldBack_eq_plan {plan : Resolve (Option Request)}
    (hplan : Directly lasting P plan Fitting) {p : Progress} (hsound : p.game.Sound)
    (hp : P p.game) : heldBack (plan >>= ask) p = plan p := by
  unfold heldBack
  rw [bind_apply]
  cases hrun : plan p with
  | error failure => rfl
  | ok result =>
    obtain ⟨request, q⟩ := result
    cases request with
    | none => rfl
    | some r =>
      have hcontrol := (hplan.runs hsound hp hrun).1.sameControl
      simp only [Except.bind, ask_some, topWork, Request.decision, List.dropLast_concat,
        ← hcontrol.stack, ← hcontrol.pending, ← hcontrol.nextDecision]

/-- Held back, a part that may ask asks nobody. -/
theorem Asking.directly {r : Resolve Outcome} (h : Asking lasting P r) :
    Directly lasting P (heldBack r) Fitting := by
  obtain ⟨plan, hplan, rfl⟩ := h
  exact hplan.congr fun p hsound hp => heldBack_eq_plan hplan hsound hp

/-- What was held back is what is asked. -/
theorem Asking.eq_ask {r : Resolve Outcome} (h : Asking lasting P r) {p : Progress}
    (hsound : p.game.Sound) (hp : P p.game) : r p = (heldBack r >>= ask) p := by
  obtain ⟨plan, hplan, rfl⟩ := h
  rw [bind_apply, bind_apply, heldBack_eq_plan hplan hsound hp]

end Resolve

end CardGame
