import CardGame.Proofs.Play.Waiting
import CardGame.Proofs.Resolve.Paying

/-!
Paying to avoid an effect. A player who can pay is asked, and either pays exactly the cost and the
effect never happens, or it happens to the game as it was. Whether the cost can be paid is judged
when the offer is made, once more when it is accepted, and by what there is to choose from: these
agree, so that no accepted offer falls back on the effect.
-/

namespace CardGame

open Resolve

namespace Resolve

variable {α : Type} {lasting : Duration → Prop} {P : Game → Prop} {Q : α → Game → Prop}

/-- A part that asks nobody does the same after other events. -/
theorem Directly.after {r : Resolve α} (h : Directly lasting P r Q) {g : Game} (es : List Event)
    (hsound : g.Sound) (hp : P g) :
    r ⟨g, es⟩ = (r { game := g }).map fun result =>
      (result.1, { result.2 with events := es ++ result.2.events }) := by
  have hagree : Agree false [] es (r { game := g }) (r ⟨g, es⟩) :=
    h.agrees hsound hsound hp hp ⟨rfl, [], rfl, (List.append_nil es).symm⟩
  cases hrun : r { game := g } <;> cases hrun' : r ⟨g, es⟩ <;> rw [hrun, hrun'] at hagree
  all_goals cases hagree
  · rfl
  · next a q q' hlike =>
    have hcontrol := (h.runs hsound hp hrun).1.sameControl
    have hcontrol' := (h.runs hsound hp hrun').1.sameControl
    obtain ⟨told, hevents, hevents'⟩ := hlike.events
    have hgame : q'.game = q.game := by
      refine Game.eq_of_core hlike.core.symm ⟨?_, ?_, ?_⟩
      · exact hcontrol.stack.trans hcontrol'.stack.symm
      · exact hcontrol.pending.trans hcontrol'.pending.symm
      · exact hcontrol.nextDecision.trans hcontrol'.nextDecision.symm
    have hq : q' = { q with events := es ++ q.events } := by
      rw [show q' = ⟨q'.game, q'.events⟩ from rfl, hgame, hevents', hevents]
      rfl
    rw [hq]
    rfl

end Resolve

namespace Result

/-- The result with some events told first. A failure gives back the game before them. -/
def after (before : Game) (es : List Event) : Result → Result
  | .success g es' => .success g (es ++ es')
  | .paused g d es' => .paused g d (es ++ es')
  | .failed _ failure => .failed before failure

theorem conclude_after {plan : Resolve (Option Stop)} {P : Game → Prop} {g : Game}
    (hplan : Directly (fun _ => True) P plan Stopping) (hsound : g.Sound) (hp : P g)
    (before : Game) (es : List Event) :
    Result.conclude before (plan ⟨g, es⟩) =
      (Result.conclude g (plan { game := g })).after before es := by
  rw [hplan.after es hsound hp]
  cases plan { game := g } with
  | error failure => rfl
  | ok result =>
    obtain ⟨stop, q⟩ := result
    cases stop <;> simp [conclude, after, Except.map, Progress.settled, Progress.stoppedAt]

end Result

namespace Cost

/-- What the payer is asked. -/
def offer (ctx : Context) (payer : Seat) (suffer : Effect) (cost : Cost) : Request where
  player := payer
  prompt := cost.prompt
  question := .yesNo
  source := ctx.source
  work := .payOrSuffer payer cost suffer ctx

end Cost

namespace Rules

variable {rules : Rules} {ctx : Context} {payer : Seat} {others : List Seat} {cost : Cost}
  {selector : Selector} {suffer : Effect} {g : Game}

/-- The payer is asked if the cost can be paid. Else the effect happens. -/
theorem resolve_payOrSuffer (cost : Cost) (suffer : Effect) {p : Progress}
    (hpayer : (rules.view p.game).players ctx selector = payer :: others) :
    (Effect.payOrSuffer selector cost suffer).resolve rules ctx p =
      if cost.isPayable (rules.view p.game) ctx payer then
        ask (some (cost.offer ctx payer suffer)) p
      else suffer.resolve rules ctx p := by
  rw [Effect.resolve, view_bind]
  simp only [hpayer]
  split <;> rfl

/-- A cost is settled when it has been paid exactly, or when the payer, who has more than it takes,
has been asked what to pay with, nothing has been lost yet, and it is paid exactly with every
answer. -/
inductive Settles (rules : Rules) (ctx : Context) (payer : Seat) (cost : Cost) (g : Game) :
    Result → Prop
  | paid {chosen : List ObjectId} {g' : Game} {es : List Event}
      (h : cost.Paid rules ctx payer g chosen g' es) :
      Settles rules ctx payer cost g (.success g' es)
  | asked {choice : PlayerChoice} {g' : Game} {d : Decision} {es : List Event}
      (hchoice : cost.choice? = some choice) (player : d.player = payer)
      (question : d.question = .cards (choice.options (rules.view g) ctx payer) choice.number
        choice.number false)
      (more : choice.number < (choice.options (rules.view g) ctx payer).length)
      (waits : g'.core false = g.core false) (told : es.filter Event.isLoss = [])
      (pays : ∀ answer, d.question.check answer = .ok () → ∃ chosen g'' es',
        answer = .cards chosen ∧ rules.resume g' ⟨d.id, answer⟩ = .success g'' es' ∧
          cost.Paid rules ctx payer g chosen g'' es') :
      Settles rules ctx payer cost g (.paused g' d es)

/-- Where the payer goes on from with an answer to the offer. -/
def answered (g : Game) (payer : Seat) : Progress where
  game := { g with nextDecision := g.nextDecision + 1 }
  events := [.decisionResolved ⟨g.nextDecision⟩ payer]

theorem resolving_offer (hidle : g.pending = none) (hstack : g.stack = []) :
    Progress.resolving (g.waiting (cost.offer ctx payer suffer))
      ((cost.offer ctx payer suffer).decision ⟨g.nextDecision⟩) = answered g payer := by
  simp [Progress.resolving, Game.waiting, answered, hidle, hstack, Cost.offer, Request.decision]

/-- After an answer by which a cost is paid, the cost has been paid. -/
theorem paid_settled {q : Progress} {chosen : List ObjectId} {before : Game}
    {told es : List Event} (hpaid : cost.Paid rules ctx payer before chosen q.game es)
    (hbefore : g.core false = before.core false) (hevents : q.events = told ++ es)
    (htold : told.filter Event.isLoss = []) :
    cost.Paid rules ctx payer g chosen q.settled.game q.settled.events := by
  refine hpaid.congr hbefore rfl rfl rfl rfl ?_
  rw [Progress.settled, hevents, List.filter_append, List.filter_append, htold,
    Game.losses_sweep, List.append_nil, List.nil_append]

/-- A player who pays with chosen objects pays exactly the cost. -/
theorem resume_payCost {choice : PlayerChoice} {d : Decision} {answer : Answer} {before : Game}
    (hfurnished : g.Furnished) (hchoice : cost.choice? = some choice)
    (hcore : before.core false = g.core false) (hpending : g.pending = some d)
    (hstack : g.stack = [⟨some d.id, .payCost payer cost⟩])
    (hquestion : d.question = .cards (choice.options (rules.view before) ctx payer) choice.number
      choice.number false)
    (hcheck : d.question.check answer = .ok ()) :
    ∃ chosen g' es, answer = .cards chosen ∧
      rules.resume g ⟨d.id, answer⟩ = .success g' es ∧
        cost.Paid rules ctx payer before chosen g' es := by
  have haccepts := Question.check_eq_ok_iff.mp hcheck
  rw [hquestion] at haccepts
  cases answer with
  | cards chosen =>
    obtain ⟨henough, hmost, honce, hamong⟩ := haccepts
    have hcore' : before.core false = (Progress.resolving g d).game.core false := hcore
    have hoptions := choice.options_congr rules ctx payer hcore'
    obtain ⟨q, es, hrun, hevents, hcontrol, hpaid⟩ := Cost.exists_payWith rules ctx payer
      hchoice (furnished_answering hfurnished) honce
      (hoptions ▸ hamong) (Nat.le_antisymm hmost henough)
    refine ⟨chosen, _, _, rfl, resume_of_done (q := q) hpending hstack hcheck ?_ hcontrol.stack,
      paid_settled hpaid hcore' hevents rfl⟩
    change (cost.payWith rules payer chosen >>= fun _ => pure .done : Resolve Outcome) _ = _
    rw [bind_of_ok hrun]
    rfl
  | _ => exact haccepts.elim

/-- A player who has been asked what to pay with will have paid the cost. -/
theorem settles_of_more (h : g.Reachable) (hidle : g.pending = none) {choice : PlayerChoice}
    {asked : Request} (hchoice : cost.choice? = some choice)
    (hmore : choice.number < (choice.options (rules.view g) ctx payer).length)
    (hasked : asked = cost.request ctx payer (choice.options (rules.view g) ctx payer)
      choice.number) :
    Settles rules ctx payer cost g (.paused ((answered g payer).game.waiting asked)
      (asked.decision ⟨g.nextDecision + 1⟩)
      [.decisionResolved ⟨g.nextDecision⟩ payer,
        .decisionRequested ⟨g.nextDecision + 1⟩ payer]) := by
  have hstack : (answered g payer).game.stack = [] := h.poised.stack_eq_nil hidle
  have hfurnished : ((answered g payer).game.waiting asked).Furnished := h.furnished.of_core rfl
  subst hasked
  refine .asked hchoice rfl rfl hmore rfl rfl fun answer hcheck => ?_
  exact resume_payCost hfurnished hchoice rfl rfl (Game.stack_waiting hstack _) rfl hcheck

/-- A player who accepts the offer goes on to pay. -/
theorem resume_accepted (hidle : g.pending = none) (hstack : g.stack = [])
    (hpayable : cost.isPayable (rules.view g) ctx payer = true) (suffer : Effect) :
    Suspension.resume rules ((cost.offer ctx payer suffer).decision ⟨g.nextDecision⟩)
      (cost.offer ctx payer suffer).work (.yesNo true)
      (.resolving (g.waiting (cost.offer ctx payer suffer))
        ((cost.offer ctx payer suffer).decision ⟨g.nextDecision⟩)) =
          cost.pay rules ctx payer (answered g payer) := by
  have hcore : g.core false = (answered g payer).game.core false := rfl
  rw [Cost.isPayable_congr rules ctx payer cost hcore] at hpayable
  rw [resolving_offer hidle hstack]
  change Suspension.payOrElse rules payer cost suffer ctx _ = _
  rw [Suspension.payOrElse, view_bind, if_pos hpayable]

/-- An offer to pay a cost that can be paid is settled once it is accepted, whatever the effect is
that the player would suffer. -/
theorem exists_settles (h : g.Reachable) (hidle : g.pending = none)
    (hpayable : cost.isPayable (rules.view g) ctx payer = true)
    (hlife : ∀ n, cost = .life n → 0 ≤ n ∧ g.life payer ≤ maxAmount) :
    ∃ r, Settles rules ctx payer cost g r ∧ ∀ suffer,
      rules.resume (g.waiting (cost.offer ctx payer suffer)) ⟨⟨g.nextDecision⟩, .yesNo true⟩ =
        r := by
  have hstack := h.poised.stack_eq_nil hidle
  have hcore : g.core false = (answered g payer).game.core false := rfl
  have hpayable' := hpayable
  rw [Cost.isPayable_congr rules ctx payer cost hcore] at hpayable'
  have hpending (suffer : Effect) : (g.waiting (cost.offer ctx payer suffer)).pending =
      some ((cost.offer ctx payer suffer).decision ⟨g.nextDecision⟩) := rfl
  have hcheck (suffer : Effect) :
      ((cost.offer ctx payer suffer).decision ⟨g.nextDecision⟩).question.check (.yesNo true) =
        .ok () := rfl
  have hwaits (suffer : Effect) := Game.stack_waiting hstack (cost.offer ctx payer suffer)
  have haccepted (suffer : Effect) := resume_accepted hidle hstack hpayable suffer
  rcases Cost.pay_cases (h.furnished.of_core hcore) hpayable' hlife with
    ⟨chosen, q, es, hrun, hevents, hcontrol, hpaid⟩ | ⟨choice, hchoice, hmore, hrun⟩
  · refine ⟨.success q.settled.game q.settled.events,
      .paid (paid_settled hpaid hcore hevents rfl), fun suffer => ?_⟩
    exact resume_of_done (hpending suffer) (hwaits suffer) (hcheck suffer)
      ((haccepted suffer).trans hrun) (hcontrol.stack.trans hstack)
  · rw [← choice.options_congr rules ctx payer hcore] at hmore hrun
    refine ⟨_, settles_of_more h hidle hchoice hmore rfl, fun suffer => ?_⟩
    have hasks := (haccepted suffer).trans hrun
    rw [← resolving_offer hidle hstack] at hasks
    have hresumed := resume_of_asks (h.swept.waiting _) (hpending suffer) (hwaits suffer)
      (hcheck suffer) hasks
    rw [resolving_offer hidle hstack] at hresumed
    exact hresumed

/-- An offer that is declined comes to what the effect comes to. -/
theorem resume_declined (h : g.Reachable) (hidle : g.pending = none) (suffer : Effect) :
    rules.resume (g.waiting (cost.offer ctx payer suffer)) ⟨⟨g.nextDecision⟩, .yesNo false⟩ =
      (rules.execute { g with nextDecision := g.nextDecision + 1 } suffer ctx).after
        (g.waiting (cost.offer ctx payer suffer)) [.decisionResolved ⟨g.nextDecision⟩ payer] := by
  have hstack := h.poised.stack_eq_nil hidle
  have hwaiting : (g.waiting (cost.offer ctx payer suffer)).Sound :=
    h.sound.congr (.of_eq rfl rfl rfl rfl) h.sound.housed.consistent rfl rfl
  have hsound : (answered g payer).game.Sound :=
    h.sound.congr (.of_eq rfl rfl rfl rfl) h.sound.housed.consistent rfl rfl
  have hstack' : (g.waiting (cost.offer ctx payer suffer)).stack =
      ⟨some ⟨g.nextDecision⟩, .payOrSuffer payer cost suffer ctx⟩ ::
        ([] : List Group).map Frame.ofGroup :=
    Game.stack_waiting hstack _
  have hplan : Directly (fun _ => True) (fun _ => True) (suffer.plan rules ctx) Stopping :=
    suffer.directly_plan ctx fun _ _ => trivial
  have hfits : (Suspension.payOrSuffer payer cost suffer ctx).Fits .yesNo
      (g.waiting (cost.offer ctx payer suffer)) := trivial
  have hobjection : objection ((cost.offer ctx payer suffer).decision ⟨g.nextDecision⟩)
      ⟨⟨g.nextDecision⟩, .yesNo false⟩ = none := by
    exact (if_pos rfl).trans rfl
  rcases @resume_eq rules _ _ [] _ _ hwaiting hfits rfl hstack' hobjection with
    ⟨hmore, -⟩ | hconclude
  · exact absurd hmore (Nat.not_lt_zero _)
  · have hexecute : rules.execute (answered g payer).game suffer ctx = _ :=
      execute_eq hsound hidle suffer ctx
    have hafter := Result.conclude_after hplan hsound trivial
      (g.waiting (cost.offer ctx payer suffer)) (answered g payer).events
    rw [hconclude]
    change Result.conclude _ (rules.planAnswer _ _ _ [] (.resolving _ _)) = _
    rw [resolving_offer hidle hstack, planAnswer, planGroups, followedBy_none]
    change _ = (rules.execute (answered g payer).game suffer ctx).after _ _
    rw [hexecute]
    exact hafter

end Rules

namespace Game

variable {g : Game}

/-- Pay or suffer, never both and never neither. If the first player named cannot pay, the effect is
executed as it is. A player who can pay is asked, with nothing changed. Declining executes the
effect in the game as it was; accepting pays exactly the cost, and comes to the same whatever the
effect is. Life totals are amounts. -/
theorem Reachable.paid_or_suffered (h : g.Reachable) (hidle : g.pending = none) (rules : Rules)
    (ctx : Context) {selector : Selector} {payer : Seat} {others : List Seat} {cost : Cost}
    (hpayer : (rules.view g).players ctx selector = payer :: others)
    (hlife : ∀ n, cost = .life n → 0 ≤ n ∧ g.life payer ≤ maxAmount) :
    (cost.isPayable (rules.view g) ctx payer = false → ∀ suffer,
      rules.execute g (.payOrSuffer selector cost suffer) ctx = rules.execute g suffer ctx) ∧
    (cost.isPayable (rules.view g) ctx payer = true → ∃ paid : Result,
      rules.Settles ctx payer cost g paid ∧ ∀ suffer, ∃ d g',
        rules.execute g (.payOrSuffer selector cost suffer) ctx =
          .paused g' d [.decisionRequested d.id payer] ∧
        d.player = payer ∧ d.question = .yesNo ∧ g'.core false = g.core false ∧
        ∀ answer, d.question.check answer = .ok () →
          (answer = .yesNo true ∧ rules.resume g' ⟨d.id, answer⟩ = paid) ∨
          answer = .yesNo false ∧ rules.resume g' ⟨d.id, answer⟩ =
            (rules.execute { g with nextDecision := g.nextDecision + 1 } suffer ctx).after g'
              [.decisionResolved d.id payer]) := by
  have hresolve (suffer : Effect) := rules.resolve_payOrSuffer cost suffer (p := { game := g })
    hpayer
  constructor
  · intro hunpayable suffer
    unfold Rules.execute
    rw [hidle]
    change Result.ofRun g (Resolve.settled _ _) = Result.ofRun g (Resolve.settled _ _)
    rw [settled_apply, settled_apply, hresolve, if_neg (Bool.eq_false_iff.mp hunpayable)]
  · intro hpayable
    obtain ⟨paid, hsettles, hpaid⟩ := Rules.exists_settles h hidle hpayable hlife
    refine ⟨paid, hsettles, fun suffer => ?_⟩
    refine ⟨(cost.offer ctx payer suffer).decision ⟨g.nextDecision⟩,
      g.waiting (cost.offer ctx payer suffer), ?_, rfl, rfl, rfl, fun answer hcheck => ?_⟩
    · refine Rules.execute_of_asks hidle h.swept ?_
      rw [hresolve, if_pos hpayable]
    · have haccepts := Question.check_eq_ok_iff.mp hcheck
      cases answer with
      | yesNo yes =>
        cases yes with
        | true => exact Or.inl ⟨rfl, hpaid suffer⟩
        | false => exact Or.inr ⟨rfl, Rules.resume_declined h hidle suffer⟩
      | _ => exact haccepts.elim

/-- A player with two cards in hand may discard one of them to avoid an effect, or pay 3 life. -/
theorem paid_or_suffered_of_two_cards : ∃ g₀, start {} = .ok g₀ ∧
    let bear : CardDefinition := .creature ⟨7⟩ "Bear" 2 2
    let g := (Move.spawn bear ⟨0⟩ .hand).apply ((Move.spawn bear ⟨0⟩ .hand).apply g₀)
    ∀ cost ∈ [Cost.discard 1, Cost.life 3], ∃ paid, Rules.Settles {} {} ⟨0⟩ cost g paid ∧
      ∀ suffer, ∃ d g', Rules.execute {} g (.payOrSuffer .you cost suffer) {} =
          .paused g' d [.decisionRequested d.id ⟨0⟩] ∧
        Rules.resume {} g' ⟨d.id, .yesNo true⟩ = paid := by
  have hspawned {g : Game} (hs : 0 < g.seats) (h : g.Reachable) :
      ((Move.spawn (.creature ⟨7⟩ "Bear" 2 2) ⟨0⟩ .hand).apply g).Reachable := .move _ h hs
  have hcards := hspawned Nat.zero_lt_two (hspawned Nat.zero_lt_two
    (Reachable.start (s := {}) rfl))
  have hpaid (g : Game) (h : g.Reachable) (hidle : g.pending = none) (cost : Cost)
      (hpayable : cost.isPayable (Rules.view {} g) {} ⟨0⟩ = true)
      (hlife : ∀ n, cost = .life n → 0 ≤ n ∧ g.life ⟨0⟩ ≤ maxAmount) :
      ∃ paid, Rules.Settles {} {} ⟨0⟩ cost g paid ∧
        ∀ suffer, ∃ d g', Rules.execute {} g (.payOrSuffer .you cost suffer) {} =
            .paused g' d [.decisionRequested d.id ⟨0⟩] ∧
          Rules.resume {} g' ⟨d.id, .yesNo true⟩ = paid := by
    have hpayer : (Rules.view {} g).players {} .you = [⟨0⟩] := rfl
    obtain ⟨paid, hsettles, hasked⟩ :=
      (Reachable.paid_or_suffered h hidle {} {} hpayer hlife).2 hpayable
    refine ⟨paid, hsettles, fun suffer => ?_⟩
    obtain ⟨d, g', hpaused, -, hquestion, -, hanswers⟩ := hasked suffer
    refine ⟨d, g', hpaused, ?_⟩
    rcases hanswers (.yesNo true) (by rw [hquestion]; rfl) with ⟨-, hyes⟩ | ⟨hno, -⟩
    · exact hyes
    · cases hno
  refine ⟨_, rfl, fun cost hcost => hpaid _ hcards rfl cost ?_ ?_⟩
  · revert cost
    decide +kernel
  · rintro n rfl
    obtain rfl : n = 3 := by simpa using hcost
    decide +kernel

end Game

end CardGame
