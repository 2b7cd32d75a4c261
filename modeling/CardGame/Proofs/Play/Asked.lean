import CardGame.Proofs.Play.Answering

/-!
The decisions asked in the course of a game. Every decision is asked under the next identity, and an
identity is used up when its decision is answered (`Game.Spent`): from then on the decision is not
the pending one, whatever else is asked. So the identities asked along a run increase, only the
pending decision can be answered, and it can be answered once.
-/

namespace CardGame

open Resolve

/-- The decision that a result puts to a player. -/
def Result.decision? : Result → Option Decision
  | .paused _ d _ => some d
  | .success .. | .failed .. => none

/-- The decision that a move puts to a player. -/
def Move.decision? (g : Game) : Move → Option Decision
  | .execute rules e ctx => (rules.execute g e ctx).decision?
  | .resume rules r => (rules.resume g r).decision?
  | _ => none

namespace Game

/-- The game after some moves. -/
def played (g : Game) (ms : List Move) : Game := ms.foldl Move.apply g

/-- The decisions put to players by some moves, in the order in which they are asked. -/
def asked (g : Game) : List Move → List Decision
  | [] => []
  | m :: ms => (m.decision? g).toList ++ (m.apply g).asked ms

/-- Along some moves, cards are brought in for players at the table. -/
def SeatsAll (g : Game) : List Move → Prop
  | [] => True
  | m :: ms => m.Seated g ∧ (m.apply g).SeatsAll ms

/-- What a move does about decisions: the pending one stays, or nobody waits any more, or the next
decision is asked. -/
inductive Asks (g g' : Game) : Option Decision → Prop
  | nothing (hpending : g'.pending = g.pending) (hnext : g'.nextDecision = g.nextDecision) :
      Asks g g' none
  | noMore (hpending : g'.pending = none) (hnext : g'.nextDecision = g.nextDecision) :
      Asks g g' none
  | next (d : Decision) (hid : d.id.val = g.nextDecision) (hpending : g'.pending = some d)
      (hnext : g'.nextDecision = g.nextDecision + 1) : Asks g g' (some d)

/-- An identity that was handed out, and not to the pending decision. -/
structure Spent (g : Game) (id : DecisionId) : Prop where
  issued : id.val < g.nextDecision
  settled : ∀ d, g.pending = some d → d.id ≠ id

variable {g g' : Game} {asked : Option Decision} {id : DecisionId}

namespace Asks

theorem of_sameControl (h : SameControl g g') : Asks g g' none :=
  .nothing h.pending h.nextDecision

theorem next_le (h : Asks g g' asked) : g.nextDecision ≤ g'.nextDecision := by
  cases h with
  | nothing hpending hnext => exact hnext.ge
  | noMore hpending hnext => exact hnext.ge
  | next d hid hpending hnext => omega

theorem id_lt (h : Asks g g' asked) :
    ∀ d ∈ asked, d.id.val = g.nextDecision ∧ d.id.val < g'.nextDecision := by
  cases h with
  | nothing hpending hnext => simp
  | noMore hpending hnext => simp
  | next d hid hpending hnext =>
    rintro d' ⟨⟩
    exact ⟨hid, by omega⟩

theorem spent (h : Asks g g' asked) (hspent : g.Spent id) : g'.Spent id where
  issued := hspent.issued.trans_le h.next_le
  settled := by
    cases h with
    | nothing hpending hnext =>
      rw [hpending]
      exact hspent.settled
    | noMore hpending hnext =>
      rw [hpending]
      exact nofun
    | next d hid hpending hnext =>
      -- The next decision is asked under an identity that was not handed out before.
      rw [hpending]
      rintro d' ⟨⟩ rfl
      exact hspent.issued.ne hid

end Asks

end Game

variable {P : Game → Prop} {rules : Rules} {g : Game}

/-- What a plan concludes with asks the next decision or none, and leaves no other pending. -/
theorem Result.asks_conclude {plan : Resolve (Option Stop)} {p : Progress} {before : Game}
    (hplan : Directly (fun _ => True) P plan Stopping) (hsound : p.game.Sound) (hp : P p.game)
    (hpending : p.game.pending = none) (hnext : p.game.nextDecision = before.nextDecision) :
    before.Asks (Result.conclude before (plan p)).game
      (Result.conclude before (plan p)).decision? ∧
    ∀ d, (Result.conclude before (plan p)).isFailed = false →
      (Result.conclude before (plan p)).game.pending = some d → before.nextDecision ≤ d.id.val := by
  cases hrun : plan p with
  | error failure => exact ⟨.nothing rfl rfl, nofun⟩
  | ok result =>
    obtain ⟨stop, q⟩ := result
    have hcontrol := (hplan.runs hsound hp hrun).1.sameControl
    have hcounter : q.game.nextDecision = before.nextDecision := hcontrol.nextDecision.trans hnext
    cases stop with
    | none =>
      have hidle : q.game.pending = none := hcontrol.pending.trans hpending
      refine ⟨.noMore hidle hcounter, fun d _ hd => ?_⟩
      cases hidle.symm.trans hd
    | some stop =>
      refine ⟨.next _ hcounter rfl (congrArg (· + 1) hcounter), ?_⟩
      rintro d - ⟨⟩
      exact hcounter.ge

namespace Rules

/-- An effect is executed while nobody is asked; it asks the next decision or none. -/
theorem asks_execute (hsound : g.Sound) (e : Effect) (ctx : Context) :
    g.Asks (rules.execute g e ctx).game (rules.execute g e ctx).decision? := by
  cases hpending : g.pending with
  | some d =>
    unfold execute
    rw [hpending]
    exact .nothing rfl rfl
  | none =>
    rw [execute_eq hsound hpending]
    have hplan : Directly (fun _ => True) (fun _ => True) (e.plan rules ctx) Stopping :=
      e.directly_plan ctx fun _ _ => trivial
    exact (Result.asks_conclude (p := { game := g }) hplan hsound trivial hpending rfl).1

/-- An answer asks the next decision or none. If it is accepted, its decision is used up. -/
theorem asks_resume (hsound : g.Sound) (hpoised : g.Poised) (r : Response) :
    g.Asks (rules.resume g r).game (rules.resume g r).decision? ∧
      ((rules.resume g r).isFailed = false → (rules.resume g r).game.Spent r.decision) := by
  cases hpoised with
  | idle hpending hstack =>
    rw [resume_idle hpending]
    exact ⟨.nothing rfl rfl, nofun⟩
  | waiting d work groups hpending hstack hgroups hissued hfits =>
    cases hobjection : objection d r with
    | some failure =>
      rw [resume_waiting hpending hstack, hobjection]
      exact ⟨.nothing rfl rfl, nofun⟩
    | none =>
      obtain ⟨hid, hcheck⟩ := objection_eq_none hobjection
      rcases resume_eq hsound hfits hpending hstack hobjection with ⟨-, hlong⟩ | hplan
      · rw [hlong]
        exact ⟨.nothing rfl rfl, nofun⟩
      · have hwaits : work.Ready r.answer { g with pending := none, stack := [] } :=
          (Suspension.ready_of_fits hfits hcheck).congr fun _ _ => id
        rw [hplan]
        obtain ⟨hasks, hlater⟩ := Result.asks_conclude
          (p := ⟨{ g with pending := none, stack := [] }, [.decisionResolved d.id d.player]⟩)
          (directly_planAnswer d work r.answer groups hgroups) (sound_answering hsound) hwaits
          rfl (Eq.refl g.nextDecision)
        refine ⟨hasks, fun haccepted => ⟨?_, fun d' hd' heq => ?_⟩⟩
        · rw [← hid]
          exact hissued.trans_le hasks.next_le
        · have hnew := hlater d' haccepted hd'
          rw [heq, ← hid] at hnew
          omega

/-- A response is turned away: nobody is asked, or something else is. The game stays as it is. -/
def TurnsAway (rules : Rules) (g : Game) (r : Response) : Prop :=
  rules.resume g r = .failed g (match g.pending with
    | none => .noDecisionPending
    | some d => .otherDecisionPending d.id r.decision)

/-- Whatever does not answer the pending decision is turned away. -/
theorem turnsAway {r : Response} (h : ∀ d, g.pending = some d → d.id ≠ r.decision) :
    rules.TurnsAway g r := by
  unfold TurnsAway resume expected
  cases hpending : g.pending with
  | none => rfl
  | some d => simp only [ne_eq, h d hpending, not_false_eq_true, if_true]

end Rules

/-- Whatever move is made, at most the next decision is asked. -/
theorem Move.asks (hsound : g.Sound) (hpoised : g.Poised) (m : Move) (hseated : m.Seated g) :
    g.Asks (m.apply g) (m.decision? g) := by
  cases m with
  | spawn card owner kind =>
    obtain ⟨o, g', hspawn, happly⟩ := Game.spawnCard_cases hsound.housed card kind hseated
    rw [happly]
    exact .of_sameControl (Game.sameControl_spawn hspawn)
  | execute rules e ctx => exact rules.asks_execute hsound e ctx
  | resume rules r => exact (rules.asks_resume hsound hpoised r).1
  | endOfTurn => exact .of_sameControl Game.tidied_endOfTurn.control
  | endOfCombat | beginTurn s | sweep | schedule turn => exact .nothing rfl rfl

namespace Game

variable {ms : List Move} {id : DecisionId}

theorem played_append (g : Game) (before after : List Move) :
    g.played (before ++ after) = (g.played before).played after :=
  List.foldl_append

theorem seatsAll_append {before after : List Move} :
    g.SeatsAll (before ++ after) ↔ g.SeatsAll before ∧ (g.played before).SeatsAll after := by
  induction before generalizing g with
  | nil => exact (true_and _).symm.to_iff
  | cons m ms ih => exact (and_congr_right' ih).trans and_assoc.symm

theorem Reachable.played (h : g.Reachable) (hseated : g.SeatsAll ms) : (g.played ms).Reachable := by
  induction ms generalizing g with
  | nil => exact h
  | cons m ms ih => exact ih (.move m h hseated.1) hseated.2

/-- What was answered stays answered. -/
theorem Reachable.spent_played (h : g.Reachable) (hseated : g.SeatsAll ms) (hspent : g.Spent id) :
    (g.played ms).Spent id := by
  induction ms generalizing g with
  | nil => exact hspent
  | cons m ms ih =>
    have hasks := m.asks h.sound h.poised hseated.1
    exact ih (.move m h hseated.1) hseated.2 (hasks.spent hspent)

/-- Nothing is asked under an identity that was handed out before. -/
theorem Reachable.next_le_of_asked (h : g.Reachable) (hseated : g.SeatsAll ms) :
    ∀ d ∈ g.asked ms, g.nextDecision ≤ d.id.val := by
  induction ms generalizing g with
  | nil => simp [asked]
  | cons m ms ih =>
    intro d hd
    have hasks := m.asks h.sound h.poised hseated.1
    rcases List.mem_append.mp hd with hnow | hlater
    · exact (hasks.id_lt d (Option.mem_toList.mp hnow)).1.ge
    · exact hasks.next_le.trans (ih (.move m h hseated.1) hseated.2 d hlater)

theorem Reachable.asked_increasing (h : g.Reachable) (hseated : g.SeatsAll ms) :
    (g.asked ms).Pairwise fun d d' => d.id.val < d'.id.val := by
  induction ms generalizing g with
  | nil => exact .nil
  | cons m ms ih =>
    have hasks := m.asks h.sound h.poised hseated.1
    have hnext := Reachable.move m h hseated.1
    refine List.pairwise_append.mpr ⟨?_, ih hnext hseated.2, fun d hd d' hd' => ?_⟩
    · cases m.decision? g with
      | none => exact .nil
      | some d => exact List.pairwise_singleton _ d
    · have hlater := hnext.next_le_of_asked hseated.2 d' hd'
      exact (hasks.id_lt d (Option.mem_toList.mp hd)).2.trans_le hlater

/-- The pending decision is the one that was asked last. -/
theorem Reachable.pending_played (h : g.Reachable) (hseated : g.SeatsAll ms) {d : Decision}
    (hpending : (g.played ms).pending = some d) :
    (g.asked ms).getLast? = some d ∨ g.asked ms = [] ∧ g.pending = some d := by
  induction ms generalizing g with
  | nil => exact Or.inr ⟨rfl, hpending⟩
  | cons m ms ih =>
    have hasks := m.asks h.sound h.poised hseated.1
    rw [asked]
    rcases ih (.move m h hseated.1) hseated.2 hpending with hlast | ⟨hnone, hnow⟩
    · exact Or.inl (by rw [List.getLast?_append, hlast, Option.some_or])
    · rw [hnone, List.append_nil]
      -- Nothing is asked later, so the decision was pending right after the move.
      generalize m.decision? g = asked at hasks
      cases hasks with
      | nothing hkept hnext => exact Or.inr ⟨rfl, hkept.symm.trans hnow⟩
      | noMore hidle hnext => cases hidle.symm.trans hnow
      | next d' hid hwaits hnext =>
        cases hwaits.symm.trans hnow
        exact Or.inl rfl

/-- Whoever answers does so once, and what is pending. -/
structure AnswersOnce (g : Game) (ms : List Move) : Prop where
  increasing : (g.asked ms).Pairwise fun d d' => d.id.val < d'.id.val
  last : ∀ d, (g.played ms).pending = some d → (g.asked ms).getLast? = some d
  guarded : ∀ (rules : Rules) (r : Response),
    (∀ d, (g.played ms).pending = some d → d.id ≠ r.decision) → rules.TurnsAway (g.played ms) r
  once : ∀ (before after : List Move) (rules : Rules) (r : Response),
    ms = before ++ .resume rules r :: after →
    (rules.resume (g.played before) r).isFailed = false →
    ∀ (rules' : Rules) (r' : Response), r'.decision = r.decision →
      rules'.TurnsAway (g.played ms) r'

/-- Along every run from a new table the decisions are asked under increasing identities, a response
that is not to the pending decision is turned away, and so is one that was accepted before. -/
theorem answersOnce {s : TableSettings} {g : Game} (h : start s = .ok g) {ms : List Move}
    (hseated : g.SeatsAll ms) : g.AnswersOnce ms where
  increasing := (Reachable.start h).asked_increasing hseated
  last d hpending := by
    rcases (Reachable.start h).pending_played hseated hpending with hlast | ⟨-, hfirst⟩
    · exact hlast
    · obtain ⟨-, rfl⟩ := start_eq_ok h
      cases hfirst
  guarded rules r := Rules.turnsAway
  once before after rules r heq haccepted rules' r' hsame := by
    subst heq
    obtain ⟨hbefore, hrest⟩ := seatsAll_append.mp hseated
    have hreachable := (Reachable.start h).played hbefore
    have hspent : ((rules.resume (g.played before) r).game).Spent r.decision :=
      (rules.asks_resume hreachable.sound hreachable.poised r).2 haccepted
    have hnow := Reachable.spent_played (.move (.resume rules r) hreachable trivial) hrest.2 hspent
    refine Rules.turnsAway fun d hd => ?_
    rw [played_append] at hd
    rw [hsame]
    exact hnow.settled d hd

/-- Two decisions, each answered twice, with a turn ending in between: the second answers are turned
away, the last of them with nobody asked. -/
theorem answersOnce_of_repeated_answers : ∃ g, start {} = .ok g ∧
    let ask : Move := .execute {} (.may "Gain?" (.gainLife 1)) {}
    let yes (id : Nat) : Response := { decision := ⟨id⟩, answer := .yesNo true }
    let ms : List Move := [ask, .resume {} (yes 1), .endOfTurn, ask, .resume {} (yes 1),
      .resume {} (yes 2), .resume {} (yes 2)]
    g.SeatsAll ms ∧ g.AnswersOnce ms ∧ (g.asked ms).map (·.id) = [⟨1⟩, ⟨2⟩] ∧
      (Rules.resume {} (g.played (ms.take 1)) (yes 1)).isFailed = false ∧
      Rules.resume {} (g.played ms) (yes 1) = .failed (g.played ms) .noDecisionPending := by
  refine ⟨_, rfl, ?_, answersOnce (s := {}) rfl ?_, ?_, ?_, ?_⟩
  case refine_1 | refine_2 =>
    exact ⟨trivial, trivial, trivial, trivial, trivial, trivial, trivial, trivial⟩
  all_goals decide +kernel

end Game

end CardGame
