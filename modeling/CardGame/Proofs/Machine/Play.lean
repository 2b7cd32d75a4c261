import CardGame.Proofs.Machine.Answer
import CardGame.Proofs.Play.Reachable

/-!
Executing and resuming on a machine. The chain counts its steps, of which there are no more than
frames on the stack, and these are no more than there are parts of suspended work. Whatever
executing or resuming comes to can be held again.
-/

namespace CardGame

namespace Machine

open Checked

/-- Resolves the suspended effects left on the stack, as long as nobody has to be asked and for a
limited number of frames, having taken some before. -/
def chain (rules : Rules) : Nat → Nat → Outcome → Machine Outcome
  | _, _, .paused decision => return .paused decision
  | steps, taken, .done => do
    match (← game).stack with
    | [] => return .done
    | ⟨some id, _⟩ :: _ => throw (.decisionNotPending id)
    | ⟨none, work⟩ :: rest =>
      let taken ← check (add maxLong taken 1)
      match steps with
      | 0 => throw (.chainTooLong rules.chainLimit)
      | steps + 1 =>
        match work with
        | .effects remaining ctx =>
          update fun g => { g with stack := rest }
          chain rules steps taken (← resolveAll rules remaining ctx)
        | other => throw (.undecidedFrame other.name)

/-- Goes on with the work that waited for an answer, then with the effects suspended beneath it. -/
def proceed (rules : Rules) (d : Decision) (work : Suspension) (answer : Answer) :
    Machine Outcome := do
  update fun g => { g with pending := none, stack := g.stack.tail }
  emit (.decisionResolved d.id d.player)
  chain rules rules.chainLimit 0 (← goOnWith rules d work answer)

/-- Ends a resolution: floating effects that no longer work are dropped. -/
def settled (m : Machine Outcome) : Machine Outcome := do
  let outcome ← m
  let (g, expired) := (← game).sweep
  update fun _ => g
  expired.forM emit
  return outcome

end Machine

namespace Checked

/-- The result of resolving something in a game. -/
def resultIn (g : Game) (m : Machine Outcome) : Checked Result := do
  return .ofRun g (← (m { game := g }).run)

/-- Executes an effect, unless a decision is pending. -/
def execute (rules : Rules) (g : Game) (e : Effect) (ctx : Context) : Checked Result :=
  match g.pending with
  | some d => return .failed g (.decisionPending d.id)
  | none => resultIn g (Machine.settled (Machine.resolve rules e ctx))

/-- Executes an effect as one of a family, in the middle of a resolution. -/
def executeAs (rules : Rules) (family : Family) (g : Game) (e : Effect) (ctx : Context) :
    Checked Result :=
  if e.family = family then resultIn g (Machine.resolve rules e ctx)
  else return .failed g (.foreignKind family e.kind)

/-- Resumes with a player's response. -/
def resume (rules : Rules) (g : Game) (r : Response) : Checked Result :=
  match Rules.expected g r with
  | .error failure => return .failed g failure
  | .ok (d, work) =>
    match d.question.check r.answer with
    | .error failure => return .failed g failure
    | .ok () => resultIn g (Machine.settled (Machine.proceed rules d work r.answer))

end Checked

namespace Game

variable {g : Game}

/-- A game that a machine can hold, with all the work suspended in it. -/
structure Storable (g : Game) : Prop where
  typed : g.Typed
  weight : g.weight ≤ maxLong

theorem weight_eq_of_stack {f : Frame} {rest : List Frame} (h : g.stack = f :: rest) :
    g.weight = f.work.size + ({ g with stack := rest } : Game).weight := by
  unfold weight
  rw [h]
  rfl

theorem Typed.popped {f : Frame} {rest : List Frame} (h : g.Typed) (hstack : g.stack = f :: rest)
    (pending : Option Decision) (hpending : ∀ d ∈ pending, d ∈ g.pending) :
    ({ g with stack := rest, pending } : Game).Typed :=
  { h with
    work := fun f' hf' => h.work f' (hstack ▸ List.mem_cons_of_mem f hf')
    question := fun d hd => h.question d (hpending d hd) }

end Game

namespace Machine

open Checked

variable {rules : Rules} {W : Nat}

theorem mirrors_settled {w : Nat} {P : Game → Prop} {m : Machine Outcome} {r : Resolve Outcome}
    (h : Mirrors w P m r fun _ g => g.weight ≤ W) :
    Mirrors w P (settled m) (Resolve.settled r) fun _ g => g.weight ≤ W := by
  refine .bindStill h fun outcome => ?_
  refine .look fun g htyped hweight => ?_
  have hsweep := htyped.withFloating g.sweep.1.floating fun e he =>
    htyped.floating e (List.mem_filter.mp he).1
  refine .bind (.updateAt hsweep.typed hsweep.weight_le) fun _ => ?_
  refine .bind (.forM fun e _ => .emit e) fun _ => ?_
  refine .pure _ ?_
  rintro h rfl
  exact hweight

/-- What the chain needs after an outcome: the work suspended stays bounded, and where nobody has to
be asked, the steps taken so far and the frames still on the stack can be counted. -/
structure Chainable (W taken : Nat) (outcome : Outcome) (g : Game) : Prop where
  weight : g.weight ≤ W
  sound : outcome = .done → g.Sound
  steps : outcome = .done → taken + g.stack.length ≤ maxLong

/-- A part that leaves the stack as it was, unless it stops, is one that the chain can go on from.
-/
theorem mirrors_thenChain {w steps taken : Nat} {popped : Game} {m : Machine Outcome}
    {r : Resolve Outcome}
    (hchain : ∀ outcome, Mirrors W (Chainable W taken outcome) (chain rules steps taken outcome)
      (rules.chain steps outcome) fun _ g => g.weight ≤ W)
    (hm : Mirrors w Game.Sound m r fun _ _ => True)
    (hdone : ∀ {p q : Progress}, p.game = popped → r p = .ok (.done, q) →
      q.game.Sound ∧ q.game.stack = p.game.stack)
    (hsound : popped.Sound) (hroom : popped.weight + w ≤ W)
    (hsteps : taken + popped.stack.length ≤ maxLong) :
    Mirrors W (fun h => h = popped) (m >>= chain rules steps taken) (r >>= rules.chain steps)
      fun _ g => g.weight ≤ W := by
  have hpart : Mirrors w (fun h => h = popped) m r fun outcome h =>
      Chainable W taken outcome h := by
    refine hm.consequence (fun h => h ▸ hsound) fun hp hr hweight _ => ⟨hweight, ?_⟩
    rw [hp] at hweight
    refine ⟨Nat.le_trans hweight hroom, ?_, ?_⟩
    · rintro rfl
      exact (hdone hp hr).1
    · rintro rfl
      rw [(hdone hp hr).2, hp]
      exact hsteps
  exact (hpart.followedBy hchain).bounded id

/-- The chain takes no more steps than there are frames, and pays with each frame for what its
effects suspend. -/
theorem mirrors_chain (hW : W ≤ maxLong) (steps taken : Nat) (outcome : Outcome) :
    Mirrors W (Chainable W taken outcome) (chain rules steps taken outcome)
      (rules.chain steps outcome) fun _ g => g.weight ≤ W := by
  cases outcome with
  | paused decision =>
    unfold chain Rules.chain
    exact .pure _ fun hg => hg.weight
  | done =>
    unfold chain Rules.chain
    refine .look fun g htyped hg => ?_
    obtain ⟨hweight, hsound, htaken⟩ := hg
    rcases hstack : g.stack with - | ⟨⟨decision, work⟩, rest⟩
    · refine .pure _ ?_
      rintro h rfl
      exact hweight
    · have hcount := htaken rfl
      rw [hstack, List.length_cons] at hcount
      cases decision with
      | some id => exact .throw _
      | none =>
        dsimp only
        rw [add_eq (by omega), check_ok, pure_bind]
        cases steps with
        | zero => exact .throw _
        | succ steps =>
          cases work with
          | effects remaining ctx =>
            let popped : Game := { g with stack := rest }
            have hpopped : popped.Sound :=
              Resolve.sound_onStack (p := { game := g }) (hsound rfl) rest
            -- The frame that is taken off pays for what its effects suspend, so `W` stays a bound.
            have hframe : g.weight = Effect.sizeOfAll remaining + 1 + popped.weight :=
              Game.weight_eq_of_stack hstack
            obtain ⟨heffects, hctx⟩ : Effect.AllTyped remaining ∧ ctx.Typed :=
              htyped.work ⟨none, .effects remaining ctx⟩ (by simp [hstack])
            have hless : popped.weight ≤ g.weight := by omega
            have hroom : popped.weight + (Effect.sizeOfAll remaining + 1) ≤ W := by omega
            have hkept : popped.Typed := htyped.popped hstack g.pending fun _ => id
            refine .bind (.updateAt hkept hless) fun _ =>
              mirrors_thenChain (mirrors_chain hW steps (taken + 1))
                (mirrors_resolveAll heffects (by omega) hctx) ?_ hpopped hroom ?_
            · intro p q hp hr
              exact Effect.resolveAll_done remaining ctx (hp ▸ hpopped) hr
            · change taken + 1 + rest.length ≤ maxLong
              omega
          | _ => exact .throw _

theorem mirrors_proceed (hW : W ≤ maxLong) (rules : Rules) (d : Decision) {work : Suspension}
    {answer : Answer} {g : Game} {top : Option DecisionId} {rest : List Frame} (htyped : g.Typed)
    (hsound : g.Sound) (hstack : g.stack = ⟨top, work⟩ :: rest) (hweight : g.weight ≤ W)
    (hquestion : d.question.Typed) (hcheck : d.question.check answer = .ok ())
    (hready : work.Ready answer g) :
    Mirrors W (fun h => h = g) (proceed rules d work answer) (rules.proceed d work answer)
      fun _ h => h.weight ≤ W := by
  let popped : Game := { g with pending := none, stack := rest }
  have hpopped : popped.Sound :=
    Resolve.sound_onStack (p := { game := { g with pending := none } })
      (hsound.congr (.of_eq rfl rfl rfl rfl) hsound.housed.consistent rfl rfl) rest
  have hframe : g.weight = work.size + popped.weight := Game.weight_eq_of_stack hstack
  have hlength : rest.length ≤ popped.weight := popped.length_stack_le_weight
  have hwork : work.Typed := htyped.work ⟨top, work⟩ (by simp [hstack])
  have hless : popped.weight ≤ g.weight := by omega
  have hpop : Mirrors 0 (fun h => h = g)
      (update fun g => { g with pending := none, stack := g.stack.tail })
      (Resolve.update fun g => { g with pending := none, stack := g.stack.tail })
      fun _ h => h = popped := by
    apply Mirrors.update
    rintro h - rfl
    rw [hstack, List.tail_cons]
    exact ⟨htyped.popped hstack none (by rintro d ⟨⟩), hless, rfl⟩
  refine .bind hpop fun _ => .bind (.emit _) fun _ =>
    mirrors_thenChain (mirrors_chain hW rules.chainLimit 0)
      (mirrors_goOnWith hwork (by omega) hquestion hcheck) ?_ hpopped (by omega) ?_
  · intro p q hp hr
    exact work.resume_done (hp ▸ hpopped) (hready.congr fun _ _ h => by rw [hp]; exact h) hr
  · change 0 + rest.length ≤ maxLong
    omega

end Machine

namespace Checked

variable {g : Game}

/-- What a machine comes to in a game, and what then is true of the game it leaves. -/
theorem resultIn_cases {w : Nat} {P : Game → Prop} {m : Machine Outcome} {r : Resolve Outcome}
    {Q : Outcome → Game → Prop} (h : Machine.Mirrors w P m r Q) (htyped : g.Typed) (hp : P g) :
    resultIn g m = .error .exhausted ∨
      resultIn g m = .ok (r.resultIn g) ∧ ((r.resultIn g).game = g ∨
        ∃ outcome, (r.resultIn g).game.Typed ∧ Q outcome (r.resultIn g).game) := by
  unfold resultIn Resolve.resultIn
  rcases h.runs { game := g } htyped hp with hout | ⟨heq, hkeeps⟩
  · rw [hout]
    exact Or.inl rfl
  · rw [heq]
    refine Or.inr ⟨rfl, ?_⟩
    change (Result.ofRun g (r { game := g })).game = g ∨
      ∃ outcome, (Result.ofRun g (r { game := g })).game.Typed ∧
        Q outcome (Result.ofRun g (r { game := g })).game
    cases hr : r { game := g } with
    | error failure => exact Or.inl rfl
    | ok result =>
      obtain ⟨outcome, q⟩ := result
      obtain ⟨hafter, -, hq⟩ := hkeeps outcome q hr
      cases outcome <;> exact Or.inr ⟨_, hafter, hq⟩

theorem storable_resultIn {w : Nat} {m : Machine Outcome} {r : Resolve Outcome}
    (h : Machine.Mirrors w (fun h => h = g) m r fun _ g' => g'.weight ≤ maxLong)
    (hg : g.Storable) :
    resultIn g m = .error .exhausted ∨
      resultIn g m = .ok (r.resultIn g) ∧ (r.resultIn g).game.Storable := by
  rcases resultIn_cases h hg.typed rfl with hout | ⟨heq, hsame | ⟨outcome, htyped, hweight⟩⟩
  · exact Or.inl hout
  · rw [hsame]
    exact Or.inr ⟨heq, hg⟩
  · exact Or.inr ⟨heq, htyped, hweight⟩

end Checked

namespace Rules

variable {g : Game}

/-- Executing an effect on a machine comes to what executing it comes to, unless a counter runs
out, and leaves a game that can be held. -/
theorem checked_execute (rules : Rules) (hsound : g.Sound) (hpoised : g.Poised)
    (hg : g.Storable) {e : Effect} (he : e.Typed) (hsize : e.size ≤ maxLong) {ctx : Context}
    (hctx : ctx.Typed) :
    Checked.execute rules g e ctx = .error .exhausted ∨
      Checked.execute rules g e ctx = .ok (rules.execute g e ctx) ∧
        (rules.execute g e ctx).game.Storable := by
  cases hpoised with
  | waiting d work groups hpending =>
    unfold Checked.execute execute
    rw [hpending]
    exact Or.inr ⟨rfl, hg⟩
  | idle hpending hstack =>
    unfold Checked.execute execute
    rw [hpending]
    have hempty : g.weight = 0 := by
      unfold Game.weight
      rw [hstack]
      rfl
    have hresolve : Machine.Mirrors e.size (fun h => h = g) (Machine.resolve rules e ctx)
        (e.resolve rules ctx) fun _ h => h.weight ≤ maxLong := by
      have hpart := Machine.mirrors_resolve rules ctx he hsize hctx
      refine hpart.consequence (fun h => h ▸ hsound) fun hp _ hweight _ => ⟨hweight, ?_⟩
      rw [hp, hempty, Nat.zero_add] at hweight
      exact Nat.le_trans hweight hsize
    exact Checked.storable_resultIn (Machine.mirrors_settled hresolve) hg

/-- The same goes for executing an effect as one of a family. -/
theorem checked_executeAs (rules : Rules) (family : Family) (hsound : g.Sound)
    (htyped : g.Typed) {e : Effect} (he : e.Typed) (hsize : e.size ≤ maxLong) {ctx : Context}
    (hctx : ctx.Typed) :
    Checked.executeAs rules family g e ctx = .error .exhausted ∨
      Checked.executeAs rules family g e ctx = .ok (rules.executeAs family g e ctx) := by
  unfold Checked.executeAs executeAs
  split
  · have hruns :=
      Checked.resultIn_cases (Machine.mirrors_resolve rules ctx he hsize hctx) htyped hsound
    exact hruns.imp_right And.left
  · exact Or.inr rfl

/-- Resuming with an answer on a machine comes to what resuming with it comes to, unless a counter
runs out, and leaves a game that can be held. -/
theorem checked_resume (rules : Rules) (hsound : g.Sound) (hpoised : g.Poised)
    (hg : g.Storable) (r : Response) :
    Checked.resume rules g r = .error .exhausted ∨
      Checked.resume rules g r = .ok (rules.resume g r) ∧
        (rules.resume g r).game.Storable := by
  unfold Checked.resume resume
  cases hexpected : expected g r with
  | error failure => exact Or.inr ⟨rfl, hg⟩
  | ok waiting =>
    obtain ⟨d, work⟩ := waiting
    obtain ⟨groups, hpending, hstack, -, hfits⟩ := of_expected hpoised hexpected
    dsimp only
    cases hcheck : d.question.check r.answer with
    | error failure => exact Or.inr ⟨rfl, hg⟩
    | ok u =>
      have hready := Suspension.ready_of_fits hfits hcheck
      have hquestion := hg.typed.question d hpending
      have hproceed := Machine.mirrors_proceed (Nat.le_refl _) rules d hg.typed hsound hstack
        hg.weight hquestion hcheck hready
      exact Checked.storable_resultIn (Machine.mirrors_settled hproceed) hg

end Rules

end CardGame
