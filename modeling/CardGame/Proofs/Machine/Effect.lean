import CardGame.Proofs.Machine.Families
import CardGame.Proofs.Machine.Library
import CardGame.Proofs.Resolve.Plan

/-!
Effects that compose others, on a machine. Where a composite stops, the parts after the one that
stopped are a slice of it, and the frame that keeps them has its place worked out. The slice never
begins beyond the end, and what is suspended never has more parts than the effect had.
-/

namespace CardGame

namespace Machine

open Checked

/-- Asks whether an optional effect happens. -/
def askMay (ctx : Context) (prompt : String) (e : Effect) : Machine Outcome :=
  pause ctx.controller prompt .yesNo ctx.source (.may e ctx)

/-- Asks which modes happen. -/
def askModes (ctx : Context) (modes : List Mode) (fewest most : Nat) : Machine Outcome := do
  if modes.isEmpty then return .done
  let most := min most modes.length
  pause ctx.controller "Choose mode(s)"
    (.modes (modes.map (·.1)) (min fewest most) most) ctx.source (.modal modes ctx)

mutual

/-- Resolves an effect. -/
def resolve (rules : Rules) : Effect → Context → Machine Outcome
  | .continuous e, ctx => resolveContinuous rules ctx e
  | .permanent e, ctx => resolvePermanent rules ctx e
  | .removal e, ctx => resolveRemoval rules ctx e
  | .damage e, ctx => resolveDamage rules ctx e
  | .library e, ctx => resolveLibrary rules ctx e
  | .composite es, ctx => resolveFrom rules es es 0 ctx
  | .conditional c yes no, ctx => do
    let v ← view rules
    if ← check (Checked.holds v ctx c) then resolve rules yes ctx
    else resolveOption rules no ctx
  | .may prompt e, ctx => askMay ctx prompt e
  | .modal modes fewest most, ctx => askModes ctx modes fewest most
  | .payOrSuffer selector cost suffer, ctx => do
    let v ← view rules
    match ← check (Checked.players v ctx selector) with
    | [] => return .done
    | payer :: _ =>
      if cost.isPayable v ctx payer then
        pause payer cost.prompt .yesNo ctx.source (.payOrSuffer payer cost suffer ctx)
      else resolve rules suffer ctx
  | .chooseTargets spec e, ctx => do
    match Effect.targeting (← view rules) ctx spec with
    | .tooFew => return .done
    | .untargeted => resolve rules e (ctx.withTargets [])
    | .choose legal fewest most =>
      pause ctx.controller "Choose targets" (.targets legal fewest most) ctx.source
        (.chooseTargets e ctx)
  | .eachPlayerChooses selector choice, ctx => do
    start rules ctx choice (← players rules ctx selector)

/-- Resolves an effect if there is one. -/
def resolveOption (rules : Rules) : Option Effect → Context → Machine Outcome
  | none, _ => return .done
  | some e, ctx => resolve rules e ctx

/-- Resolves the effects of a whole that begin at a position, one after the other. -/
def resolveFrom (rules : Rules) (whole : List Effect) :
    List Effect → Nat → Context → Machine Outcome
  | [], _, _ => return .done
  | e :: rest, k, ctx => do
    let next ← check (add maxLong k 1)
    let depth := (← game).stack.length
    match ← resolve rules e ctx with
    | .done => resolveFrom rules whole rest next ctx
    | .paused decision =>
      let remaining ← check (dropFrom whole next)
      if !remaining.isEmpty then
        change (insertFrame · depth ⟨none, .effects remaining ctx⟩)
      return .paused decision

end

/-- Resolves effects one after the other. -/
def resolveAll (rules : Rules) (es : List Effect) (ctx : Context) : Machine Outcome :=
  resolveFrom rules es es 0 ctx

theorem mirrors_askModes (ctx : Context) {modes : List Mode} (hmodes : Effect.ModesTyped modes)
    (hctx : ctx.Typed) (fewest most : Nat) :
    Mirrors (Effect.sizeOfModes modes + 1) (fun _ => True) (askModes ctx modes fewest most)
      (Effect.askModes ctx modes fewest most) fun _ _ => True := by
  apply Mirrors.ite
  · intro hnone
    exact .pure _ id
  · intro hsome
    exact mirrors_pause trivial ⟨hmodes, hctx⟩ (Nat.le_refl _)

/-- The effects that follow the one that stopped are put beneath what it left on the stack. -/
theorem mirrors_putOff {rest : List Effect} {ctx : Context} (hrest : Effect.AllTyped rest)
    (hctx : ctx.Typed) (depth : Nat) (decision : Decision) :
    Mirrors (Effect.sizeOfAll rest + 1) (fun _ => True)
      (do
        if !rest.isEmpty then change (insertFrame · depth ⟨none, .effects rest ctx⟩)
        return Outcome.paused decision)
      (do
        if !rest.isEmpty then Resolve.update (·.insertFrame depth ⟨none, .effects rest ctx⟩)
        return Outcome.paused decision) fun _ _ => True := by
  apply Mirrors.ite
  · intro hsome
    refine .bindStill (mirrors_change (Q := fun _ _ => True)
      (fun g => insertFrame_eq g depth _) ?_) fun _ => .pure _ id
    intro g htyped _
    refine ⟨htyped.insertFrame depth ⟨hrest, hctx⟩, ?_, trivial⟩
    rw [Game.weight_insertFrame]
    exact Nat.le_refl _
  · intro hnone
    exact .pure _ id

mutual

/-- Resolving an effect on a machine comes to what resolving it comes to, and suspends no more parts
than the effect has. -/
theorem mirrors_resolve (rules : Rules) (ctx : Context) {e : Effect} (he : e.Typed)
    (hsize : e.size ≤ maxLong) (hctx : ctx.Typed) :
    Mirrors e.size Game.Sound (resolve rules e ctx) (e.resolve rules ctx) fun _ _ => True := by
  cases e with
  | continuous e => exact mirrors_resolveContinuous rules hctx he
  | permanent e => exact mirrors_resolvePermanent rules hctx he
  | removal e => exact mirrors_resolveRemoval rules hctx he
  | damage e => exact mirrors_resolveDamage rules hctx he
  | library e => exact mirrors_resolveLibrary rules hctx he
  | composite es =>
    have hparts : Effect.AllTyped es := he
    have hlength := Effect.length_le_sizeOfAll es
    simp only [Effect.size] at hsize ⊢
    exact mirrors_resolveFrom rules ctx hparts (by omega) (by omega) rfl hctx
  | conditional c yes no =>
    obtain ⟨hyes, hno⟩ := he
    simp only [Effect.size] at hsize ⊢
    unfold resolve Effect.resolve
    refine .read (.view rules) fun v hv => ?_
    rw [v.checked_holds hv hctx, check_ok, pure_bind]
    apply Mirrors.ite
    · intro hholds
      exact (mirrors_resolve rules ctx hyes (by omega) hctx).atMost (by omega)
    · intro hfails
      exact (mirrors_resolveOption rules ctx hno (by omega) hctx).atMost (by omega)
  | may prompt e =>
    have hdone : e.Typed := he
    exact mirrors_pause trivial ⟨hdone, hctx⟩ (Nat.le_refl _)
  | modal modes fewest most => exact (mirrors_askModes ctx he hctx fewest most).anyhow
  | payOrSuffer selector cost suffer =>
    obtain ⟨hcost, hsuffer⟩ := he
    simp only [Effect.size] at hsize ⊢
    unfold resolve Effect.resolve
    refine .read (.view rules) fun v hv => ?_
    rw [v.checked_players hv hctx, check_ok, pure_bind]
    cases v.players ctx selector with
    | nil => exact .pure _ fun _ => trivial
    | cons payer others =>
      apply Mirrors.ite
      · intro hpayable
        exact mirrors_pause trivial ⟨hcost, hsuffer, hctx⟩ (Nat.le_refl _)
      · intro hunpayable
        exact (mirrors_resolve rules ctx hsuffer (by omega) hctx).atMost (by omega)
  | chooseTargets spec e =>
    simp only [Effect.size] at hsize ⊢
    unfold resolve Effect.resolve
    refine .read (.view rules) fun v hv => ?_
    cases Effect.targeting v ctx spec with
    | tooFew => exact .pure _ fun _ => trivial
    | untargeted =>
      have htargeted : e.Typed := he
      have hnone := hctx.withTargets []
      exact (mirrors_resolve rules _ htargeted (by omega) hnone).atMost (by omega)
    | choose legal fewest most => exact mirrors_pause trivial ⟨he, hctx⟩ (Nat.le_refl _)
  | eachPlayerChooses selector choice =>
    refine .read (reads_players rules hctx selector) fun ss _ => ?_
    exact mirrors_start rules ctx choice ss

theorem mirrors_resolveOption (rules : Rules) (ctx : Context) {e : Option Effect}
    (he : Effect.OptionTyped e) (hsize : Effect.sizeOfOption e ≤ maxLong) (hctx : ctx.Typed) :
    Mirrors (Effect.sizeOfOption e) Game.Sound (resolveOption rules e ctx)
      (Effect.resolveOption rules e ctx) fun _ _ => True := by
  cases e with
  | none => exact .pure _ fun _ => trivial
  | some e => exact mirrors_resolve rules ctx he hsize hctx

theorem mirrors_resolveFrom (rules : Rules) (ctx : Context) {whole es : List Effect} {k : Nat}
    (hes : Effect.AllTyped es) (hsize : Effect.sizeOfAll es ≤ maxLong)
    (hwhole : whole.length ≤ maxLong) (hdrop : whole.drop k = es) (hctx : ctx.Typed) :
    Mirrors (Effect.sizeOfAll es + 1) Game.Sound (resolveFrom rules whole es k ctx)
      (Effect.resolveAll rules es ctx) fun _ _ => True := by
  cases es with
  | nil => exact .pure _ fun _ => trivial
  | cons e rest =>
    obtain ⟨he, hrest⟩ := hes
    -- `whole.drop k` are the effects still to come, so the slice after `e` is within `whole`.
    have hshort : k + 1 ≤ whole.length := by
      have hlength := congrArg List.length hdrop
      simp only [List.length_drop, List.length_cons] at hlength
      omega
    have hnext : whole.drop (k + 1) = rest := by rw [← List.drop_drop, hdrop]; rfl
    simp only [Effect.sizeOfAll] at hsize ⊢
    have hresolve : Mirrors e.size Game.Sound (resolve rules e ctx) (e.resolve rules ctx)
        fun outcome g => outcome = .done → g.Sound := by
      have hpart := mirrors_resolve rules ctx he (by omega) hctx
      refine hpart.consequence id fun hsound hr hweight _ => ⟨hweight, ?_⟩
      rintro rfl
      exact (e.resolve_done ctx hsound hr).1
    unfold resolveFrom Effect.resolveAll
    rw [add_eq (by omega), check_ok, pure_bind]
    refine .look fun g htyped hsound => ?_
    rw [Nat.add_assoc]
    refine .followedBy (hresolve.of_pre ?_) fun outcome => ?_
    · rintro h rfl
      exact hsound
    · cases outcome with
      | done =>
        refine (mirrors_resolveFrom rules ctx hrest (by omega) hwhole hnext hctx).of_pre ?_
        exact fun hg => hg rfl
      | paused decision =>
        dsimp only
        rw [dropFrom_eq hshort, check_ok, pure_bind, hnext]
        exact (mirrors_putOff hrest hctx g.stack.length decision).anyhow

end

end Machine

end CardGame
