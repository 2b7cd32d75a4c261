import CardGame.Proofs.Decision
import CardGame.Proofs.Machine.Effect
import CardGame.Proofs.Resolve.Resume

/-!
Going on with suspended work on a machine. The shares of damage that a player decides on are
amounts, as the total was one when the question was put: that was before the pause.
-/

namespace CardGame

namespace Checked

/-- A distributed amount as damage. -/
def asDamage (shares : SortedMap ObjectId Nat) : Checked (SortedMap ObjectId Int) := do
  return .ofList (← shares.entries.mapM fun p => do return (p.1, ← amount p.2))

theorem asDamage_eq {shares : SortedMap ObjectId Nat}
    (h : ∀ n ∈ shares.values, (n : Int) ≤ maxAmount) :
    asDamage shares = .ok (Suspension.asDamage shares) := by
  have hshare (p : ObjectId × Nat) (hp : p ∈ shares.entries) :
      (do return (p.1, ← amount p.2) : Checked (ObjectId × Int)) =
        .ok (p.1, countAsAmount p.2) := by
    have hmax : (p.2 : Int) ≤ maxAmount := h p.2 (List.mem_map_of_mem hp)
    have hamount : IsAmount p.2 := ⟨Int.le_trans (by decide) (Int.natCast_nonneg p.2), hmax⟩
    rw [amount_eq hamount, countAsAmount_of_le hmax]
    rfl
  unfold asDamage
  rw [mapM_eq hshare]
  exact congrArg Except.ok (SortedMap.ofList_entries (Suspension.asDamage shares))

end Checked

/-- No share is more than the total. -/
theorem Question.share_le_of_check {total minimum : Nat} {recipients : List ObjectId}
    {shares : SortedMap ObjectId Nat}
    (h : check (.distribution total recipients minimum) (.distribution shares) = .ok ()) :
    ∀ n ∈ shares.values, n ≤ total := by
  have hdivides : Divides total recipients minimum shares := check_eq_ok_iff.mp h
  intro n hn
  rw [← hdivides.sum]
  exact List.le_sum_of_mem hn

namespace Machine

open Checked

/-- Resolves the chosen modes in the order in which the card lists them. -/
def resolveModes (rules : Rules) (player : Seat) (modes : List Mode) (chosen : List Nat)
    (ctx : Context) : Machine Outcome := do
  let chosen := (SortedSet.ofList chosen).toList
  match Suspension.modeEffects modes chosen with
  | .error failure => throw failure
  | .ok es =>
    emit (.modesChosen player chosen)
    resolveAll rules es ctx

/-- Pays the cost, or suffers the effect if the cost can no longer be paid. -/
def payOrElse (rules : Rules) (payer : Seat) (cost : Cost) (suffer : Effect) (ctx : Context) :
    Machine Outcome := do
  if cost.isPayable (← view rules) ctx payer then pay rules ctx payer cost
  else resolve rules suffer ctx

/-- Goes on with suspended work. -/
def goOnWith (rules : Rules) (d : Decision) : Suspension → Answer → Machine Outcome
  | .search player destination tapped, .cards chosen =>
    finishSearch player destination tapped chosen
  | .scry player, .cards chosen => finishScry player chosen
  | .reorder player, .order objects => lift (LibraryEffect.finishReorder player objects)
  | .separatePiles chooser revealed source, .firstPile pile =>
    offerPiles chooser revealed source pile
  | .choosePile player first second, .option index =>
    takePile player first second d.question index
  | .may effect ctx, .yesNo yes => if yes then resolve rules effect ctx else return .done
  | .modal modes ctx, .modes chosen => resolveModes rules d.player modes chosen ctx
  | .payOrSuffer payer cost suffer ctx, .yesNo yes =>
    if yes then payOrElse rules payer cost suffer ctx else resolve rules suffer ctx
  | .payCost payer cost, .cards chosen => do
    payWith rules payer chosen cost
    return .done
  | .chooseColor target duration ctx, .color color =>
    protect d.player target duration ctx color
  | .chooseTargets effect ctx, .targets chosen => resolve rules effect (ctx.withTargets chosen)
  | .distributeCounters kind _, .distribution shares => do
    placeShares kind shares
    return .done
  | .divideDamage ctx, .distribution shares => do
    dealShares rules ctx.source (← check (asDamage shares))
    return .done
  | .eachPlayerChooses choice current remaining picks ctx, answer =>
    match PlayerChoice.pickOf d.question answer with
    | .error failure => throw failure
    | .ok pick => goOn rules ctx choice remaining (picks ++ [(current, pick)])
  | .effects _ _, _ => throw .effectsGivenAnswer
  | _, answer => throw (.wrongAnswer d.question.name answer.name)

section

variable {rules : Rules} {ctx : Context} {d : Decision}

theorem mirrors_resolveAll {es : List Effect} (hes : Effect.AllTyped es)
    (hsize : Effect.sizeOfAll es ≤ maxLong) (hctx : ctx.Typed) :
    Mirrors (Effect.sizeOfAll es + 1) Game.Sound (resolveAll rules es ctx)
      (Effect.resolveAll rules es ctx) fun _ _ => True := by
  have hlength := Effect.length_le_sizeOfAll es
  exact mirrors_resolveFrom rules ctx hes hsize (by omega) rfl hctx

theorem mirrors_resolveModes (player : Seat) {modes : List Mode}
    (hmodes : Effect.ModesTyped modes) (hsize : Effect.sizeOfModes modes ≤ maxLong)
    (chosen : List Nat) (hctx : ctx.Typed) :
    Mirrors (Effect.sizeOfModes modes + 1) Game.Sound (resolveModes rules player modes chosen ctx)
      (Suspension.resolveModes rules player modes chosen ctx) fun _ _ => True := by
  have hnodup : (SortedSet.ofList chosen).toList.Nodup := SortedMap.keys_nodup _
  cases hes : Suspension.modeEffects modes (SortedSet.ofList chosen).toList with
  | error failure =>
    simp only [resolveModes, Suspension.resolveModes, hes]
    exact .throw _
  | ok es =>
    simp only [resolveModes, Suspension.resolveModes, hes]
    have htyped : Effect.AllTyped es := by
      refine Effect.allTyped_iff.mpr fun e he => ?_
      have hmem := (Suspension.subperm_modeEffects hnodup hes).subset he
      exact Effect.modesTyped_iff.mp hmodes e hmem
    have hless : Effect.sizeOfAll es ≤ Effect.sizeOfModes modes := by
      rw [Effect.sizeOfAll_eq, Effect.sizeOfModes_eq]
      exact Suspension.sum_modeEffects_le Effect.size hnodup hes
    refine .bind (.emit _) fun _ => ?_
    exact (mirrors_resolveAll htyped (by omega) hctx).atMost (by omega)

theorem mirrors_payOrElse (payer : Seat) {cost : Cost} (hcost : cost.Typed) {suffer : Effect}
    (hsuffer : suffer.Typed) (hsize : suffer.size ≤ maxLong) (hctx : ctx.Typed) :
    Mirrors (suffer.size + 1) Game.Sound (payOrElse rules payer cost suffer ctx)
      (Suspension.payOrElse rules payer cost suffer ctx) fun _ _ => True := by
  refine .read (.view rules) fun v _ => ?_
  apply Mirrors.ite
  · intro hpayable
    exact (mirrors_pay rules ctx payer hcost).atMost (by omega)
  · intro hunpayable
    exact (mirrors_resolve rules ctx hsuffer hsize hctx).atMost (by omega)

/-- An answer that passed its check finishes the division that was asked for. -/
theorem mirrors_finishDivision (hquestion : d.question.Typed)
    {shares : SortedMap ObjectId Nat} (hcheck : d.question.check (.distribution shares) = .ok ())
    (source : Option ObjectId) :
    Mirrors 0 Game.Sound
      (do
        dealShares rules source (← check (asDamage shares))
        return Outcome.done)
      (do
        DamageEffect.dealShares rules source (Suspension.asDamage shares)
        return Outcome.done) fun _ _ => True := by
  have hshares : ∀ n ∈ shares.values, (n : Int) ≤ maxAmount := by
    intro n hn
    cases hasked : d.question with
    | distribution total recipients minimum =>
      rw [hasked] at hcheck hquestion
      have hle := Question.share_le_of_check hcheck n hn
      have hmax : (total : Int) ≤ maxAmount := hquestion
      omega
    | _ =>
      rw [hasked] at hcheck
      cases hcheck
  have hamounts : ∀ n ∈ (Suspension.asDamage shares).values, n ≤ maxAmount := by
    intro n hn
    obtain ⟨p, hp, rfl⟩ := List.mem_map.mp hn
    obtain ⟨q, -, rfl⟩ := List.mem_map.mp hp
    exact (isAmount_countAsAmount q.2).2
  rw [asDamage_eq hshares, check_ok, pure_bind]
  refine .bind (mirrors_dealShares rules source hamounts) fun _ => ?_
  exact .pure _ id

/-- Going on with suspended work on a machine comes to what going on with it comes to, and suspends
no more parts than the work had. -/
theorem mirrors_goOnWith {work : Suspension} (hwork : work.Typed) (hsize : work.size ≤ maxLong)
    (hquestion : d.question.Typed) {answer : Answer} (hcheck : d.question.check answer = .ok ()) :
    Mirrors work.size Game.Sound (goOnWith rules d work answer) (work.resume rules d answer)
      fun _ _ => True := by
  cases work with
  | search player destination tapped =>
    cases answer with
    | cards chosen => exact .of_copies (copies_finishSearch hwork destination tapped chosen)
    | _ => exact .throw _
  | scry player =>
    cases answer with
    | cards chosen => exact .of_copies (copies_finishScry player chosen)
    | _ => exact .throw _
  | reorder player =>
    cases answer with
    | order objects => exact .of_copies (copies_finishReorder player objects)
    | _ => exact .throw _
  | separatePiles chooser revealed source =>
    cases answer with
    | firstPile pile => exact mirrors_pause trivial trivial (Nat.le_refl _)
    | _ => exact .throw _
  | choosePile player first second =>
    cases answer with
    | option index => exact .of_copies (copies_takePile player first second d.question index)
    | _ => exact .throw _
  | may effect ctx =>
    obtain ⟨heffect, hctx⟩ := hwork
    simp only [Suspension.size] at hsize ⊢
    cases answer with
    | yesNo yes =>
      apply Mirrors.ite
      · intro hyes
        exact (mirrors_resolve rules ctx heffect (by omega) hctx).atMost (by omega)
      · intro hno
        exact .pure _ fun _ => trivial
    | _ => exact .throw _
  | modal modes ctx =>
    obtain ⟨hmodes, hctx⟩ := hwork
    simp only [Suspension.size] at hsize ⊢
    cases answer with
    | modes chosen => exact mirrors_resolveModes d.player hmodes (by omega) chosen hctx
    | _ => exact .throw _
  | payOrSuffer payer cost suffer ctx =>
    obtain ⟨hcost, hsuffer, hctx⟩ := hwork
    simp only [Suspension.size] at hsize ⊢
    cases answer with
    | yesNo yes =>
      apply Mirrors.ite
      · intro hyes
        exact mirrors_payOrElse payer hcost hsuffer (by omega) hctx
      · intro hno
        exact (mirrors_resolve rules ctx hsuffer (by omega) hctx).atMost (by omega)
    | _ => exact .throw _
  | payCost payer cost =>
    cases answer with
    | cards chosen =>
      refine .bind (mirrors_payWith rules payer chosen hwork) fun _ => ?_
      exact .pure _ id
    | _ => exact .throw _
  | chooseColor target duration ctx =>
    cases answer with
    | color color => exact .of_copies (copies_protect d.player target duration ctx color)
    | _ => exact .throw _
  | chooseTargets effect ctx =>
    obtain ⟨heffect, hctx⟩ := hwork
    simp only [Suspension.size] at hsize ⊢
    cases answer with
    | targets chosen =>
      have htargeted := hctx.withTargets chosen
      exact (mirrors_resolve rules _ heffect (by omega) htargeted).atMost (by omega)
    | _ => exact .throw _
  | distributeCounters kind ctx =>
    cases answer with
    | distribution shares =>
      refine .andThen (copies_placeShares kind shares) fun _ => ?_
      exact .pure _ id
    | _ => exact .throw _
  | divideDamage ctx =>
    cases answer with
    | distribution shares =>
      exact (mirrors_finishDivision hquestion hcheck ctx.source).atMost (Nat.zero_le _)
    | _ => exact .throw _
  | eachPlayerChooses choice current remaining picks ctx =>
    cases hpick : PlayerChoice.pickOf d.question answer with
    | error failure =>
      simp only [goOnWith, Suspension.resume, hpick]
      exact .throw _
    | ok pick =>
      simp only [goOnWith, Suspension.resume, hpick]
      exact mirrors_goOn rules ctx choice remaining _
  | effects remaining ctx => exact .throw _

end

end Machine

end CardGame
