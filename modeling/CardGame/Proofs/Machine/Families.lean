import CardGame.Proofs.Machine.Choosing
import CardGame.Resolve.Continuous
import CardGame.Resolve.Damage
import CardGame.Resolve.Permanents
import CardGame.Resolve.Removal

/-!
Effects on permanents, on damage and on life on a machine. What is divided is an amount, and what a
player loses is the negative of one.
-/

namespace CardGame

namespace Machine

open Checked

variable {ctx : Context}

/-- Starts floating effects on one permanent. -/
def onPermanent (rules : Rules) (ctx : Context) (target : Reference) (changes : List Modification)
    (duration : Duration) : Machine Outcome := do
  let (o, _) ← permanent rules ctx target
  changes.forM fun change => addFloating change (.singleton o) duration ctx
  return .done

/-- Starts one floating effect on every permanent that a filter accepts, if there is one. -/
def onGroup (rules : Rules) (ctx : Context) (f : ObjectFilter) (change : Modification)
    (duration : Duration) : Machine Outcome := do
  let affected := SortedSet.ofList ((← view rules).permanents f ctx.forFilter)
  if !affected.isEmpty then addFloating change affected duration ctx
  return .done

def resolveContinuous (rules : Rules) (ctx : Context) : ContinuousEffect → Machine Outcome
  | .modifyStats target power toughness duration => do
    let p ← amount rules ctx power
    let t ← amount rules ctx toughness
    onPermanent rules ctx target [.modify p t] duration
  | .setBase target power toughness duration =>
    onPermanent rules ctx target [.setBase power toughness] duration
  | .animate target power toughness subtypes duration =>
    onPermanent rules ctx target (ContinuousEffect.animation power toughness subtypes) duration
  | .grantKeyword target keyword duration =>
    onPermanent rules ctx target [.grantKeyword keyword] duration
  | .removeKeyword target keyword duration =>
    onPermanent rules ctx target [.removeKeyword keyword] duration
  | .modifyGroup f power toughness duration => do
    let p ← amount rules ctx power
    let t ← amount rules ctx toughness
    onGroup rules ctx f (.modify p t) duration
  | .grantKeywordToGroup f keyword duration =>
    onGroup rules ctx f (.grantKeyword keyword) duration
  | .gainControl target duration =>
    onPermanent rules ctx target [.changeController ctx.controller] duration
  | .regenerate target => onPermanent rules ctx target [.regenerationShield] .endOfTurn
  | .exileOnDeath target => onPermanent rules ctx target [.exileOnDeath] .endOfTurn
  | .protectFromColor target duration => do
    let (o, _) ← permanent rules ctx target
    pause ctx.controller "Choose a color" (.color Color.all) ctx.source
      (.chooseColor o duration ctx)

/-- Protects a permanent from the color that was chosen, if it is still on the battlefield. -/
def protect (player : Seat) (target : ObjectId) (duration : Duration) (ctx : Context)
    (color : Color) : Machine Outcome := do
  emit (.colorChosen player color)
  if (← game).onBattlefield target then
    addFloating (.grantKeyword (.protectionFrom color)) (.singleton target) duration ctx
  return .done

theorem mirrors_onPermanent (rules : Rules) (ctx : Context) (target : Reference)
    {changes : List Modification} (hchanges : ∀ change ∈ changes, change.Typed)
    (duration : Duration) :
    Mirrors 1 Game.Sound (onPermanent rules ctx target changes duration)
      (ContinuousEffect.onPermanent rules ctx target changes duration) fun _ _ => True := by
  refine .read (reads_permanent rules ctx target) fun found _ => ?_
  refine .andThen (.forM fun change hchange => ?_) fun _ => ?_
  · exact copies_addFloating (hchanges change hchange) _ duration ctx
  · exact .pure _ id

theorem mirrors_onGroup (rules : Rules) (ctx : Context) (f : ObjectFilter)
    {change : Modification} (hchange : change.Typed) (duration : Duration) :
    Mirrors 1 Game.Sound (onGroup rules ctx f change duration)
      (ContinuousEffect.onGroup rules ctx f change duration) fun _ _ => True := by
  refine .read (.view rules) fun v _ => ?_
  apply Mirrors.ite
  · intro hsome
    refine .andThen (copies_addFloating hchange _ duration ctx) fun _ => ?_
    exact .pure _ id
  · intro hnone
    exact .pure _ fun _ => trivial

theorem mirrors_resolveContinuous (rules : Rules) (hctx : ctx.Typed) {e : ContinuousEffect}
    (he : e.Typed) :
    Mirrors 1 Game.Sound (resolveContinuous rules ctx e) (e.resolve rules ctx)
      fun _ _ => True := by
  have hone {change : Modification} (h : change.Typed) : ∀ c ∈ [change], c.Typed := by
    intro c hc
    rwa [List.mem_singleton.mp hc]
  cases e with
  | modifyStats target power toughness duration =>
    obtain ⟨hpower, htoughness⟩ := he
    refine .read (reads_amount rules hctx hpower) fun p _ => ?_
    refine .read (reads_amount rules hctx htoughness) fun t _ => ?_
    exact mirrors_onPermanent rules ctx target (hone (by trivial)) duration
  | setBase target power toughness duration =>
    exact mirrors_onPermanent rules ctx target (hone (by exact he)) duration
  | animate target power toughness subtypes duration =>
    apply mirrors_onPermanent
    intro change hchange
    unfold ContinuousEffect.animation at hchange
    split at hchange
    · simp only [List.append_nil, List.mem_append, List.mem_singleton] at hchange
      rcases hchange with rfl | rfl
      · trivial
      · exact he
    · simp only [List.mem_append, List.mem_singleton] at hchange
      rcases hchange with (rfl | rfl) | rfl
      · trivial
      · trivial
      · exact he
  | modifyGroup f power toughness duration =>
    obtain ⟨hpower, htoughness⟩ := he
    refine .read (reads_amount rules hctx hpower) fun p _ => ?_
    refine .read (reads_amount rules hctx htoughness) fun t _ => ?_
    exact mirrors_onGroup rules ctx f (by trivial) duration
  | grantKeywordToGroup f keyword duration =>
    exact mirrors_onGroup rules ctx f (by trivial) duration
  | gainControl target duration =>
    exact mirrors_onPermanent rules ctx target (hone (by exact hctx.controller)) duration
  | protectFromColor target duration =>
    refine .read (reads_permanent rules ctx target) fun found _ => ?_
    exact mirrors_pause trivial trivial (Nat.le_refl _)
  | grantKeyword target keyword duration =>
    exact mirrors_onPermanent rules ctx target (hone (by trivial)) duration
  | removeKeyword target keyword duration =>
    exact mirrors_onPermanent rules ctx target (hone (by trivial)) duration
  | regenerate target => exact mirrors_onPermanent rules ctx target (hone (by trivial)) _
  | exileOnDeath target => exact mirrors_onPermanent rules ctx target (hone (by trivial)) _

theorem copies_protect (player : Seat) (target : ObjectId) (duration : Duration) (ctx : Context)
    (color : Color) :
    Copies (protect player target duration ctx color)
      (ContinuousEffect.protect player target duration ctx color) := by
  refine .bind (copies_emit _) fun _ => ?_
  refine .look_anyhow fun g _ => ?_
  apply Mirrors.ite
  · intro hthere
    refine .bind (copies_addFloating (by trivial) _ duration ctx) fun _ => ?_
    exact .pure _ id
  · intro hgone
    exact .pure _ id

/-- Puts everyone's share of counters on them. -/
def placeShares (kind : CounterKind) (shares : SortedMap ObjectId Nat) : Machine Unit :=
  shares.entries.forM fun p => addCounters p.1 kind p.2

/-- Puts some counters on the targets. -/
def distribute (ctx : Context) (kind : CounterKind) (total : Nat) : Machine Outcome := do
  ctx.targets.forM fun o => lift (Resolve.requireIn o .battlefield)
  match ctx.targets with
  | [] => return .done
  | [only] =>
    addCounters only kind total
    return .done
  | recipients =>
    if total < recipients.length then throw (.tooFewCounters total recipients.length)
    pause ctx.controller s!"Distribute {total} counters"
      (.distribution total recipients 1) ctx.source (.distributeCounters kind ctx)

def resolvePermanent (rules : Rules) (ctx : Context) : PermanentEffect → Machine Outcome
  | .tap target => do
    let (o, _) ← permanent rules ctx target
    lift (Resolve.tap o)
    return .done
  | .untap target => do
    let (o, _) ← permanent rules ctx target
    lift (Resolve.untap o)
    return .done
  | .addCounters target kind amount => do
    let n ← count rules ctx amount
    addCounters (← lift (Resolve.object ctx target)) kind n
    return .done
  | .removeCounters target kind amount => do
    let n ← count rules ctx amount
    let _ ← removeCounters (← lift (Resolve.object ctx target)) kind n
    return .done
  | .distributeCounters kind amount => do
    distribute ctx kind (← count rules ctx amount)

theorem copies_placeShares (kind : CounterKind) (shares : SortedMap ObjectId Nat) :
    Copies (placeShares kind shares) (PermanentEffect.placeShares kind shares) :=
  .forM fun p _ => copies_addCounters p.1 kind p.2

theorem mirrors_distribute (ctx : Context) (kind : CounterKind) {total : Nat}
    (htotal : (total : Int) ≤ maxAmount) :
    Mirrors 1 (fun _ => True) (distribute ctx kind total)
      (PermanentEffect.distribute ctx kind total) fun _ _ => True := by
  have hrequire (o : ObjectId) : Copies (lift (Resolve.requireIn o .battlefield))
      (Resolve.requireIn o .battlefield) :=
    (reads_requireIn o _).mirrors.anyhow
  refine .andThen (.forM fun o _ => hrequire o) fun _ => ?_
  generalize ctx.targets = targets
  cases targets with
  | nil => exact .pure _ id
  | cons first others =>
    cases others with
    | nil =>
      refine .andThen (copies_addCounters first kind total) fun _ => ?_
      exact .pure _ id
    | cons second others =>
      apply Mirrors.guard
      exact mirrors_pause htotal trivial (Nat.le_refl _)

theorem mirrors_resolvePermanent (rules : Rules) (hctx : ctx.Typed) {e : PermanentEffect}
    (he : e.Typed) :
    Mirrors 1 Game.Sound (resolvePermanent rules ctx e) (e.resolve rules ctx)
      fun _ _ => True := by
  cases e with
  | tap target =>
    refine .read (reads_permanent rules ctx target) fun found _ => ?_
    refine .andThen (copies_tap found.1) fun _ => ?_
    exact .pure _ id
  | untap target =>
    refine .read (reads_permanent rules ctx target) fun found _ => ?_
    refine .andThen (copies_untap found.1) fun _ => ?_
    exact .pure _ id
  | addCounters target kind amount =>
    refine .read (reads_count rules hctx he) fun n _ => ?_
    refine .read (reads_object ctx target) fun o _ => ?_
    refine .andThen (copies_addCounters o kind n) fun _ => ?_
    exact .pure _ id
  | removeCounters target kind amount =>
    refine .read (reads_count rules hctx he) fun n _ => ?_
    refine .read (reads_object ctx target) fun o _ => ?_
    refine .andThen (copies_removeCounters o kind n) fun _ => ?_
    exact .pure _ id
  | distributeCounters kind amount =>
    refine .read (reads_count rules hctx he) fun n hn => ?_
    exact (mirrors_distribute ctx kind hn).anyhow

/-- Mass destruction judges every permanent as it was before the first is destroyed. -/
def destroyMatching (rules : Rules) (ctx : Context) (f : ObjectFilter) : Machine Unit := do
  let v ← view rules
  (v.permanents f ctx.forFilter).forM fun o => do
    let _ ← destroy o (← lift (Resolve.characteristics v o))

def resolveRemoval (rules : Rules) (ctx : Context) : RemovalEffect → Machine Outcome
  | .destroy target => do
    let (o, c) ← permanent rules ctx target
    let _ ← destroy o c
    return .done
  | .destroyAll f => do
    destroyMatching rules ctx f
    return .done
  | .exile target => do
    let o ← lift (Resolve.object ctx target)
    lift (RemovalEffect.requireCard o)
    let _ ← moveToOwners o .exile
    return .done
  | .returnToHand target => do
    let o ← lift (Resolve.object ctx target)
    lift (RemovalEffect.requireCard o)
    if (← game).zones.isIn o .hand then throw (.misplaced o .outsideHand)
    let _ ← moveToOwners o .hand
    return .done
  | .sacrifice players f count => do
    let n ← Machine.count rules ctx count
    start rules ctx (.sacrifice f n) (← Machine.players rules ctx players)

theorem reads_requireCard {P : Game → Prop} (o : ObjectId) :
    Reads P (lift (RemovalEffect.requireCard o)) (RemovalEffect.requireCard o)
      fun _ => True := by
  unfold RemovalEffect.requireCard
  rw [lift_bind]
  refine .bind (reads_require o) fun _ _ => ?_
  apply Reads.lift
  intro p q u _ _ hr
  rw [Resolve.game_bind] at hr
  split at hr <;> cases hr
  exact ⟨rfl, trivial⟩

theorem mirrors_destroyMatching (rules : Rules) (ctx : Context) (f : ObjectFilter) :
    Mirrors 0 Game.Sound (destroyMatching rules ctx f) (RemovalEffect.destroyMatching rules ctx f)
      fun _ _ => True := by
  refine .read (.view rules) fun v _ => ?_
  have hdestroy (o : ObjectId) : Copies
      (do let _ ← destroy o (← lift (Resolve.characteristics v o)))
      (do let _ ← Resolve.destroy o (← Resolve.characteristics v o)) := by
    refine .read (reads_characteristics v o) fun c _ => ?_
    refine .bind (copies_destroy o c) fun _ => ?_
    exact .pure _ id
  exact (Mirrors.forM fun o _ => hdestroy o).anyhow

theorem mirrors_resolveRemoval (rules : Rules) (hctx : ctx.Typed) {e : RemovalEffect}
    (he : e.Typed) :
    Mirrors 1 Game.Sound (resolveRemoval rules ctx e) (e.resolve rules ctx)
      fun _ _ => True := by
  cases e with
  | destroy target =>
    refine .read (reads_permanent rules ctx target) fun found _ => ?_
    refine .andThen (copies_destroy found.1 found.2) fun _ => ?_
    exact .pure _ id
  | destroyAll f =>
    refine .bind (mirrors_destroyMatching rules ctx f) fun _ => ?_
    exact .pure _ id
  | exile target =>
    refine .read (reads_object ctx target) fun o _ => ?_
    refine .read (reads_requireCard o) fun _ _ => ?_
    refine .andThen (copies_moveToOwners o _) fun _ => ?_
    exact .pure _ id
  | returnToHand target =>
    refine .read (reads_object ctx target) fun o _ => ?_
    refine .read (reads_requireCard o) fun _ _ => ?_
    refine .look_anyhow fun g _ => ?_
    apply Mirrors.guard
    refine .andThen (copies_moveToOwners o _) fun _ => ?_
    exact .pure _ id
  | sacrifice players f count =>
    refine .read (reads_count rules hctx he) fun n _ => ?_
    refine .read (reads_players rules hctx players) fun ss _ => ?_
    exact mirrors_start rules ctx _ ss

/-- Deals everyone's share of damage, judging the recipients as they were before. -/
def dealShares (rules : Rules) (source : Option ObjectId) (shares : SortedMap ObjectId Int) :
    Machine Unit := do
  let v ← view rules
  shares.entries.forM fun p => dealDamage source p.1 p.2 (v.projection.bind (·.find? p.1))

/-- Divides damage among the targets. -/
def divideAmong (rules : Rules) (ctx : Context) (total : Int) : Machine Outcome := do
  if !ctx.division.isEmpty then
    match DamageEffect.checkDivision ctx.division ctx.targets total with
    | .error failure => throw failure
    | .ok () =>
      dealShares rules ctx.source ctx.division
      return .done
  else
    match ctx.targets with
    | [] => return .done
    | [only] =>
      dealShares rules ctx.source (.ofList [(only, total)])
      return .done
    | targets =>
      let total ← check (fit maxWord total.toNat)
      if total < targets.length then throw (.tooLittleDamage total targets.length)
      pause ctx.controller s!"Divide {total} damage" (.distribution total targets 1)
        ctx.source (.divideDamage ctx)

def resolveDamage (rules : Rules) (ctx : Context) : DamageEffect → Machine Outcome
  | .deal target amount => do
    let n ← Machine.amount rules ctx amount
    dealShares rules ctx.source (.ofList [(← lift (Resolve.object ctx target), n)])
    return .done
  | .divide amount => do
    divideAmong rules ctx (max (← Machine.amount rules ctx amount) 0)
  | .gainLife players amount => do
    let n := max (← Machine.amount rules ctx amount) 0
    (← Machine.players rules ctx players).forM fun s => lift (Resolve.changeLife s n)
    return .done
  | .loseLife players amount => do
    let n := max (← Machine.amount rules ctx amount) 0
    (← Machine.players rules ctx players).forM fun s => do
      lift (Resolve.changeLife s (← check (neg n)))
    return .done

theorem mirrors_dealShares (rules : Rules) (source : Option ObjectId)
    {shares : SortedMap ObjectId Int} (hshares : ∀ n ∈ shares.values, n ≤ maxAmount) :
    Mirrors 0 Game.Sound (dealShares rules source shares)
      (DamageEffect.dealShares rules source shares) fun _ _ => True := by
  refine .read (.view rules) fun v _ => ?_
  have hdeal : Copies
      (shares.entries.forM fun p =>
        dealDamage source p.1 p.2 (v.projection.bind (·.find? p.1)))
      (shares.entries.forM fun p =>
        Resolve.dealDamage source p.1 p.2 (v.projection.bind (·.find? p.1))) :=
    .forM fun p hp => copies_dealDamage source p.1 (hshares p.2 (List.mem_map_of_mem hp)) _
  exact hdeal.anyhow

theorem le_of_mem_values_single {o : ObjectId} {total bound : Int} (h : total ≤ bound) :
    ∀ n ∈ (SortedMap.ofList [(o, total)]).values, n ≤ bound := by
  intro n hn
  obtain ⟨o', hfind⟩ := SortedMap.mem_values_iff.mp hn
  have hmem := SortedMap.mem_of_find?_ofList hfind
  cases List.mem_singleton.mp hmem
  exact h

theorem mirrors_divideAmong (rules : Rules) (hctx : ctx.Typed) {total : Int}
    (htotal : IsAmount total) :
    Mirrors 1 Game.Sound (divideAmong rules ctx total)
      (DamageEffect.divideAmong rules ctx total) fun _ _ => True := by
  have hmax : maxAmount ≤ maxWord := by decide
  have hzero : 0 ≤ maxAmount := by decide
  have htotalle := htotal.2
  apply Mirrors.ite
  · intro hdivided
    cases DamageEffect.checkDivision ctx.division ctx.targets total with
    | error failure => exact .throw _
    | ok u =>
      refine .bind (mirrors_dealShares rules ctx.source ?_) fun _ => ?_
      · intro n hn
        exact (hctx.division n hn).2
      · exact .pure _ id
  · intro hundivided
    generalize ctx.targets = targets
    cases targets with
    | nil => exact .pure _ fun _ => trivial
    | cons first others =>
      cases others with
      | nil =>
        refine .bind (mirrors_dealShares rules ctx.source (le_of_mem_values_single htotalle))
          fun _ => ?_
        exact .pure _ id
      | cons second others =>
        have hword : total.toNat ≤ maxWord := by omega
        have hquestion : (total.toNat : Int) ≤ maxAmount := by omega
        simp only [fit_eq hword, check_ok, pure_bind]
        apply Mirrors.guard
        exact mirrors_pause hquestion trivial (Nat.le_refl _)

theorem mirrors_resolveDamage (rules : Rules) (hctx : ctx.Typed) {e : DamageEffect}
    (he : e.Typed) :
    Mirrors 1 Game.Sound (resolveDamage rules ctx e) (e.resolve rules ctx)
      fun _ _ => True := by
  cases e with
  | deal target amount =>
    refine .read (reads_amount rules hctx he) fun n hn => ?_
    refine .read (reads_object ctx target) fun o _ => ?_
    refine .bind (mirrors_dealShares rules ctx.source (le_of_mem_values_single hn.2))
      fun _ => ?_
    exact .pure _ id
  | divide amount =>
    refine .read (reads_amount rules hctx he) fun n hn => ?_
    exact mirrors_divideAmong rules hctx (hn.max isAmount_zero)
  | gainLife players amount =>
    refine .read (reads_amount rules hctx he) fun n hn => ?_
    refine .read (reads_players rules hctx players) fun ss _ => ?_
    refine .andThen (.forM fun s _ => copies_changeLife s _) fun _ => ?_
    exact .pure _ id
  | loseLife players amount =>
    refine .read (reads_amount rules hctx he) fun n hn => ?_
    refine .read (reads_players rules hctx players) fun ss _ => ?_
    have hmax := (hn.max isAmount_zero).2
    have hmin : minAmount < max n 0 := by
      have hzero : minAmount < 0 := by decide
      omega
    simp only [neg_eq hmin hmax, check_ok, pure_bind]
    refine .andThen (.forM fun s _ => copies_changeLife s _) fun _ => ?_
    exact .pure _ id

end Machine

end CardGame
