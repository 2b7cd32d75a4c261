import CardGame.Proofs.Effect.Compulsory
import CardGame.Proofs.Play.Reachable

/-!
Saying yes to whatever is optional. Resolving an effect may stop at an optional part, and a yes goes
on with that part and then with the effects put off. Altogether this does what the compulsory effect
does in one go: between the stops nothing changes but the number of the next decision, and the only
floating effects swept are spent ones.
-/

namespace CardGame

open Resolve

/-- Groups with nothing optional in them. -/
def compelled (groups : List Group) : List Group :=
  groups.map fun group => (Effect.compulsoryAll group.1, group.2)

/-- How many optional parts there are in groups. -/
def maysOfGroups : List Group → Nat
  | [] => 0
  | group :: rest => Effect.maysOfAll group.1 + maysOfGroups rest

/-- No group is empty, and what the groups start lasts as allowed. -/
def Deferrable (lasting : Duration → Prop) (groups : List Group) : Prop :=
  ∀ group ∈ groups, group.1 ≠ [] ∧ ∀ d ∈ Effect.durationsOfAll group.1, lasting d

variable {lasting : Duration → Prop} {rules : Rules}

theorem compelled_append (xs ys : List Group) :
    compelled (xs ++ ys) = compelled xs ++ compelled ys := List.map_append

theorem maysOfGroups_append (xs ys : List Group) :
    maysOfGroups (xs ++ ys) = maysOfGroups xs + maysOfGroups ys := by
  induction xs with
  | nil => exact (Nat.zero_add _).symm
  | cons x xs ih => rw [List.cons_append, maysOfGroups, maysOfGroups, ih, Nat.add_assoc]

theorem maysOfGroups_rest (es : List Effect) (ctx : Context) :
    maysOfGroups (Stop.rest es ctx) = Effect.maysOfAll es := by
  cases es with
  | nil => rfl
  | cons e rest => exact Nat.add_zero _

namespace Deferrable

theorem append {xs ys : List Group} (hx : Deferrable lasting xs) (hy : Deferrable lasting ys) :
    Deferrable lasting (xs ++ ys) := by
  intro group hgroup
  rcases List.mem_append.mp hgroup with h | h
  · exact hx group h
  · exact hy group h

theorem rest {es : List Effect} {ctx : Context} (h : ∀ d ∈ Effect.durationsOfAll es, lasting d) :
    Deferrable lasting (Stop.rest es ctx) := by
  cases es with
  | nil => simp [Deferrable, Stop.rest]
  | cons e rest =>
    intro group hgroup
    rw [List.mem_singleton.mp hgroup]
    exact ⟨List.cons_ne_nil _ _, h⟩

theorem single {e : Effect} {ctx : Context} (h : ∀ d ∈ e.durations, lasting d) :
    Deferrable lasting [([e], ctx)] := by
  have hrest : ∀ d ∈ Effect.durationsOfAll [e], lasting d := by
    simpa [Effect.durationsOfAll] using h
  exact rest hrest

theorem compelled {groups : List Group} (h : Deferrable lasting groups) :
    Deferrable lasting (compelled groups) := by
  intro group hgroup
  obtain ⟨group', hgroup', rfl⟩ := List.mem_map.mp hgroup
  obtain ⟨hsome, hlasting⟩ := h group' hgroup'
  refine ⟨Effect.compulsoryAll_ne_nil hsome, ?_⟩
  rw [Effect.durationsOfAll_compulsoryAll]
  exact hlasting

theorem directly {groups : List Group} (h : Deferrable lasting groups) :
    Directly lasting (fun _ => True) (rules.planGroups groups) Stopping :=
  rules.directly_planGroups groups (fun group hgroup => (h group hgroup).1) fun group hgroup =>
    (h group hgroup).2

end Deferrable

theorem Rules.planGroups_single (e : Effect) (ctx : Context) :
    rules.planGroups [([e], ctx)] = e.plan rules ctx :=
  (followedBy_none _).trans (followedBy_none _)

theorem Rules.planGroups_compelled_rest (es : List Effect) (ctx : Context) :
    rules.planGroups (compelled (Stop.rest es ctx)) =
      Effect.planAll rules (Effect.compulsoryAll es) ctx := by
  cases es with
  | nil => rfl
  | cons e rest => exact followedBy_none _

/-- What a plan comes to where the compulsory plan comes to `q`: the same, or it stops at an
optional part such that the part and the effects put off, made compulsory, come to `q` from there.
-/
inductive Consenting (lasting : Duration → Prop) (rules : Rules) (bound : Nat) (q : Progress) :
    Except Failure (Option Stop × Progress) → Prop
  | done : Consenting lasting rules bound q (.ok (none, q))
  | asked {stop : Stop} {e : Effect} {ctx : Context} {m : Progress}
      (hquestion : stop.request.question = .yesNo) (hwork : stop.request.work = .may e ctx)
      (hgroups : Deferrable lasting (([e], ctx) :: stop.later))
      (hmays : maysOfGroups (([e], ctx) :: stop.later) < bound)
      (hrest : rules.planGroups (compelled (([e], ctx) :: stop.later)) m = .ok (none, q)) :
      Consenting lasting rules bound q (.ok (some stop, m))

/-- A plan follows a compulsory one when it stops at optional parts only. -/
structure Follows (lasting : Duration → Prop) (rules : Rules) (bound : Nat)
    (plan forced : Resolve (Option Stop)) : Prop where
  consents : ∀ p q, forced p = .ok (none, q) → Consenting lasting rules bound q (plan p)

theorem Consenting.mono {bound bound' : Nat} {q : Progress}
    {outcome : Except Failure (Option Stop × Progress)}
    (h : Consenting lasting rules bound q outcome) (hbound : bound ≤ bound') :
    Consenting lasting rules bound' q outcome := by
  cases h with
  | done => exact .done
  | asked hquestion hwork hgroups hmays hrest =>
    exact .asked hquestion hwork hgroups (Nat.lt_of_lt_of_le hmays hbound) hrest

theorem followedBy_eq_none {r next : Resolve (Option Stop)} {groups : List Group} {p q : Progress}
    (h : r.followedBy next groups p = .ok (none, q)) :
    ∃ m, r p = .ok (none, m) ∧ next m = .ok (none, q) := by
  obtain hnext | ⟨first, -, hstop⟩ := followedBy_eq_ok h
  · exact hnext
  · cases hstop

theorem followedBy_of_none {r next : Resolve (Option Stop)} {groups : List Group} {p m : Progress}
    (h : r p = .ok (none, m)) : r.followedBy next groups p = next m := bind_of_ok h

theorem followedBy_of_some {r next : Resolve (Option Stop)} {groups : List Group} {p m : Progress}
    {stop : Stop} (h : r p = .ok (some stop, m)) :
    r.followedBy next groups p = .ok (some (stop.andThen groups), m) := bind_of_ok h

namespace Follows

theorem refl (plan : Resolve (Option Stop)) : Follows lasting rules 0 plan plan := by
  refine ⟨fun p q h => ?_⟩
  rw [h]
  exact .done

/-- What is compulsory and asks all the same does not come to an end. -/
theorem of_asking {bound : Nat} {plan : Resolve (Option Stop)} (stop : Stop) :
    Follows lasting rules bound plan (return some stop) :=
  ⟨fun _ _ h => nomatch h⟩

theorem mono {bound bound' : Nat} {plan forced : Resolve (Option Stop)}
    (h : Follows lasting rules bound plan forced) (hbound : bound ≤ bound') :
    Follows lasting rules bound' plan forced :=
  ⟨fun p q hforced => (h.consents p q hforced).mono hbound⟩

theorem view {bound : Nat} {k forced : View → Resolve (Option Stop)}
    (h : ∀ v, Follows lasting rules bound (k v) (forced v)) :
    Follows lasting rules bound (Resolve.view rules >>= k) (Resolve.view rules >>= forced) :=
  ⟨fun p q hforced => (h (rules.view p.game)).consents p q hforced⟩

theorem followedBy {bound bound' : Nat} {plan next forced forcedNext : Resolve (Option Stop)}
    {groups forcedGroups : List Group} (hplan : Follows lasting rules bound plan forced)
    (hnext : Follows lasting rules bound' next forcedNext) (hgroups : Deferrable lasting groups)
    (hmays : maysOfGroups groups = bound')
    (hforced : rules.planGroups (compelled groups) = forcedNext) :
    Follows lasting rules (bound + bound') (plan.followedBy next groups)
      (forced.followedBy forcedNext forcedGroups) := by
  refine ⟨fun p q h => ?_⟩
  obtain ⟨m, hm, hq⟩ := followedBy_eq_none h
  have hfirst := hplan.consents p m hm
  generalize hrun : plan p = outcome at hfirst
  cases hfirst with
  | done =>
    rw [followedBy_of_none hrun]
    exact (hnext.consents m q hq).mono (Nat.le_add_left _ _)
  | @asked stop e ctx m' hquestion hwork hdeferred hless hrest =>
    rw [followedBy_of_some hrun]
    have hlater : ([e], ctx) :: (stop.andThen groups).later =
        (([e], ctx) :: stop.later) ++ groups := rfl
    refine .asked hquestion hwork (hdeferred.append hgroups) ?_ ?_
    · rw [hlater, maysOfGroups_append, hmays]
      exact Nat.add_lt_add_right hless _
    · rw [hlater, compelled_append, Rules.planGroups_append, followedBy_of_none hrest, hforced]
      exact hq

end Follows

namespace Effect

mutual

/-- Resolving an effect does what the compulsory effect does, but stops at optional parts. -/
theorem follows_plan (e : Effect) (ctx : Context) (h : ∀ d ∈ e.durations, lasting d) :
    Follows lasting rules e.mays (e.plan rules ctx) (e.compulsory.plan rules ctx) := by
  cases e with
  | composite es => exact follows_planAll es ctx h
  | conditional c yes no =>
    refine .view fun v => ?_
    split
    · exact (follows_plan yes ctx fun d hd => h d (List.mem_append_left _ hd)).mono
        (Nat.le_add_right _ _)
    · exact (follows_planOption no ctx fun d hd => h d (List.mem_append_right _ hd)).mono
        (Nat.le_add_left _ _)
  | may prompt e =>
    refine ⟨fun p q hforced => ?_⟩
    rw [plan, askMay, stopAt_pause]
    refine .asked rfl rfl (.single h) (Nat.lt_succ_self _) ?_
    exact (congrFun (rules.planGroups_single _ _) p).trans hforced
  | modal modes fewest most =>
    cases modes with
    | nil => exact .refl _
    | cons m rest =>
      have hasks : (compulsory (.modal (m :: rest) fewest most)).plan rules ctx = return some (.only
          ⟨ctx.controller, "Choose mode(s)", _, ctx.source,
            .modal (compulsoryModes (m :: rest)) ctx⟩) := stopAt_pause _ _ _ _ _
      rw [hasks]
      exact .of_asking _
  | payOrSuffer selector cost suffer =>
    refine .view fun v => ?_
    split
    · exact (Follows.refl _).mono (Nat.zero_le _)
    · split
      · rw [stopAt_pause, stopAt_pause]
        exact .of_asking _
      · exact follows_plan suffer ctx h
  | chooseTargets spec e =>
    refine .view fun v => ?_
    split
    · exact (Follows.refl _).mono (Nat.zero_le _)
    · exact follows_plan e _ h
    · rw [stopAt_pause, stopAt_pause]
      exact .of_asking _
  | _ => exact .refl _

theorem follows_planAll (es : List Effect) (ctx : Context)
    (h : ∀ d ∈ durationsOfAll es, lasting d) :
    Follows lasting rules (maysOfAll es) (planAll rules es ctx)
      (planAll rules (compulsoryAll es) ctx) := by
  cases es with
  | nil => exact .refl _
  | cons e rest =>
    have hrest : ∀ d ∈ durationsOfAll rest, lasting d := fun d hd =>
      h d (List.mem_append_right _ hd)
    exact .followedBy (follows_plan e ctx fun d hd => h d (List.mem_append_left _ hd))
      (follows_planAll rest ctx hrest) (.rest hrest) (maysOfGroups_rest rest ctx)
      (rules.planGroups_compelled_rest rest ctx)

theorem follows_planOption (e : Option Effect) (ctx : Context)
    (h : ∀ d ∈ durationsOfOption e, lasting d) :
    Follows lasting rules (maysOfOption e) (planOption rules e ctx)
      (planOption rules (compulsoryOption e) ctx) := by
  cases e with
  | none => exact .refl _
  | some e => exact follows_plan e ctx h

end

end Effect

theorem Rules.follows_planGroups {groups : List Group} (h : Deferrable lasting groups) :
    Follows lasting rules (maysOfGroups groups) (rules.planGroups groups)
      (rules.planGroups (compelled groups)) := by
  induction groups with
  | nil => exact .refl _
  | cons group rest ih =>
    have hrest : Deferrable lasting rest := fun group hgroup =>
      h group (List.mem_cons_of_mem _ hgroup)
    rw [maysOfGroups]
    exact .followedBy (Effect.follows_planAll group.1 group.2 (h group List.mem_cons_self).2)
      (ih hrest) hrest rfl rfl

/-- A duration that does not depend on where the source is. -/
def Duration.IsUnconditional (d : Duration) : Prop :=
  d ≠ .whileSourceOnBattlefield ∧ d ≠ .whileAttached

/-- Whether an event tells that a floating effect has ended. -/
def Event.isExpiry : Event → Bool
  | .floatingExpired _ => true
  | _ => false

/-- Whether an event is about anything but decisions and the end of floating effects. -/
def Event.isDeed (e : Event) : Bool := !e.isDecision && !e.isExpiry

namespace Game

variable {g : Game}

/-- If no duration depends on where the source is, an effect works until its turns have run out. -/
theorem isActive_eq (hsound : g.Sound) (hlasting : g.Lasting Duration.IsUnconditional)
    {e : FloatingEffect} (he : e ∈ g.floating) : g.isActive e = !e.isSpent := by
  have haffects : e.affected.toList.any g.onBattlefield = true := by
    have hsome : ∃ o, e.affected.contains o = true := by
      by_contra hnone
      have hempty := SortedSet.isEmpty_iff.mpr (by simpa using hnone)
      exact Bool.false_ne_true ((hsound.orderly.affecting e he).symm.trans hempty)
    obtain ⟨o, ho⟩ := hsome
    exact List.any_eq_true.mpr ⟨o, SortedSet.mem_toList_iff.mpr ho,
      hsound.orderly.present e he o ho⟩
  obtain ⟨hsource, hattached⟩ := hlasting e he
  have hshield := hsound.orderly.shielding e he
  unfold isActive FloatingEffect.isSpent
  rw [haffects, Bool.true_and]
  split
  · next hduration => exact absurd hduration hsource
  · next hduration => exact absurd hduration hattached
  · next hduration =>
    have hnot : e.modification.change ≠ .regenerationShield := fun hshields => by
      cases hduration.symm.trans (hshield hshields)
    simp [hduration, hnot]
  · next hturns =>
    have hnot : e.duration ≠ .forTurns 0 := hturns
    simp [hnot]

theorem sweep_eq (hsound : g.Sound) (hlasting : g.Lasting Duration.IsUnconditional) :
    g.sweep.1 = { g with floating := g.floating.filter (!·.isSpent) } := by
  have hfilter : g.floating.filter g.isActive = g.floating.filter (!·.isSpent) :=
    List.filter_congr fun e he => isActive_eq hsound hlasting he
  exact congrArg (fun floating => ({ g with floating } : Game)) hfilter

/-- A sweep leaves the core alone. -/
theorem core_sweep (hsound : g.Sound) (hlasting : g.Lasting Duration.IsUnconditional) :
    g.sweep.1.core true = g.core true := by
  rw [sweep_eq hsound hlasting]
  simp [core, List.filter_filter]

/-- A sound game in which nobody is asked, nothing is suspended and no duration depends on where a
source is. -/
structure Calm (g : Game) : Prop where
  sound : g.Sound
  lasting : g.Lasting Duration.IsUnconditional
  pending : g.pending = none
  stack : g.stack = []

/-- With nothing suspended, a swept game is its core but for the number of the next decision. -/
theorem sweep_eq_core (hcalm : g.Calm) :
    g.sweep.1 = { g.core true with nextDecision := g.nextDecision } := by
  rw [sweep_eq hcalm.sound hcalm.lasting]
  simp [core, ← hcalm.pending, ← hcalm.stack]

end Game

namespace Progress

theorem deeds_settled (p : Progress) :
    p.settled.events.filter Event.isDeed = p.events.filter Event.isDeed := by
  have hexpired : (p.game.sweep.2).filter Event.isDeed = [] := by
    refine List.filter_eq_nil_iff.mpr fun e he => ?_
    obtain ⟨f, -, rfl⟩ := List.mem_map.mp he
    simp [Event.isDeed, Event.isExpiry]
  change (p.events ++ p.game.sweep.2).filter Event.isDeed = _
  rw [List.filter_append, hexpired, List.append_nil]

theorem deeds_stoppedAt (stop : Stop) (p : Progress) :
    (p.stoppedAt stop).settled.events.filter Event.isDeed = p.events.filter Event.isDeed := by
  rw [deeds_settled]
  change (p.events ++ [_]).filter Event.isDeed = _
  rw [List.filter_append]
  exact List.append_nil _

/-- The progress when the question that it stopped at is about to be answered. -/
def answering (stop : Stop) (p : Progress) : Progress where
  game := { (p.stoppedAt stop).settled.game with pending := none, stack := [] }
  events := [.decisionResolved ⟨p.game.nextDecision⟩ stop.request.player]

/-- Between a question and its answer nothing is swept that matters. -/
theorem core_answering (stop : Stop) {p : Progress} (hcalm : p.game.Calm) :
    (p.answering stop).game.core true = p.game.core true :=
  Game.core_sweep (sound_stoppedAt stop hcalm.sound) hcalm.lasting

theorem calm_answering (stop : Stop) {p : Progress} (hcalm : p.game.Calm) :
    (p.answering stop).game.Calm where
  sound := Rules.sound_answering (sound_settled (sound_stoppedAt stop hcalm.sound))
  lasting e he := hcalm.lasting e (List.mem_of_mem_filter he)
  pending := rfl
  stack := rfl

/-- Games with one core are the same when they are swept, but for the number of the next decision.
-/
theorem settled_of_core {p q : Progress} (hp : p.game.Calm) (hq : q.game.Calm)
    (hcore : p.game.core true = q.game.core true) :
    q.settled.game = { p.settled.game with nextDecision := q.settled.game.nextDecision } := by
  have hp' : p.settled.game = { p.game.core true with nextDecision := p.game.nextDecision } :=
    Game.sweep_eq_core hp
  have hq' : q.settled.game = { q.game.core true with nextDecision := q.game.nextDecision } :=
    Game.sweep_eq_core hq
  rw [hp', hq', hcore]

end Progress

namespace Rules

/-- The results of saying yes to whatever is asked, a limited number of times. -/
def consent (rules : Rules) : Nat → Result → List Result
  | n + 1, .paused g d es =>
    .paused g d es :: consent rules n (rules.resume g { decision := d.id, answer := .yesNo true })
  | _, r => [r]

/-- Saying yes ends in a success at the given game, but for the number of the next decision, and
with the given deeds; or else some yes sets too much going. -/
def Consented (rules : Rules) (n : Nat) (r : Result) (g : Game) (es : List Event) : Prop :=
  (∃ r' ∈ rules.consent n r, r'.isTooLong = true) ∨
    ∃ g' es', (rules.consent n r).getLast? = some (.success g' es') ∧
      g' = { g with nextDecision := g'.nextDecision } ∧
      ((rules.consent n r).flatMap Result.events).filter Event.isDeed = es.filter Event.isDeed

theorem consent_success (n : Nat) (g : Game) (es : List Event) :
    rules.consent n (.success g es) = [.success g es] := by
  cases n <;> rfl

theorem consent_failed (n : Nat) (g : Game) (failure : Failure) :
    rules.consent n (.failed g failure) = [.failed g failure] := by
  cases n <;> rfl

theorem Consented.success {n : Nat} {g : Game} {es es' : List Event}
    (h : es.filter Event.isDeed = es'.filter Event.isDeed) :
    rules.Consented n (.success g es) g es' := by
  refine Or.inr ⟨g, es, ?_, rfl, ?_⟩
  · rw [consent_success]
    rfl
  · rw [consent_success]
    exact (congrArg _ (List.append_nil es)).trans h

theorem Consented.tooLong {n : Nat} {g g' : Game} {es : List Event} {limit : Nat} :
    rules.Consented n (.failed g (.chainTooLong limit)) g' es := by
  refine Or.inl ⟨.failed g (.chainTooLong limit), ?_, rfl⟩
  rw [consent_failed]
  exact List.mem_singleton_self _

/-- Saying yes to one question more. -/
theorem Consented.paused {n : Nat} {g g₁ g₂ : Game} {d : Decision} {es es₁ es₂ : List Event}
    (h : rules.Consented n (rules.resume g { decision := d.id, answer := .yesNo true }) g₁ es₁)
    (hgame : g₁ = { g₂ with nextDecision := g₁.nextDecision })
    (hdeeds : es₂.filter Event.isDeed = es.filter Event.isDeed ++ es₁.filter Event.isDeed) :
    rules.Consented (n + 1) (.paused g d es) g₂ es₂ := by
  rcases h with ⟨r, hr, hlong⟩ | ⟨g', es', hlast, hgame', hdeeds'⟩
  · exact Or.inl ⟨r, List.mem_cons_of_mem _ hr, hlong⟩
  · refine Or.inr ⟨g', es', ?_, ?_, ?_⟩
    · rw [consent, List.getLast?_cons, hlast]
      rfl
    · rw [hgame', hgame]
    · rw [consent, List.flatMap_cons, List.filter_append, hdeeds', hdeeds]
      rfl

theorem calm_planGroups {groups : List Group} {p q : Progress} {stop : Option Stop}
    (hgroups : Deferrable Duration.IsUnconditional groups) (hcalm : p.game.Calm)
    (hrun : rules.planGroups groups p = .ok (stop, q)) : q.game.Calm := by
  have hchanges := (hgroups.directly.runs hcalm.sound trivial hrun).1
  exact ⟨hchanges.sound hcalm.sound, hchanges.lasts hcalm.lasting,
    hchanges.sameControl.pending.trans hcalm.pending,
    hchanges.sameControl.stack.trans hcalm.stack⟩

/-- Saying yes goes on with the optional part and then with the effects put off. -/
theorem resume_yes {stop : Stop} {e : Effect} {ctx : Context} {m : Progress} (hcalm : m.game.Calm)
    (hquestion : stop.request.question = .yesNo) (hwork : stop.request.work = .may e ctx) :
    let g := (m.stoppedAt stop).settled.game
    let yes : Response := { decision := ⟨m.game.nextDecision⟩, answer := .yesNo true }
    rules.resume g yes = .failed g (.chainTooLong rules.chainLimit) ∨
      rules.resume g yes =
        .conclude g (rules.planGroups (([e], ctx) :: stop.later) (m.answering stop)) := by
  intro g yes
  let d := stop.request.decision ⟨m.game.nextDecision⟩
  have hsound : g.Sound := Progress.sound_settled (Progress.sound_stoppedAt stop hcalm.sound)
  have hstack : g.stack = ⟨some d.id, .may e ctx⟩ :: stop.later.map Frame.ofGroup := by
    change ⟨some _, _⟩ :: (stop.later.map Frame.ofGroup ++ m.game.stack) = _
    rw [hcalm.stack, List.append_nil, hwork]
    rfl
  have hobjection : objection d yes = none := by
    simp [objection, Request.decision, Question.check, hquestion, d, yes]
  have hplan : rules.planAnswer d (.may e ctx) (.yesNo true) stop.later =
      rules.planGroups (([e], ctx) :: stop.later) :=
    congrArg (followedBy · _ stop.later) (followedBy_none _).symm
  rw [← hplan]
  have hfits : (Suspension.may e ctx).Fits d.question g := trivial
  exact (resume_eq hsound hfits rfl hstack hobjection).imp_left And.right

/-- What is put off, and whatever is optional in it agreed to, comes to what it comes to when it is
made compulsory. -/
theorem consented_planGroups (n : Nat) (before : Game) {groups : List Group} {p q : Progress}
    (hcalm : p.game.Calm) (hgroups : Deferrable Duration.IsUnconditional groups)
    (hmays : maysOfGroups groups ≤ n)
    (hforced : rules.planGroups (compelled groups) p = .ok (none, q)) :
    rules.Consented n (.conclude before (rules.planGroups groups p)) q.settled.game q.events := by
  induction n generalizing groups p q before with
  | zero =>
    have hconsents := (rules.follows_planGroups hgroups).consents p q hforced
    generalize rules.planGroups groups p = outcome at hconsents
    cases hconsents with
    | done => exact .success (Progress.deeds_settled q)
    | asked _ _ _ hless => omega
  | succ n ih =>
    have hconsents := (rules.follows_planGroups hgroups).consents p q hforced
    generalize hrun : rules.planGroups groups p = outcome at hconsents
    cases hconsents with
    | done => exact .success (Progress.deeds_settled q)
    | @asked stop e ctx m hquestion hwork hdeferred hless hrest =>
      have hm := calm_planGroups hgroups hcalm hrun
      have hanswering := Progress.calm_answering stop hm
      -- what is left does the same after the answer as it would have done at once
      have hagree : Agree true m.events (m.answering stop).events
          (rules.planGroups (compelled (([e], ctx) :: stop.later)) m)
          (rules.planGroups (compelled (([e], ctx) :: stop.later)) (m.answering stop)) :=
        hdeferred.compelled.directly.agrees hm.sound hanswering.sound trivial trivial
          ⟨(Progress.core_answering stop hm).symm, [], by simp, by simp⟩
      rw [hrest] at hagree
      generalize hforced' : rules.planGroups _ (m.answering stop) = outcome at hagree
      cases hagree with
      | @answered _ _ q' hlike =>
        have hgame := Progress.settled_of_core (calm_planGroups hdeferred.compelled hm hrest)
          (calm_planGroups hdeferred.compelled hanswering hforced') hlike.core
        have hdeeds : q.events.filter Event.isDeed =
            (m.stoppedAt stop).settled.events.filter Event.isDeed ++
              q'.events.filter Event.isDeed := by
          obtain ⟨es, hevents, hevents'⟩ := hlike.events
          rw [Progress.deeds_stoppedAt, hevents, hevents', List.filter_append, List.filter_append]
          rfl
        refine .paused ?_ hgame hdeeds
        rcases rules.resume_yes hm hquestion hwork with hlong | hplan
        · exact hlong ▸ .tooLong
        · exact hplan ▸ ih _ hanswering hdeferred (by omega) hforced'

end Rules

theorem Event.filter_isDeed {es : List Event} (h : ∀ e ∈ es, e.isDecision = false) :
    es.filter Event.isDeed = es.filter (!·.isExpiry) :=
  List.filter_congr fun e he => by simp [Event.isDeed, h e he]

theorem Result.conclude_eq_success {before g : Game} {es : List Event}
    {outcome : Except Failure (Option Stop × Progress)}
    (h : Result.conclude before outcome = .success g es) :
    ∃ q, outcome = .ok (none, q) ∧ g = q.settled.game ∧ es = q.settled.events := by
  cases outcome with
  | error failure => cases h
  | ok result =>
    obtain ⟨stop, q⟩ := result
    cases stop with
    | none =>
      cases h
      exact ⟨q, rfl, rfl, rfl⟩
    | some stop => cases h

/-- Being asked makes no difference to a player who always says yes. If the compulsory effect
succeeds, saying yes to every question of the effect itself succeeds, too, after at most as many
answers as there are optional parts: in the same game but for the number of the next decision, and
with the same events but for those on decisions and on the end of floating effects. The exception is
an answer that sets too much going. -/
theorem Game.Reachable.consent_compulsory {g g₁ : Game} {es₁ : List Event} (h : g.Reachable)
    (rules : Rules) (e : Effect) (ctx : Context) (hpending : g.pending = none)
    (hfloating : ∀ f ∈ g.floating, f.duration.IsUnconditional)
    (hdurations : ∀ d ∈ e.durations, d.IsUnconditional)
    (hforced : rules.execute g e.compulsory ctx = .success g₁ es₁) :
    (∃ r ∈ rules.consent e.mays (rules.execute g e ctx), r.isTooLong = true) ∨
      ∃ g₂ es₂,
        (rules.consent e.mays (rules.execute g e ctx)).getLast? = some (.success g₂ es₂) ∧
          g₂ = { g₁ with nextDecision := g₂.nextDecision } ∧
          ((rules.consent e.mays (rules.execute g e ctx)).flatMap Result.events).filter
            Event.isDeed = es₁.filter (!·.isExpiry) := by
  have hstack : g.stack = [] := by
    cases h.poised with
    | idle _ hstack => exact hstack
    | waiting d _ _ hsome =>
      rw [hsome] at hpending
      cases hpending
  have hcalm : g.Calm := ⟨h.sound, hfloating, hpending, hstack⟩
  have hgroups : Deferrable Duration.IsUnconditional [([e], ctx)] := .single hdurations
  rw [Rules.execute_eq h.sound hpending] at hforced ⊢
  obtain ⟨q, hrun, rfl, rfl⟩ := Result.conclude_eq_success hforced
  have hrun' : rules.planGroups (compelled [([e], ctx)]) { game := g } = .ok (none, q) :=
    (congrFun (rules.planGroups_single _ _) _).trans hrun
  have hconsented := rules.consented_planGroups e.mays g hcalm hgroups (Nat.le_refl _) hrun'
  rw [rules.planGroups_single] at hconsented
  have hundecided : ∀ e ∈ q.settled.events, e.isDecision = false := by
    obtain ⟨es, hevents, hquiet⟩ :=
      (hgroups.compelled.directly.runs h.sound trivial hrun').1.events
    intro e he
    rcases List.mem_append.mp he with htold | hexpired
    · exact hquiet e (by simpa [hevents] using htold)
    · obtain ⟨f, -, rfl⟩ := List.mem_map.mp hexpired
      rfl
  rw [← Event.filter_isDeed hundecided, Progress.deeds_settled]
  exact hconsented

/-- Two questions, the second one in a composite put off while the first one is asked. -/
theorem Game.consent_compulsory_nested : ∃ g, start {} = .ok g ∧
    let e : Effect := .composite [.may "Gain?" (.gainLife 1),
      .composite [.gainLife 2, .may "More?" (.gainLife 3)], .gainLife 4]
    let forced := Rules.execute {} g e.compulsory {}
    let consenting := Rules.consent {} e.mays (Rules.execute {} g e {})
    forced = .success forced.game forced.events ∧
      ((∃ r ∈ consenting, r.isTooLong = true) ∨
        ∃ g₂ es₂, consenting.getLast? = some (.success g₂ es₂) ∧
          g₂ = { forced.game with nextDecision := g₂.nextDecision } ∧
          (consenting.flatMap Result.events).filter Event.isDeed =
            forced.events.filter (!·.isExpiry)) := by
  refine ⟨_, rfl, by decide +kernel, ?_⟩
  exact Reachable.consent_compulsory (.start (s := {}) rfl) _ _ _ rfl
    (fun f hf => absurd hf List.not_mem_nil)
    (fun d hd => absurd hd List.not_mem_nil) (by decide +kernel)

end CardGame
