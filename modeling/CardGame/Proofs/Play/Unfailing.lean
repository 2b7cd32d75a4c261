import CardGame.Proofs.Play.Account
import CardGame.Proofs.Play.Arranged
import CardGame.Proofs.Play.Waiting
import CardGame.Proofs.Resolve.Total

/-!
Effects that cannot fail do not fail. They find what they act on, as long as the players whom the
context and the game name are at the table (`Game.Seated`). The parts of a composite resolve in
games that earlier parts have changed, so what the later ones need is shown to be left as it was
(`Game.Staffed`). At a table where everything is done for its players nobody else comes to be named
(`Game.Attended`).
-/

namespace CardGame

open Resolve

namespace Game

variable {n : Nat} {g : Game}

/-- All players whom a game names are at its table: the one whose turn it is, those who control
something apart from continuous effects, and those who are given control by floating effects. -/
structure Seated (g : Game) : Prop where
  active : g.turn.active.index < g.seats
  held : ∀ o s, (g.facets o).controller? = some s → s.index < g.seats
  granted : ∀ e ∈ g.floating, e.modification.change.GrantsTo (·.index < g.seats)

/-- A table for so many, at which everybody sits whom an effect may find, and everything that is no
player is a card or a token. -/
structure Staffed (n : Nat) (g : Game) : Prop where
  seats : g.seats = n
  active : g.turn.active.index < n
  governed : g.Governed n
  carded : g.Carded

theorem Arranged.staffed (h : g.Arranged) (hidle : g.pending = none) (hseated : g.Seated) :
    g.Staffed g.seats where
  seats := rfl
  active := hseated.active
  carded := h.carded
  governed := by
    refine ⟨h.furnished.zoned, hseated.held, hseated.granted, ?_⟩
    cases h.poised with
    | idle hpending hstack =>
      rw [hstack]
      exact fun _ hframe => absurd hframe List.not_mem_nil
    | waiting d work groups hpending =>
      rw [hidle] at hpending
      cases hpending

/-- Whoever a selector names sits at the table. -/
theorem Staffed.seated_of_players (h : g.Staffed n) (hfurnished : g.Furnished) {ctx : Context}
    (hctx : ctx.Seated n) (rules : Rules) {sel : Selector} :
    ∀ s ∈ (rules.view g).players ctx sel, s.index < n := by
  obtain ⟨rfl, hactive, hgoverned, -⟩ := h
  exact fun s hs => hgoverned.seated_of_players hfurnished hactive hctx rules hs

/-- An effect that is done leaves the table as staffed as it was. -/
theorem Staffed.resolved {rules : Rules} {e : Effect} {ctx : Context} {p q : Progress}
    (h : p.game.Staffed n) (hsound : p.game.Sound) (hctx : ctx.Seated n)
    (hrun : e.resolve rules ctx p = .ok (.done, q)) : q.game.Staffed n := by
  have hchanges := Effect.changes_of_done e ctx hsound hrun
  have hseats : Kept fun g => g.seats = n := .of_sameTable fun htable hg => htable.seats.trans hg
  constructor
  · exact hseats.changes hchanges hsound h.seats
  · exact hchanges.turn ▸ h.active
  · exact (rules.governs_resolve e hctx.controller).keeps h.governed hrun
  · exact kept_carded.changes hchanges hsound h.carded

end Game

variable {P : Game → Prop} {n : Nat} {rules : Rules} {ctx : Context}

/-- What can be done for everybody at the table can be done for those whom a selector names. -/
theorem succeeds_forPlayers (hctx : ctx.Seated n) (sel : Selector) {body : Seat → Resolve PUnit}
    (hP : ∀ g : Game, g.Staffed n → P g)
    (hbody : ∀ s, s.index < n → Succeeds P (body s) fun _ => P) :
    Succeeds (Game.Staffed n) (do
      (← players rules ctx sel).forM body
      return Outcome.done) fun _ _ => True := by
  refine .bind (succeeds_players rules ctx sel) fun found => .assuming ?_
  rintro g hfurnished ⟨rfl, h⟩
  have hseated : ∀ s ∈ (rules.view g).players ctx sel, s.index < n :=
    h.seated_of_players hfurnished hctx rules
  refine .bind ((Succeeds.forM fun s hs => hbody s (hseated s hs)).of_pre ?_) fun _ =>
    .pure _ fun _ => trivial
  rintro g' - rfl
  exact hP _ h

theorem ContinuousEffect.succeeds_resolve (e : ContinuousEffect)
    (htotal : (Effect.continuous e).kind.isTotal = true) :
    Succeeds P (e.resolve rules ctx) fun _ _ => True := by
  cases e with
  | modifyGroup f power toughness duration =>
    refine .bind (succeeds_amount rules ctx power) fun p => ?_
    refine .bind (succeeds_amount rules ctx toughness) fun t => ?_
    exact succeeds_onGroup f duration (by simp)
  | grantKeywordToGroup f keyword duration => exact succeeds_onGroup f duration (by simp)
  | _ => cases htotal

theorem RemovalEffect.succeeds_resolve (e : RemovalEffect)
    (htotal : (Effect.removal e).kind.isTotal = true) :
    Succeeds (Game.Staffed n) (e.resolve rules ctx) fun _ _ => True := by
  cases e with
  | destroyAll f =>
    refine .bind ((succeeds_destroyMatching f).of_pre ?_) fun _ => .pure _ id
    intro g hfurnished h o hthere
    obtain ⟨s, hzone⟩ := Game.onBattlefield_iff.mp hthere
    exact h.carded.exists_shown hfurnished.sound.housed rules hzone
  | sacrifice sel f count =>
    refine .bind (succeeds_count rules ctx count) fun k => ?_
    exact .bind (succeeds_players rules ctx sel) fun found => PlayerChoice.succeeds_start _ found
  | _ => cases htotal

theorem DamageEffect.succeeds_resolve (hctx : ctx.Seated n) (e : DamageEffect)
    (htotal : (Effect.damage e).kind.isTotal = true) :
    Succeeds (Game.Staffed n) (e.resolve rules ctx) fun _ _ => True := by
  have hlife (delta : Int) (s : Seat) (hs : s.index < n) :
      Succeeds (·.seats = n) (changeLife s delta) fun _ => (·.seats = n) := by
    have hsteady : Steady [] fun g => g.seats = n := fun _ _ hseats _ h => hseats.trans h
    exact (succeeds_changeLife delta hsteady).of_pre fun _ h => ⟨h.symm ▸ hs, h⟩
  cases e with
  | gainLife sel amount =>
    refine .bind (succeeds_amount rules ctx amount) fun k => ?_
    exact succeeds_forPlayers hctx sel (fun _ h => h.seats) (hlife _)
  | loseLife sel amount =>
    refine .bind (succeeds_amount rules ctx amount) fun k => ?_
    exact succeeds_forPlayers hctx sel (fun _ h => h.seats) (hlife _)
  | _ => cases htotal

theorem LibraryEffect.succeeds_resolve (hctx : ctx.Seated n) (e : LibraryEffect)
    (htotal : (Effect.library e).kind.isTotal = true) :
    Succeeds (Game.Staffed n) (e.resolve rules ctx) fun _ _ => True := by
  have hanyway (sel : Selector) {body : Seat → Resolve PUnit}
      (hbody : ∀ s, Succeeds (fun _ => True) (body s) fun _ _ => True) :
      Succeeds (Game.Staffed n) (do
        (← players rules ctx sel).forM body
        return Outcome.done) fun _ _ => True :=
    succeeds_forPlayers hctx sel (fun _ _ => trivial) fun s _ => hbody s
  cases e with
  | draw sel count =>
    refine .bind (succeeds_count rules ctx count) fun k => hanyway sel fun s => ?_
    exact .bind (succeeds_draw s k) fun _ => .pure _ id
  | discard sel count =>
    refine .bind (succeeds_count rules ctx count) fun k => ?_
    exact .bind (succeeds_players rules ctx sel) fun found => PlayerChoice.succeeds_start _ found
  | discardAtRandom sel count =>
    refine .bind (succeeds_count rules ctx count) fun k => hanyway sel fun s => ?_
    exact succeeds_discardRandom s k
  | mill sel count =>
    refine .bind (succeeds_count rules ctx count) fun k => hanyway sel fun s => ?_
    exact .bind (succeeds_mill s k) fun _ => .pure _ id
  | shuffle sel => exact hanyway sel succeeds_shuffleLibrary
  | scry count => exact .bind (succeeds_count rules ctx count) succeeds_askScry
  | reorderTop count => exact .bind (succeeds_count rules ctx count) succeeds_askReorder
  | search f count destination tapped => exact succeeds_askSearch f count destination tapped
  | createToken t count sel =>
    refine .bind (succeeds_count rules ctx count) fun k => ?_
    refine succeeds_forPlayers hctx sel (fun _ h => h.seats) fun s hs => .forM fun _ _ => ?_
    exact .bind (succeeds_createToken t hs) fun _ => .pure _ id
  | separate => cases htotal

namespace Effect

mutual

/-- An effect that never fails succeeds, by recursion on what it is put together from. -/
theorem succeeds_resolve (e : Effect) (ctx : Context) (htotal : e.isTotal = true)
    (hctx : ctx.Seated n) :
    Succeeds (Game.Staffed n) (e.resolve rules ctx) fun _ _ => True := by
  cases e with
  | continuous e => exact e.succeeds_resolve htotal
  | permanent e => cases e <;> cases htotal
  | removal e => exact e.succeeds_resolve htotal
  | damage e => exact e.succeeds_resolve hctx htotal
  | library e => exact e.succeeds_resolve hctx htotal
  | composite es => exact succeeds_resolveAll es ctx htotal hctx
  | conditional c yes no =>
    obtain ⟨hyes, hno⟩ := (Bool.and_eq_true _ _).mp htotal
    refine .view fun g _ h => .ite ?_ ?_
    · intro hholds
      exact (succeeds_resolve yes ctx hyes hctx).of_pre fun _ heq => heq ▸ h
    · intro hfails
      exact (succeeds_resolveOption no ctx hno hctx).of_pre fun _ heq => heq ▸ h
  | may prompt e => exact .pause _ _ _ _ _
  | modal modes fewest most =>
    exact .ite (fun _ => .pure _ fun _ => trivial) fun _ => .pause _ _ _ _ _
  | payOrSuffer payer cost suffer =>
    refine .view fun g _ h => ?_
    split
    · exact .pure _ fun _ => trivial
    · refine .ite (fun _ => .pause _ _ _ _ _) fun _ => ?_
      exact (succeeds_resolve suffer ctx htotal hctx).of_pre fun _ heq => heq ▸ h
  | chooseTargets spec e =>
    have huntargeted : (ctx.withTargets []).Seated n := ⟨hctx.controller, hctx.opponent,
      hctx.triggering⟩
    refine .view fun g _ h => ?_
    split
    · exact .pure _ fun _ => trivial
    · exact (succeeds_resolve e _ htotal huntargeted).of_pre fun _ heq => heq ▸ h
    · exact .pause _ _ _ _ _
  | eachPlayerChooses sel choice =>
    exact .bind (succeeds_players rules ctx sel) fun found => PlayerChoice.succeeds_start _ found

theorem succeeds_resolveOption (e : Option Effect) (ctx : Context)
    (htotal : isTotalOption e = true) (hctx : ctx.Seated n) :
    Succeeds (Game.Staffed n) (resolveOption rules e ctx) fun _ _ => True := by
  cases e with
  | none => exact .pure _ fun _ => trivial
  | some e => exact succeeds_resolve e ctx htotal hctx

/-- What comes after an effect that is done finds the table staffed as before. After a question
nothing is left to do but to put the rest off. -/
theorem succeeds_resolveAll (es : List Effect) (ctx : Context) (htotal : isTotalAll es = true)
    (hctx : ctx.Seated n) :
    Succeeds (Game.Staffed n) (resolveAll rules es ctx) fun _ _ => True := by
  cases es with
  | nil => exact .pure _ fun _ => trivial
  | cons e rest =>
    obtain ⟨hfirst, hrest⟩ := (Bool.and_eq_true _ _).mp htotal
    have hresolved : Succeeds (Game.Staffed n) (e.resolve rules ctx) fun outcome g =>
        outcome = .done → g.Staffed n := by
      refine (succeeds_resolve e ctx hfirst hctx).of_run ?_
      rintro p q outcome hfurnished h hrun rfl
      exact h.resolved hfurnished.sound hctx hrun
    refine .look fun g _ h => .bind (hresolved.of_pre fun _ heq => heq ▸ h) fun outcome => ?_
    cases outcome with
    | done => exact (succeeds_resolveAll rest ctx hrest hctx).of_pre fun _ hstaffed => hstaffed rfl
    | paused d =>
      refine .ite ?_ ?_
      · intro hsome
        exact .bind (.insertFrame _ _) fun _ => .pure _ id
      · intro hnone
        exact .pure _ fun _ => trivial

end

end Effect

/-- Whether a move is made for players at the table: a card is brought in for one of them, or an
effect is executed for one. -/
def Move.AtTable (g : Game) : Move → Prop
  | .spawn _ owner _ => owner.index < g.seats
  | .execute _ _ ctx => ctx.controller.index < g.seats
  | _ => True

theorem Move.AtTable.seated {g : Game} {m : Move} (h : m.AtTable g) : m.Seated g := by
  cases m with
  | spawn => exact h
  | _ => trivial

namespace Game

variable {g : Game}

/-- A game that comes up when every move is made for players at the table. -/
inductive Attended : Game → Prop
  | start {s : TableSettings} {g : Game} (h : start s = .ok g) : Attended g
  | move {g : Game} (m : Move) (h : Attended g) (htable : m.AtTable g) : Attended (m.apply g)

theorem Attended.reachable (h : g.Attended) : g.Reachable := by
  induction h with
  | start hstart => exact .start hstart
  | move m _ htable ih => exact .move m ih htable.seated

/-- A move for players at the table gives control to nobody else. -/
theorem Governed.apply {m : Move} (h : g.Governed g.seats) (hreachable : g.Reachable)
    (htable : m.AtTable g) : (m.apply g).Governed g.seats := by
  cases m with
  | spawn card owner kind =>
    obtain ⟨o, g', hspawn, happly⟩ := spawnCard_cases hreachable.sound.housed card kind htable
    rw [happly]
    exact (h.spawn hspawn).2
  | execute rules e ctx =>
    rw [Move.apply, Rules.execute]
    split
    · exact h
    · exact (governs_settled (rules.governs_resolve e htable)).resultIn h
  | resume rules r =>
    rw [Move.apply]
    obtain ⟨failure, hfailed⟩ | ⟨d, work, below, -, hstack, hreceives, -, hresumed⟩ :=
      rules.resume_eq_settled hreachable r
    · rw [hfailed]
      exact h
    · have hgrants : work.GrantsTo (·.index < g.seats) :=
        h.suspended ⟨some d.id, work⟩ (hstack ▸ List.mem_cons_self)
      rw [hresumed]
      exact (governs_settled (rules.governs_proceed hreceives hgrants)).resultIn h
  | endOfTurn => exact h.endOfTurn
  | schedule turn =>
    exact h.congr (fun _ => rfl) (fun _ _ => id) (fun e he => ⟨e, he, rfl⟩) fun _ => id
  | endOfCombat | beginTurn | sweep => exact h.sublist List.filter_sublist

/-- Nobody comes to control anything who is not at the table. -/
theorem Attended.governed (h : g.Attended) : g.Governed g.seats := by
  induction h with
  | @start s g hstart =>
    have hzoned := (furnished_start hstart).zoned
    have hunheld (o : ObjectId) : (g.facets o).controller? = none := by
      rcases facets_start hstart o with hfacets | hfacets <;> rw [hfacets] <;> rfl
    obtain ⟨hfloating, hstack⟩ : g.floating = [] ∧ g.stack = [] := by
      obtain ⟨-, rfl⟩ := start_eq_ok hstart
      exact ⟨rfl, rfl⟩
    refine ⟨hzoned, fun o s hs => ?_, fun e he => ?_, fun frame hframe => ?_⟩
    · rw [hunheld] at hs
      cases hs
    · rw [hfloating] at he
      cases he
    · rw [hstack] at hframe
      cases hframe
  | @move g m hbefore htable ih =>
    have hreachable := hbefore.reachable
    have htables : Kept fun g' => g'.seats = g.seats :=
      .of_sameTable fun hsame hg => hsame.seats.trans hg
    have hseats : (m.apply g).seats = g.seats :=
      htables.apply hreachable.sound hreachable.poised rfl m htable.seated
    rw [hseats]
    exact ih.apply hreachable htable

/-- All players whom the game names are at the table, once one of them has the turn. -/
theorem Attended.seated (h : g.Attended) (hactive : g.turn.active.index < g.seats) : g.Seated :=
  ⟨hactive, h.governed.held, h.governed.granted⟩

end Game

/-- Whether a reference names nothing that exists. -/
def Reference.Dangling (g : Game) (ctx : Context) (r : Reference) : Prop :=
  ∀ o, View.object? ctx r = some o → g.contains o = false

/-- Selectors that cannot be resolved: there is no such player, or no such object. -/
inductive Selector.Unresolved (g : Game) (ctx : Context) : Selector → Prop
  | opponent (hnone : ctx.opponent = none) (halone : g.seats ≤ 1) : Unresolved g ctx .opponent
  | eachOpponent (halone : g.seats ≤ 1) : Unresolved g ctx .eachOpponent
  | targetPlayer {index : Nat} (hnone : ∀ o, ctx.target? index = some o → g.seat? o = none) :
      Unresolved g ctx (.targetPlayer index)
  | triggeringPlayer (hnone : ctx.triggeringPlayer = none) : Unresolved g ctx .triggeringPlayer
  | controllerOf {r : Reference} (h : r.Dangling g ctx) : Unresolved g ctx (.controllerOf r)
  | ownerOf {r : Reference} (h : r.Dangling g ctx) : Unresolved g ctx (.ownerOf r)
  | specific {s : Seat} (haway : g.seats ≤ s.index) : Unresolved g ctx (.specific s)

/-- Measures of what cannot be resolved, and of damage dealt earlier, of which there is no
record. -/
inductive Measure.Unresolved (g : Game) (ctx : Context) : Measure → Prop
  | lifeTotal {sel : Selector} (h : sel.Unresolved g ctx) : Unresolved g ctx (.lifeTotal sel)
  | count {sel : Selector} (zone : ZoneKind) (f : ObjectFilter) (h : sel.Unresolved g ctx) :
      Unresolved g ctx (.count sel zone f)
  | cardsInHand {sel : Selector} (h : sel.Unresolved g ctx) : Unresolved g ctx (.cardsInHand sel)
  | powerOf {r : Reference} (h : r.Dangling g ctx) : Unresolved g ctx (.powerOf r)
  | toughnessOf {r : Reference} (h : r.Dangling g ctx) : Unresolved g ctx (.toughnessOf r)
  | manaValueOf {r : Reference} (h : r.Dangling g ctx) : Unresolved g ctx (.manaValueOf r)
  | countersOn {r : Reference} (kind : CounterKind) (h : r.Dangling g ctx) :
      Unresolved g ctx (.countersOn r kind)
  | damageDealtThisTurn (r : Reference) : Unresolved g ctx (.damageDealtThisTurn r)

section Unresolved

variable {g : Game} {o : ObjectId}

theorem Game.Housed.owner?_eq_none (h : g.Housed) (hnot : g.contains o = false) :
    g.owner? o = none := by
  rw [Option.eq_none_iff_forall_ne_some]
  intro s hs
  exact Bool.false_ne_true (hnot.symm.trans (h.contains_of_owner? hs))

/-- Nobody controls what does not exist. -/
theorem Game.Housed.controller?_eq_none (h : g.Housed) (hnot : g.contains o = false) :
    (rules.view g).controller? o = none := by
  have howner := h.owner?_eq_none hnot
  have hseat : g.seat? o = none := (Option.or_eq_none_iff.mp howner).1
  have haway : g.onBattlefield o = false := by
    rw [Game.onBattlefield, Zones.isIn, ← Game.zone?, h.zone?_eq_none hnot]
    rfl
  simp [View.controller?, Rules.view, hseat, haway, howner]

theorem Game.facets_eq_empty (hnot : g.contains o = false) : g.facets o = .empty := by
  rw [Game.facets, SortedMap.find?_eq_none hnot, Option.getD_none]

/-- What does not exist has no characteristics. -/
theorem Game.characteristics?_eq_none (hnot : g.contains o = false) :
    (rules.view g).characteristics? o = none := by
  have hbase : Characteristics.base? g o = none := by
    rw [Characteristics.base?, facets_eq_empty hnot]
    rfl
  have hshown : SortedMap.find? (rules.project g) o = none := by
    rw [← Option.isNone_iff_eq_none, ← Option.isSome_eq_false_iff, Rules.isSome_find?_project,
      hbase]
    rfl
  rw [View.characteristics?, Rules.view, Option.bind_some, hshown, Option.none_or, hbase]

theorem Reference.Dangling.bind_eq_none {β : Type} {r : Reference} (h : r.Dangling g ctx)
    {f : ObjectId → Option β} (hf : ∀ o, g.contains o = false → f o = none) :
    (View.object? ctx r).bind f = none := by
  rw [Option.bind_eq_none_iff]
  exact fun o ho => hf o (h o ho)

/-- Selectors that cannot be resolved select nobody. -/
theorem Selector.Unresolved.players_eq_nil {sel : Selector} (h : sel.Unresolved g ctx)
    (hfurnished : g.Furnished) (hactive : g.turn.active.index < g.seats)
    (hctx : ctx.Seated g.seats) : (rules.view g).players ctx sel = [] := by
  have hhoused := hfurnished.sound.housed
  cases h with
  | opponent hnone halone =>
    simp only [View.players, hnone]
    exact if_neg (Nat.not_lt.mpr halone)
  | eachOpponent halone =>
    refine List.filter_eq_nil_iff.mpr fun s hs => ?_
    have hseat : s.index < g.seats := (Seat.mem_turnOrder_iff hhoused.seated hactive).mp hs
    have hcontroller := hctx.controller
    have hsame : s = ctx.controller :=
      congrArg Seat.mk (by omega : s.index = ctx.controller.index)
    simp [hsame]
  | targetPlayer hnone =>
    exact congrArg Option.toList (Option.bind_eq_none_iff.mpr hnone)
  | triggeringPlayer hnone => exact congrArg Option.toList hnone
  | controllerOf h =>
    exact congrArg Option.toList (h.bind_eq_none fun o => hhoused.controller?_eq_none)
  | ownerOf h =>
    exact congrArg Option.toList (h.bind_eq_none fun o => hhoused.owner?_eq_none)
  | specific haway => exact if_neg (Nat.not_lt.mpr haway)

/-- Measures of what cannot be resolved are 0. -/
theorem Measure.Unresolved.evaluate_eq_zero {m : Measure} (h : m.Unresolved g ctx)
    (hfurnished : g.Furnished) (hactive : g.turn.active.index < g.seats)
    (hctx : ctx.Seated g.seats) : (rules.view g).evaluate ctx (.measure m) = 0 := by
  have hnobody {sel : Selector} (h : sel.Unresolved g ctx) : (rules.view g).players ctx sel = [] :=
    h.players_eq_nil hfurnished hactive hctx
  have hnothing {r : Reference} (h : r.Dangling g ctx) :
      (View.object? ctx r).bind (rules.view g).characteristics? = none :=
    h.bind_eq_none fun o => Game.characteristics?_eq_none
  rw [View.evaluate]
  cases h with
  | lifeTotal h => rw [View.measure, hnobody h, List.foldl_nil]
  | count zone f h =>
    rw [View.measure, View.countMatching, hnobody h, List.flatMap_nil]
    rfl
  | cardsInHand h =>
    rw [View.measure, hnobody h, List.flatMap_nil]
    rfl
  | powerOf h | toughnessOf h =>
    rw [View.measure, hnothing h]
    rfl
  | manaValueOf h =>
    rw [View.measure, hnothing h]
    rfl
  | countersOn kind h =>
    rw [View.measure, h.bind_eq_none fun o hnot => ?_]
    · rfl
    · change (g.facets o).counters? = none
      rw [Game.facets_eq_empty hnot]
      rfl
  | damageDealtThisTurn r => rfl

end Unresolved

namespace Game

variable {g : Game}

/-- Effects that find what they act on do not fail, nor does anything put together from them, in
every game in which nobody is asked, if all players whom the game and the context name are at the
table: executing comes to an end or stops at a decision. Selectors that cannot be resolved select
nobody, and measures of what cannot be resolved are 0. -/
theorem Arranged.unfailing (h : g.Arranged) (hidle : g.pending = none) (hseated : g.Seated)
    {ctx : Context} (hctx : ctx.Seated g.seats) (rules : Rules) :
    (∀ e : Effect, e.isTotal = true →
      (∃ g' es, rules.execute g e ctx = .success g' es) ∨
        ∃ g' d es, rules.execute g e ctx = .paused g' d es) ∧
    (∀ sel : Selector, sel.Unresolved g ctx → (rules.view g).players ctx sel = []) ∧
    ∀ m : Measure, m.Unresolved g ctx → (rules.view g).evaluate ctx (.measure m) = 0 := by
  have hfurnished := h.furnished
  refine ⟨fun e htotal => ?_, fun sel hunresolved => ?_, fun m hunresolved => ?_⟩
  · have hsucceeds : Succeeds (Staffed g.seats) (e.resolve rules ctx) fun _ _ => True :=
      Effect.succeeds_resolve e ctx htotal hctx
    obtain ⟨outcome, q, hrun, -, -⟩ :=
      hsucceeds.runs (p := { game := g }) hfurnished (h.staffed hidle hseated)
    cases outcome with
    | done => exact Or.inl ⟨_, _, rules.execute_of_done hidle hrun⟩
    | paused d => exact Or.inr ⟨_, d, _, rules.execute_of_paused hidle hrun⟩
  · exact hunresolved.players_eq_nil hfurnished hseated.active hctx
  · exact hunresolved.evaluate_eq_zero hfurnished hseated.active hctx

/-- The first player has taken control of the second player's only creature. The creature's
controller loses as much life as it has power, it is destroyed, and everybody gets two tokens. A
target that there is not gains nobody any life. -/
theorem unfailing_of_bear : ∃ g₀, start {} = .ok g₀ ∧
    let bear : CardDefinition := .creature ⟨7⟩ "Bear" 2 2
    let g := (Move.execute {} (.continuous (.gainControl (.fixed ⟨2⟩) .permanent)) {}).apply
      ((Move.spawn bear ⟨1⟩ .battlefield).apply g₀)
    let ctx : Context := { targets := [⟨2⟩] }
    let e : Effect := .composite [
      .damage (.loseLife (.controllerOf (.target 0)) (.measure (.powerOf (.target 0)))),
      .conditional (.youControl .creature) (.removal (.destroyAll .creature)) none,
      .damage (.gainLife (.targetPlayer 5) (.measure (.powerOf (.target 7)))),
      .library (.createToken (.creature "Spirit" 1 1) (.fixed 2) .eachPlayer)]
    let after := (Rules.execute {} g e ctx).game
    (after.life ⟨0⟩ = 18 ∧ after.zone? ⟨2⟩ = some (.graveyard ⟨1⟩) ∧
      after.battlefield = [⟨3⟩, ⟨4⟩, ⟨5⟩, ⟨6⟩]) ∧
    ((∃ g' es, Rules.execute {} g e ctx = .success g' es) ∨
      ∃ g' d es, Rules.execute {} g e ctx = .paused g' d es) ∧
    (Rules.view {} g).players ctx (.targetPlayer 5) = [] ∧
    (Rules.view {} g).evaluate ctx (.measure (.powerOf (.target 7))) = 0 := by
  refine ⟨_, rfl, by decide +kernel, ?_⟩
  have hunfailing (g : Game) (h : g.Attended) (hidle : g.pending = none)
      (hactive : g.turn.active.index < g.seats) (ctx : Context) (hctx : ctx.Seated g.seats)
      (htargets : ctx.targets.length = 1) (e : Effect) (htotal : e.isTotal = true) :
      ((∃ g' es, Rules.execute {} g e ctx = .success g' es) ∨
        ∃ g' d es, Rules.execute {} g e ctx = .paused g' d es) ∧
      (Rules.view {} g).players ctx (.targetPlayer 5) = [] ∧
      (Rules.view {} g).evaluate ctx (.measure (.powerOf (.target 7))) = 0 := by
    obtain ⟨hexecutes, hselects, hmeasures⟩ :=
      h.reachable.arranged.unfailing hidle (h.seated hactive) hctx {}
    have hnone {index : Nat} (hindex : 1 ≤ index) : ctx.target? index = none :=
      List.getElem?_eq_none (htargets ▸ hindex)
    refine ⟨hexecutes e htotal, hselects _ (.targetPlayer fun o ho => ?_),
      hmeasures _ (.powerOf fun o ho => ?_)⟩
    · rw [hnone (by decide)] at ho
      cases ho
    · rw [View.object?, hnone (by decide)] at ho
      cases ho
  have hbear := Attended.move (.spawn (.creature ⟨7⟩ "Bear" 2 2) ⟨1⟩ .battlefield)
    (.start (s := {}) rfl) Nat.one_lt_two
  have htaken := Attended.move
    (.execute {} (.continuous (.gainControl (.fixed ⟨2⟩) .permanent)) {}) hbear Nat.two_pos
  exact hunfailing _ htaken (by decide +kernel) (by decide +kernel) { targets := [⟨2⟩] }
    ⟨by decide +kernel, nofun, nofun⟩ rfl _ (by decide +kernel)

end Game

end CardGame
