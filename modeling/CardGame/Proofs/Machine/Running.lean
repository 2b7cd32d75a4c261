import CardGame.Proofs.Machine.Play
import CardGame.Proofs.Play.Status

/-!
Playing on a machine. A game runs on a machine if it comes up there move by move: everything that
the players bring can be held, and no counter has run out on the way (`Game.Running`). Nothing that
can be asked of such a game stops the machine, unless one of its counters runs out in the course of
it (`Game.Trapless`).
-/

namespace CardGame

namespace Move

/-- Whether everything in a move can be held. -/
def Typed : Move → Prop
  | .spawn card _ _ => card.toCard.toFace.Typed
  | .execute _ e ctx => e.Typed ∧ e.size ≤ maxLong ∧ ctx.Typed
  | .schedule turn => turn.active.Typed
  | _ => True

end Move

namespace Checked

/-- The game after a move. The hooks of a turn do nothing that could trap: durations run down no
further than to 0. -/
def play (g : Game) : Move → Checked Game
  | .spawn card owner kind => do
    match ← (Machine.spawn card.toCard owner kind false { game := g }).run with
    | .ok (_, p) => return p.game
    | .error _ => return (Move.spawn card owner kind).apply g
  | .execute rules e ctx => do return (← execute rules g e ctx).game
  | .resume rules r => do return (← resume rules g r).game
  | hook => return hook.apply g

end Checked

namespace Game

variable {g g' : Game}

theorem Storable.of_holds (h : g.Storable) (hholds : Holds g g') : g'.Storable where
  typed := hholds.typed
  weight := Nat.le_trans hholds.weight_le h.weight

theorem Typed.expire (h : g.Typed) (keep : FloatingEffect → Bool) : Holds g (g.expire keep).1 :=
  h.withFloating _ fun e he => h.floating e (List.mem_filter.mp he).1

theorem Typed.countDown (h : g.Typed) :
    Holds g { g with floating := g.floating.map Game.countDown } := by
  refine h.withFloating _ fun e he => ?_
  obtain ⟨e', he', rfl⟩ := List.mem_map.mp he
  have hsame : (Game.countDown e').modification = e'.modification := by
    unfold Game.countDown
    split <;> rfl
  rw [hsame]
  exact h.floating e' he'

theorem Typed.wearOff (h : g.Typed) (os : List ObjectId) :
    Holds g (os.foldl (fun g o => g.eraseFacet o .damage) g) := by
  induction os generalizing g with
  | nil => exact ⟨h, rfl⟩
  | cons o rest ih =>
    have hfirst := h.eraseFacet o .damage
    exact hfirst.trans (ih hfirst.typed)

theorem Typed.endOfTurn (h : g.Typed) : Holds g g.endOfTurn.1 := by
  have hcounted := h.countDown
  have hexpired := hcounted.trans (hcounted.typed.expire outlastsTurn)
  have hhealed (os : List ObjectId) := hexpired.trans (hexpired.typed.wearOff os)
  exact (hhealed _).trans ((hhealed _).typed.expire _)

theorem checked_spawn (hsound : g.Sound) (hg : g.Storable) {card : CardDefinition} {owner : Seat}
    (kind : ZoneKind) (hseated : owner.index < g.seats) (hcard : card.toCard.toFace.Typed) :
    Checked.play g (.spawn card owner kind) = .error .exhausted ∨
      Checked.play g (.spawn card owner kind) = .ok ((Move.spawn card owner kind).apply g) ∧
        ((Move.spawn card owner kind).apply g).Storable := by
  have howner : owner.Typed :=
    Nat.le_of_lt (Nat.lt_of_lt_of_le hseated hsound.housed.seated)
  obtain ⟨o, g', hspawn, happly⟩ := spawnCard_cases hsound.housed card kind hseated
  have hrun : Resolve.edit (Game.spawn card.toCard owner kind false) { game := g } =
      .ok (o, { game := g' }) := by
    unfold Resolve.edit
    rw [show Game.spawn card.toCard owner kind false g = .ok o g' from hspawn]
  rw [happly]
  rcases (Machine.copies_spawn hcard howner kind false).runs { game := g } hg.typed trivial with
    hout | ⟨heq, hkeeps⟩
  · simp only [Checked.play, hout]
    exact Or.inl rfl
  · obtain ⟨htyped, hweight, -⟩ := hkeeps o { game := g' } hrun
    simp only [Checked.play, heq, hrun]
    exact Or.inr ⟨rfl, htyped, Nat.le_trans hweight hg.weight⟩

/-- Whatever move is made, the machine comes to the game after it, unless a counter runs out. -/
theorem checked_play (hsound : g.Sound) (hpoised : g.Poised) (hg : g.Storable) {m : Move}
    (hseated : m.Seated g) (htyped : m.Typed) :
    Checked.play g m = .error .exhausted ∨
      Checked.play g m = .ok (m.apply g) ∧ (m.apply g).Storable := by
  cases m with
  | spawn card owner kind => exact checked_spawn hsound hg kind hseated htyped
  | execute rules e ctx =>
    obtain ⟨he, hsize, hctx⟩ := htyped
    rcases rules.checked_execute hsound hpoised hg he hsize hctx with hout | ⟨heq, hafter⟩
    · simp only [Checked.play, hout]
      exact Or.inl rfl
    · simp only [Checked.play, heq]
      exact Or.inr ⟨rfl, hafter⟩
  | resume rules r =>
    rcases rules.checked_resume hsound hpoised hg r with hout | ⟨heq, hafter⟩
    · simp only [Checked.play, hout]
      exact Or.inl rfl
    · simp only [Checked.play, heq]
      exact Or.inr ⟨rfl, hafter⟩
  | endOfTurn => exact Or.inr ⟨rfl, hg.of_holds hg.typed.endOfTurn⟩
  | endOfCombat => exact Or.inr ⟨rfl, hg.of_holds (hg.typed.expire _)⟩
  | beginTurn s => exact Or.inr ⟨rfl, hg.of_holds (hg.typed.expire _)⟩
  | sweep => exact Or.inr ⟨rfl, hg.of_holds (hg.typed.expire _)⟩
  | schedule turn => exact Or.inr ⟨rfl, { hg.typed with active := htyped }, hg.weight⟩

/-- A game that comes up on a machine when moves are made and permanents marked for combat or as
attached: no counter has run out on the way. -/
inductive Running : Game → Prop
  | start {s : TableSettings} {g : Game} (h : start s = .ok g) : Running g
  | move {g g' : Game} (m : Move) (h : Running g) (hseated : m.Seated g) (htyped : m.Typed)
      (hrun : Checked.play g m = .ok g') : Running g'
  | mark {g g' : Game} {o : ObjectId} {f : Facet} {u : Unit} (h : Running g)
      (hkind : f.kind ∈ combatFacets) (hthere : g.onBattlefield o = true)
      (hset : setFacet o f g = .ok u g') : Running g'
  | clear {g : Game} (o : ObjectId) {kind : FacetKind} (h : Running g)
      (hkind : kind ∈ combatFacets) : Running (g.eraseFacet o kind)

theorem storable_start {s : TableSettings} (h : Game.start s = .ok g) : g.Storable := by
  have hfacets (o : ObjectId) : (g.facets o).Typed := by
    rcases facets_start h o with hnone | hplayer
    · rw [hnone]
      exact Facets.typed_empty
    · rw [hplayer]
      exact Facets.typed_empty.insert trivial
  obtain ⟨hplayers, rfl⟩ := start_eq_ok h
  constructor
  · exact {
      facets := hfacets
      floating := by simp
      active := Nat.zero_le _
      work := by simp
      question := by simp
      nextObject := by
        change ObjectId.firstObject s.players ≤ maxWord
        rw [ObjectId.firstObject_eq hplayers]
        exact Nat.le_trans hplayers (by decide)
      nextTimestamp := (by decide : 1 ≤ maxLong)
      nextFloating := (by decide : 1 ≤ maxWord)
      nextDecision := (by decide : 1 ≤ maxWord) }
  · exact Nat.zero_le _

/-- What runs on a machine is a game with combat that can be held. -/
theorem Running.scheduled (h : g.Running) : g.Scheduled ∧ g.Storable := by
  induction h with
  | start h => exact ⟨.start h, storable_start h⟩
  | @move g g' m _ hseated htyped hrun ih =>
    obtain ⟨hscheduled, hg⟩ := ih
    obtain ⟨hsound, hpoised, -⟩ := hscheduled.fits
    -- The machine came back from the move, so no counter ran out in it.
    rcases checked_play hsound hpoised hg hseated htyped with hout | ⟨heq, hafter⟩
    · rw [hout] at hrun
      cases hrun
    · rw [heq] at hrun
      cases hrun
      exact ⟨.move m hscheduled hseated, hafter⟩
  | @mark g g' o f u _ hkind hthere hset ih =>
    obtain ⟨hscheduled, hg⟩ := ih
    refine ⟨.mark hscheduled hkind hthere hset, hg.of_holds (hg.typed.setFacet ?_ hset)⟩
    cases f <;> simp [combatFacets, Facet.kind] at hkind <;> trivial
  | clear o _ hkind ih =>
    exact ⟨.clear o ih.1 hkind, ih.2.of_holds (ih.2.typed.eraseFacet o _)⟩

theorem kept_seated : Kept fun g => g.seats ≠ 0 :=
  .of_sameTable fun htable hseats => htable.seats ▸ hseats

/-- There is always somebody at the table. -/
theorem Scheduled.seats_ne_zero (h : g.Scheduled) : g.seats ≠ 0 := by
  induction h with
  | start h =>
    have hplayers := TableSettings.players_ne_zero (check_of_start h)
    obtain ⟨-, rfl⟩ := start_eq_ok h
    exact hplayers
  | move m h hseated ih =>
    obtain ⟨hsound, hpoised, -⟩ := h.fits
    exact kept_seated.apply hsound hpoised ih m hseated
  | @mark g g' o f u _ _ _ hset ih =>
    obtain ⟨-, rfl⟩ := setFacet_eq_ok hset
    exact ih
  | clear o _ _ ih => exact ih

end Game

/-- What a view answers is worked out without a trap, and stays in the range of amounts. -/
structure View.Trapless (v : View) (ctx : Context) : Prop where
  players : ∀ sel, Checked.players v ctx sel = .ok (v.players ctx sel)
  evaluate : ∀ a, Checked.evaluate v ctx a = .ok (v.evaluate ctx a)
  amount : ∀ a : Amount, a.Typed → IsAmount (v.evaluate ctx a)
  holds : ∀ c, Checked.holds v ctx c = .ok (v.holds ctx c)

theorem View.Typed.answers {v : View} {ctx : Context} (h : v.Typed) (hctx : ctx.Typed) :
    v.Trapless ctx where
  players sel := v.checked_players h hctx sel
  evaluate a := v.checked_evaluate h hctx a
  amount _ ha := v.isAmount_evaluate h hctx ha
  holds c := v.checked_holds h hctx c

namespace Game

variable {g : Game}

/-- Nothing that can be asked of a game stops a machine. Reading never traps: who sits where at a
table of 1 to 255 players, the projection under any rules and with any counters, what the game shows
with or without it, and legal targets. Executing, resuming and the other moves trap only where a
counter runs out, and come to what they come to otherwise. All that the game holds is in range. -/
structure Trapless (g : Game) : Prop where
  storable : g.Storable
  seats : g.seats ≠ 0 ∧ g.seats ≤ maxByte
  everySeat : ∀ seats ≤ maxByte, Checked.everySeat seats = .ok (Seat.all seats)
  seat : ∀ (o : ObjectId), ∀ seats ≤ maxByte, Checked.seat? o seats = .ok (o.seat? seats)
  next : ∀ (s : Seat) (seats : Nat), s.Typed → seats ≠ 0 → seats ≤ maxByte →
    Checked.next s seats = .ok (s.next seats)
  turnOrder : ∀ (s : Seat) (seats : Nat), s.Typed → seats ≤ maxByte →
    Checked.turnOrder s seats = .ok (Seat.turnOrder s seats)
  counters : ∀ c : Counters, Checked.counterBonus c = .ok (Projection.counterBonus c)
  project : ∀ rules : Rules, Checked.project rules g = .ok (rules.project g)
  view : ∀ (projection : Option Projection) (unrecorded : UnrecordedDamage) (ctx : Context),
    (∀ p ∈ projection, ∃ rules : Rules, p = rules.project g) → IsAmount unrecorded.amount →
      ctx.Typed → View.Trapless { game := g, projection, unrecorded } ctx
  legalTargets : ∀ (rules : Rules) (ctx : Context) (r : Requirement),
    Checked.legalTargets rules g ctx r = .ok (rules.legalTargets g ctx r)
  execute : ∀ (rules : Rules) (e : Effect) (ctx : Context), e.Typed → e.size ≤ maxLong →
    ctx.Typed → Checked.execute rules g e ctx = .error .exhausted ∨
      Checked.execute rules g e ctx = .ok (rules.execute g e ctx)
  executeAs : ∀ (rules : Rules) (family : Family) (e : Effect) (ctx : Context), e.Typed →
    e.size ≤ maxLong → ctx.Typed → Checked.executeAs rules family g e ctx = .error .exhausted ∨
      Checked.executeAs rules family g e ctx = .ok (rules.executeAs family g e ctx)
  resume : ∀ (rules : Rules) (r : Response),
    Checked.resume rules g r = .error .exhausted ∨
      Checked.resume rules g r = .ok (rules.resume g r)
  play : ∀ m : Move, m.Seated g → m.Typed →
    Checked.play g m = .error .exhausted ∨ Checked.play g m = .ok (m.apply g)

/-- Nothing traps in a game that runs on a machine. -/
theorem Running.trapless (h : g.Running) : g.Trapless := by
  obtain ⟨hscheduled, hg⟩ := h.scheduled
  obtain ⟨hsound, hpoised, -⟩ := hscheduled.fits
  constructor
  · exact hg
  · exact ⟨hscheduled.seats_ne_zero, hsound.housed.seated⟩
  · exact fun seats hseats => Seat.checked_everySeat hseats
  · exact fun o seats hseats => o.checked_seat? hseats
  · exact fun s seats hs hsome hseats => Seat.checked_next hs hsome hseats
  · exact fun s seats hs hseats => Seat.checked_turnOrder hs hseats
  · exact fun c => Projection.checked_counterBonus c
  · exact fun rules => (rules.checked_project hsound hg.typed).1
  · intro projection unrecorded ctx hprojection hamount hctx
    refine View.Typed.answers ⟨hsound, hg.typed, ?_, hamount⟩ hctx
    rintro p hp o c hc
    obtain ⟨rules, rfl⟩ := hprojection p hp
    exact (rules.typed_view hsound hg.typed).projection _ rfl o c hc
  · exact fun rules ctx r => rules.checked_legalTargets hsound hg.typed ctx r
  · intro rules e ctx he hsize hctx
    exact (rules.checked_execute hsound hpoised hg he hsize hctx).imp_right And.left
  · intro rules family e ctx he hsize hctx
    exact rules.checked_executeAs family hsound hg.typed he hsize hctx
  · intro rules r
    exact (rules.checked_resume hsound hpoised hg r).imp_right And.left
  · intro m hseated htyped
    exact (checked_play hsound hpoised hg hseated htyped).imp_right And.left

/-- Nothing traps while a player thinks about drawing a card, with damage dealt to a creature and a
gain of life still to come. -/
theorem trapless_of_may : ∃ g₀ g₁ g, start {} = .ok g₀ ∧
    g₁ = (Move.spawn (.creature ⟨7⟩ "Bear" 2 2) ⟨1⟩ .battlefield).apply g₀ ∧
    g = (Move.execute {} (.composite [.damage (.deal (.target 0) (.fixed 1)),
        .may "Draw?" (.draw 1), .gainLife 3]) { targets := [⟨2⟩] }).apply g₁ ∧
    g.stack.length = 2 ∧ g.Trapless := by
  have hbear : Face.Typed (CardDefinition.creature ⟨7⟩ "Bear" 2 2).toCard.toFace :=
    ⟨by decide, by decide, by rintro a ⟨⟩⟩
  have heffect : Effect.Typed (.composite [.damage (.deal (.target 0) (.fixed 1)),
      .may "Draw?" (.draw 1), .gainLife 3]) := by
    have hamount : IsAmount 1 ∧ IsAmount 1 ∧ IsAmount 3 := by decide
    exact ⟨hamount.1, hamount.2.1, hamount.2.2, trivial⟩
  have hctx : Context.Typed { targets := [⟨2⟩] } := by
    constructor <;> decide
  have hplay {g : Game} (m : Move) (h : g.Running) (hseated : m.Seated g) (htyped : m.Typed)
      (hrun : Checked.play g m = .ok (m.apply g)) : (m.apply g).Running :=
    .move m h hseated htyped hrun
  have hspawned := hplay (.spawn (.creature ⟨7⟩ "Bear" 2 2) ⟨1⟩ .battlefield)
    (.start (s := {}) rfl) Nat.one_lt_two hbear (by decide +kernel)
  have hpaused := hplay (.execute {} _ _) hspawned trivial ⟨heffect, by decide +kernel, hctx⟩
    (by decide +kernel)
  exact ⟨_, _, _, rfl, rfl, rfl, by decide +kernel, hpaused.trapless⟩

end Game

end CardGame
