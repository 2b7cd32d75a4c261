import CardGame.Proofs.Game.Furnished
import CardGame.Proofs.Play.Reachable

/-!
What stays true of a game whatever happens at the table. `Game.Kept` says so of a property, change
by change: of the elementary changes of resolving, of the work suspended between them, and of what
the hooks of a turn do. A kept property that holds at a new table holds in every game that comes up.
-/

namespace CardGame

open Resolve

/-- A property of sound games that no change at the table makes false. -/
structure Game.Kept (I : Game → Prop) : Prop where
  alter : ∀ {g g' : Game}, g.Sound → I g → Alter (fun _ => True) g g' → I g'
  suspend : ∀ {g : Game} (stack : List Frame) (pending : Option Decision) (nextDecision : Nat),
    I g → I { g with stack, pending, nextDecision }
  thin : ∀ {g : Game} {fs : List FloatingEffect}, fs.Sublist g.floating → I g →
    I { g with floating := fs }
  countDown : ∀ {g : Game}, I g → I { g with floating := g.floating.map Game.countDown }
  schedule : ∀ {g : Game} (turn : Turn), I g → I { g with turn }
  arrive : ∀ {g g' : Game} {card : Card} {owner : Seat} {kind : ZoneKind} {o : ObjectId},
    g.Sound → I g → Game.spawn card owner kind false g = .ok o g' → I g'

namespace Game.Kept

variable {I P : Game → Prop} {rules : Rules} {g : Game}

theorem changes (h : Kept I) {p q : Progress} (hchanges : Progress.Changes (fun _ => True) p q)
    (hsound : p.game.Sound) (hI : I p.game) : I q.game := by
  have hboth : q.game.Sound ∧ I q.game := by
    refine hchanges.keeps (I := fun p => p.game.Sound ∧ I p.game) ?_ ⟨hsound, hI⟩
    rintro p q hchange ⟨hsound, hI⟩
    refine ⟨hchange.sound hsound, ?_⟩
    cases hchange with
    | alter halter => exact h.alter hsound hI halter
    | tell => exact hI
  exact hboth.2

theorem expire (h : Kept I) (keep : FloatingEffect → Bool) (hI : I g) : I (g.expire keep).1 :=
  h.thin List.filter_sublist hI

/-- A plan comes to a game of which the property holds still. -/
theorem conclude (h : Kept I) {plan : Resolve (Option Stop)} {p : Progress} {before : Game}
    (hplan : Directly (fun _ => True) P plan Stopping) (hsound : p.game.Sound) (hp : P p.game)
    (hI : I p.game) (hbefore : I before) : I (Result.conclude before (plan p)).game := by
  cases hrun : plan p with
  | error failure => exact hbefore
  | ok result =>
    obtain ⟨stop, q⟩ := result
    have hq : I q.game := h.changes (hplan.runs hsound hp hrun).1 hsound hI
    cases stop with
    | none => exact h.expire _ hq
    | some stop => exact h.expire _ (h.suspend _ _ _ hq)

theorem execute (h : Kept I) (hsound : g.Sound) (hI : I g) (e : Effect) (ctx : Context) :
    I (rules.execute g e ctx).game := by
  cases hpending : g.pending with
  | some d =>
    unfold Rules.execute
    rw [hpending]
    exact hI
  | none =>
    rw [rules.execute_eq hsound hpending]
    have hplan : Directly (fun _ => True) (fun _ => True) (e.plan rules ctx) Stopping :=
      e.directly_plan ctx fun _ _ => trivial
    exact h.conclude hplan hsound trivial hI hI

theorem resume (h : Kept I) (hsound : g.Sound) (hpoised : g.Poised) (hI : I g) (r : Response) :
    I (rules.resume g r).game := by
  rcases rules.resume_cases hsound hpoised r with
    ⟨failure, hfailed, -⟩ | ⟨d, work, groups, hgroups, hready, hplan⟩
  · rw [hfailed]
    exact hI
  · rw [hplan]
    exact h.conclude (Rules.directly_planAnswer d work r.answer groups hgroups)
      (Rules.sound_answering hsound) (hready.congr fun _ _ => id) (h.suspend [] none _ hI) hI

/-- Damage wears off one permanent at a time. -/
theorem wearOff (h : Kept I) (os : List ObjectId) (hsound : g.Sound) (hI : I g) :
    I (os.foldl (fun g o => g.eraseFacet o .damage) g) := by
  induction os generalizing g with
  | nil => exact hI
  | cons o rest ih =>
    have hheal : Alter (fun _ => True) g (g.eraseFacet o .damage) :=
      .unmark g o [.damage] (by simp [statusFacets])
    exact ih (hheal.sound hsound) (h.alter hsound hI hheal)

theorem endOfTurn (h : Kept I) (hsound : g.Sound) (hI : I g) : I g.endOfTurn.1 := by
  have htidied : Tidied g ({ g with floating := g.floating.map Game.countDown }.expire
      outlastsTurn).1 := tidied_countDown.trans (tidied_expire outlastsTurn)
  have hexpired := h.expire outlastsTurn (h.countDown hI)
  exact h.expire _ (h.wearOff _ (htidied.sound hsound) hexpired)

/-- No move makes a kept property false. -/
theorem apply (h : Kept I) (hsound : g.Sound) (hpoised : g.Poised) (hI : I g) (m : Move)
    (hseated : m.Seated g) : I (m.apply g) := by
  cases m with
  | spawn card owner kind =>
    obtain ⟨o, g', hspawn, happly⟩ := spawnCard_cases hsound.housed card kind hseated
    rw [happly]
    exact h.arrive hsound hI hspawn
  | execute rules e ctx => exact h.execute hsound hI e ctx
  | resume rules r => exact h.resume hsound hpoised hI r
  | endOfTurn => exact h.endOfTurn hsound hI
  | endOfCombat => exact h.expire _ hI
  | beginTurn s => exact h.expire _ hI
  | sweep => exact h.expire _ hI
  | schedule turn => exact h.schedule turn hI

theorem reachable (h : Kept I) (hstart : ∀ {s : TableSettings} {g : Game}, start s = .ok g → I g)
    (hreachable : g.Reachable) : I g := by
  induction hreachable with
  | start hset => exact hstart hset
  | move m hbefore hseated ih => exact h.apply hbefore.sound hbefore.poised ih m hseated

/-- What the table decides is kept, since the game goes on at the table where it started. -/
theorem of_sameTable (h : ∀ {g g' : Game}, SameTable g g' → I g → I g') : Kept I where
  alter hsound hI halter := h (halter.sameTable hsound) hI
  suspend {g} _ _ _ hI := h (g := g) (.of_eq rfl rfl rfl) hI
  thin {g _} _ hI := h (g := g) (.of_eq rfl rfl rfl) hI
  countDown {g} hI := h (g := g) (.of_eq rfl rfl rfl) hI
  schedule {g} _ hI := h (g := g) (.of_eq rfl rfl rfl) hI
  arrive hsound hI hspawn := h (hsound.housed.sameTable_spawn hspawn) hI

end Game.Kept

end CardGame
