import CardGame.Proofs.Resolve.Deed

/-!
What leaves nothing to chance. Unless it shuffles or picks at random, a part of a resolution leaves
the random numbers to come as they are (`Resolve.Certain`): every action but those two does, so
everything that is woven of the others does, and so does suspended work that goes on, whatever it is
answered.
-/

namespace CardGame

namespace Game

variable {g g' : Game} {o : ObjectId}

theorem random_move {target origin : Zone} {p : Position} {controller : Option Seat}
    (h : move o target p controller g = .ok origin g') : g'.random = g.random := by
  obtain ⟨zones, -, ⟨-, -, rfl⟩ | ⟨-, rfl⟩ | ⟨-, -, henter⟩⟩ := move_eq_ok h
  · rw [leaveBattlefield_frame]
  · rfl
  · rw [enterBattlefield_eq_ok henter]

theorem random_spawn {card : Card} {owner : Seat} {kind : ZoneKind} {token : Bool}
    (h : spawn card owner kind token g = .ok o g') : g'.random = g.random := by
  obtain ⟨-, zones, -, ⟨-, rfl⟩ | ⟨-, henter⟩⟩ := spawn_eq_ok h
  · rfl
  · rw [enterBattlefield_eq_ok henter]
    rfl

theorem random_setFacet {f : Facet} {u : Unit} (h : setFacet o f g = .ok u g') :
    g'.random = g.random := by
  obtain ⟨-, rfl⟩ := setFacet_eq_ok h
  rfl

theorem random_setLife {s : Seat} {life : Int} {u : Unit} (h : setLife s life g = .ok u g') :
    g'.random = g.random := by
  obtain ⟨poison, rfl⟩ := setLife_eq_ok h
  rfl

theorem random_moveZones {target origin : Zone} {p : Position}
    (h : onZones (Zones.move o target p) g = .ok origin g') : g'.random = g.random := by
  unfold onZones at h
  split at h
  · cases h
    rfl
  · cases h

end Game

namespace Resolve

variable {α β : Type}

/-- A part of a resolution that leaves the random numbers to come as they are. -/
structure Certain (r : Resolve α) : Prop where
  keeps : ∀ {p q : Progress} {a : α}, r p = .ok (a, q) → q.game.random = p.game.random

namespace Certain

protected theorem pure (a : α) : Certain (pure a) := by
  refine ⟨fun hr => ?_⟩
  cases hr
  rfl

protected theorem throw (failure : Failure) : Certain (throw failure : Resolve α) := by
  refine ⟨fun hr => ?_⟩
  cases hr

protected theorem bind {m : Resolve β} {k : β → Resolve α} (hm : Certain m)
    (hk : ∀ b, Certain (k b)) : Certain (m >>= k) := by
  refine ⟨fun hr => ?_⟩
  obtain ⟨b, r, hfirst, hrest⟩ := bind_eq_ok hr
  exact ((hk b).keeps hrest).trans (hm.keeps hfirst)

theorem game : Certain Resolve.game := by
  refine ⟨fun hr => ?_⟩
  cases hr
  rfl

theorem emit (e : Event) : Certain (emit e) := by
  refine ⟨fun hr => ?_⟩
  cases hr
  rfl

theorem update {f : Game → Game} (h : ∀ g, (f g).random = g.random) : Certain (update f) := by
  refine ⟨fun {p q a} hr => ?_⟩
  cases hr
  exact h p.game

theorem edit {e : Edit Game α} (h : ∀ {g g' a}, e g = .ok a g' → g'.random = g.random) :
    Certain (edit e) := by
  refine ⟨fun hr => ?_⟩
  obtain ⟨g, hedit, rfl⟩ := edit_eq_ok hr
  exact h hedit

theorem ite {c : Prop} [Decidable c] {r r' : Resolve α} (hyes : Certain r) (hno : Certain r') :
    Certain (if c then r else r') := by
  split
  · exact hyes
  · exact hno

protected theorem forM {xs : List β} {body : β → Resolve PUnit} (hbody : ∀ x, Certain (body x)) :
    Certain (xs.forM body) := by
  induction xs with
  | nil => exact .pure _
  | cons x rest ih =>
    change Certain (body x >>= fun _ => rest.forM body)
    exact .bind (hbody x) fun _ => ih

end Certain

theorem certain_requireIn (o : ObjectId) (kind : ZoneKind) : Certain (requireIn o kind) := by
  have hrequire : Certain (require o) := .bind .game fun _ => .ite (.pure _) (.throw _)
  exact .bind hrequire fun _ => .bind .game fun _ => .ite (.pure _) (.throw _)

theorem certain_tap (o : ObjectId) : Certain (tap o) := by
  refine .bind (certain_requireIn o _) fun _ => .bind .game fun g => .ite ?_ (.pure _)
  exact .bind (.edit Game.random_setFacet) fun _ => .emit _

theorem certain_eraseFacets (o : ObjectId) (kinds : List FacetKind) :
    Certain (update (·.eraseFacets o kinds)) :=
  .update fun g => by rw [Game.eraseFacets_frame]

theorem certain_regenerate (o : ObjectId) : Certain (regenerate o) := by
  have hheal : Certain (do
      tap o
      update (·.eraseFacets o [.damage, .attacking, .blocking, .blocked])
      emit (.regenerated o)) :=
    .bind (certain_tap o) fun _ => .bind (certain_eraseFacets o _) fun _ => .emit _
  refine .bind .game fun g => ?_
  split
  · exact hheal
  · exact .bind (.update fun _ => rfl) fun _ => .bind (.emit _) fun _ => hheal

theorem certain_removeCounters (o : ObjectId) (kind : CounterKind) (n : Nat) :
    Certain (removeCounters o kind n) := by
  refine .bind (certain_requireIn o _) fun _ => .bind .game fun g => ?_
  split
  · exact .pure _
  · next counters _ =>
    have htell : Certain (do
        if 0 < (counters.take kind n).1 then
          emit (.countersRemoved o kind (counters.take kind n).1)
        return (counters.take kind n).1) := .ite (.bind (.emit _) fun _ => .pure _) (.pure _)
    apply Certain.ite
    · exact .bind (.update fun _ => rfl) fun _ => htell
    · exact .bind (.edit Game.random_setFacet) fun _ => htell

theorem certain_finishReorder (player : Seat) (order : List ObjectId) :
    Certain (LibraryEffect.finishReorder player order) := by
  refine .bind .game fun g => ?_
  dsimp only
  split
  · exact .throw _
  · exact .bind (.update fun _ => rfl) fun _ => .bind (.emit _) fun _ => .pure _

/-- An action in which chance plays no part leaves nothing to it. -/
theorem Act.certain {holder : Seat → Prop} {r : Resolve α} (h : Act False holder r) :
    Certain r := by
  cases h with
  | announce => exact .emit _
  | moveTo o target p controller =>
    refine .bind (.edit Game.random_move) fun origin => .bind (.emit _) fun _ => ?_
    exact .bind .game fun g => .ite (.bind (.emit _) fun _ => .pure _) (.pure _)
  | tap o => exact certain_tap o
  | untap o =>
    refine .bind (certain_requireIn o _) fun _ => .bind .game fun g => ?_
    exact .bind (.update fun _ => rfl) fun _ => .ite (.emit _) (.pure _)
  | shuffleLibrary h => exact h.elim
  | random h => exact h.elim
  | reorder player order => exact certain_finishReorder player order
  | regenerate o => exact certain_regenerate o
  | addCounters o kind n =>
    refine .bind (certain_requireIn o _) fun _ => .ite (.bind .game fun g => ?_) (.pure _)
    exact .bind (.edit Game.random_setFacet) fun _ => .emit _
  | removeCounters o kind n => exact certain_removeCounters o kind n
  | mark o n => exact .edit Game.random_setFacet
  | changeLife s delta =>
    refine .ite (.bind .game fun g => ?_) (.pure _)
    exact .bind (.edit Game.random_setLife) fun _ => .emit _
  | addFloating change affected duration ctx =>
    refine ⟨fun hr => ?_⟩
    cases hr
    rfl
  | createToken t s =>
    refine .bind (.edit Game.random_spawn) fun o => .bind (.edit Game.random_setFacet) fun _ => ?_
    exact .bind (.emit _) fun _ => .pure _
  | pause =>
    refine ⟨fun hr => ?_⟩
    cases hr
    rfl
  | restack f => exact .update fun _ => rfl

/-- Neither does what is woven of such actions. -/
theorem Woven.certain {r : Resolve α} (h : Woven False (fun _ => True) r) : Certain r := by
  induction h with
  | act h => exact h.certain
  | game => exact .game
  | pure a => exact .pure a
  | throw => exact .throw _
  | bind hm hk ihm ihk => exact .bind ihm ihk

end Resolve

open Resolve

/-- An effect that neither shuffles nor picks at random leaves nothing to chance. -/
theorem Effect.certain_resolve (rules : Rules) {e : Effect} (h : e.isRandom = false)
    (ctx : Context) : Certain (e.resolve rules ctx) := by
  have hwoven : Woven False (fun _ => True) (e.resolve rules ctx) :=
    e.woven_resolve ctx trivial fun hrandom => by simp [h] at hrandom
  exact hwoven.certain

theorem Effect.certain_resolveAll (rules : Rules) {es : List Effect}
    (h : isRandomAmong es = false) (ctx : Context) : Certain (resolveAll rules es ctx) := by
  have hwoven : Woven False (fun _ => True) (resolveAll rules es ctx) :=
    woven_resolveAll es ctx trivial fun hrandom => by simp [h] at hrandom
  exact hwoven.certain

namespace Suspension

variable (rules : Rules) (d : Decision)

theorem certain_finishScry (player : Seat) (chosen : List ObjectId) :
    Certain (LibraryEffect.finishScry player chosen) := by
  refine .bind (.forM fun o => ?_) fun _ => .bind (.emit _) fun _ => .pure _
  exact .bind (.edit Game.random_moveZones) fun _ => .pure _

theorem certain_takePile (player : Seat) (first second : List ObjectId) (question : Question)
    (index : Nat) : Certain (LibraryEffect.takePile player first second question index) := by
  by_cases hindex : index < 2
  · exact (LibraryEffect.woven_takePile player first second question hindex).certain
  · obtain ⟨i, rfl⟩ : ∃ i, index = i + 2 := ⟨index - 2, by omega⟩
    refine ⟨fun hr => ?_⟩
    cases hr

theorem certain_resolveModes {modes : List Mode} (h : Effect.isRandomMode modes = false)
    (player : Seat) (chosen : List Nat) (ctx : Context) :
    Certain (resolveModes rules player modes chosen ctx) := by
  unfold resolveModes
  dsimp only
  split
  · exact .throw _
  · next es hes =>
    refine .bind (.emit _) fun _ => Effect.certain_resolveAll rules ?_ ctx
    refine Bool.eq_false_iff.mpr fun hrandom => ?_
    rw [isRandomMode_of_chosen hes hrandom] at h
    cases h

/-- Suspended work that neither shuffles nor picks at random leaves nothing to chance, whatever it
is answered. -/
theorem certain_resume {work : Suspension} (h : work.isRandom = false) (answer : Answer) :
    Certain (work.resume rules d answer) := by
  cases work with
  | search => cases h
  | effects => exact .throw _
  | scry player =>
    cases answer with
    | cards chosen => exact certain_finishScry player chosen
    | _ => exact .throw _
  | reorder player =>
    cases answer with
    | order objects => exact certain_finishReorder player objects
    | _ => exact .throw _
  | separatePiles chooser revealed source =>
    cases answer with
    | firstPile pile =>
      have hpause : Woven False (fun _ => True)
          (LibraryEffect.offerPiles chooser revealed source pile) :=
        woven_pause _ _ _ _ _ trivial
      exact hpause.certain
    | _ => exact .throw _
  | choosePile player first second =>
    cases answer with
    | option index => exact certain_takePile player first second _ index
    | _ => exact .throw _
  | may e ctx =>
    cases answer with
    | yesNo yes => exact .ite (e.certain_resolve rules h ctx) (.pure _)
    | _ => exact .throw _
  | modal modes ctx =>
    cases answer with
    | modes chosen => exact certain_resolveModes rules h d.player chosen ctx
    | _ => exact .throw _
  | payOrSuffer payer cost suffer ctx =>
    have hsuffer : Certain (suffer.resolve rules ctx) := suffer.certain_resolve rules h ctx
    have hpay : Certain (cost.pay rules ctx payer) := (cost.woven_pay rules ctx payer).certain
    cases answer with
    | yesNo yes =>
      exact .ite (.bind (.bind .game fun _ => .pure _) fun _ => .ite hpay hsuffer) hsuffer
    | _ => exact .throw _
  | payCost payer cost =>
    cases answer with
    | cards chosen =>
      exact .bind (cost.woven_payWith rules payer chosen).certain fun _ => .pure _
    | _ => exact .throw _
  | chooseColor target duration ctx =>
    cases answer with
    | color color => exact (ContinuousEffect.woven_protect _ _ _ _ _).certain
    | _ => exact .throw _
  | chooseTargets e ctx =>
    cases answer with
    | targets chosen => exact e.certain_resolve rules h _
    | _ => exact .throw _
  | distributeCounters kind ctx =>
    cases answer with
    | distribution shares =>
      exact .bind (PermanentEffect.woven_placeShares kind shares).certain fun _ => .pure _
    | _ => exact .throw _
  | divideDamage ctx =>
    cases answer with
    | distribution shares =>
      exact .bind (DamageEffect.woven_dealShares rules _ _).certain fun _ => .pure _
    | _ => exact .throw _
  | eachPlayerChooses choice current remaining picks ctx =>
    cases hpick : PlayerChoice.pickOf d.question answer with
    | error failure =>
      simp only [resume, hpick]
      exact .throw _
    | ok pick =>
      simp only [resume, hpick]
      exact (choice.woven_goOn rules ctx remaining _).certain

end Suspension

end CardGame
