import CardGame.Proofs.Game.Core
import CardGame.Proofs.Resolve.Woven

/-!
Resolving never finds fault with an answer. Whatever goes wrong while an effect is resolved, it is
not one of the failures that turn an answer down: those come from checking the answer alone.
-/

namespace CardGame

theorem Zones.blameless_add {zs : Zones} {o : ObjectId} {z : Zone} {p : Position} {f : Failure}
    (h : zs.add o z p = .error f) : f.isAnswerFault = false := by
  unfold Zones.add at h
  split at h <;> cases h <;> rfl

theorem Zones.blameless_reorder {zs : Zones} {z : Zone} {order : List ObjectId} {f : Failure}
    (h : zs.reorder z order = .error f) : f.isAnswerFault = false := by
  unfold Zones.reorder at h
  split at h
  · cases h
    rfl
  · split at h <;> cases h
    rfl

namespace Edit

variable {σ α β : Type}

/-- An edit that never fails as if an answer were at fault. -/
structure Blameless (e : Edit σ α) : Prop where
  blames : ∀ {s s' : σ} {f : Failure}, e s = .error f s' → f.isAnswerFault = false

theorem blameless_pure (a : α) : Blameless (pure a : Edit σ α) := by
  refine ⟨fun {s s' f} h => ?_⟩
  cases h

theorem blameless_throw {f : Failure} (hf : f.isAnswerFault = false) :
    Blameless (throw f : Edit σ α) := by
  refine ⟨fun {s s' f'} h => ?_⟩
  cases h
  exact hf

theorem blameless_get : Blameless (get : Edit σ σ) := by
  refine ⟨fun {s s' f} h => ?_⟩
  cases h

theorem blameless_modify (f : σ → σ) : Blameless (modify f : Edit σ PUnit) := by
  refine ⟨fun {s s' f'} h => ?_⟩
  cases h

theorem Blameless.bind {e : Edit σ α} {k : α → Edit σ β} (he : Blameless e)
    (hk : ∀ a, Blameless (k a)) : Blameless (e >>= k) := by
  refine ⟨fun {s s' f} h => ?_⟩
  change EStateM.bind e k s = .error f s' at h
  unfold EStateM.bind at h
  split at h
  · exact (hk _).blames h
  · next hfirst =>
    cases h
    exact he.blames hfirst

theorem blameless_setFacet (o : ObjectId) (f : Facet) : Blameless (Game.setFacet o f) := by
  refine ⟨fun {g g' failure} h => ?_⟩
  unfold Game.setFacet at h
  split at h <;> cases h
  rfl

theorem blameless_setLife (s : Seat) (life : Int) : Blameless (Game.setLife s life) := by
  refine ⟨fun {g g' failure} h => ?_⟩
  unfold Game.setLife at h
  split at h
  · exact (blameless_setFacet _ _).blames h
  · cases h
    rfl

theorem blameless_moveZones (o : ObjectId) (z : Zone) (p : Position) :
    Blameless (Game.onZones (Zones.move o z p)) := by
  refine ⟨fun {g g' f} h => ?_⟩
  unfold Game.onZones at h
  split at h
  · cases h
  · next hmove =>
    cases h
    unfold Zones.move at hmove
    split at hmove
    · cases hmove
      rfl
    · split at hmove
      · cases hmove
      · next hadd => split at hmove <;> cases hmove <;> exact Zones.blameless_add hadd

theorem blameless_enterBattlefield (o : ObjectId) (controller : Seat) :
    Blameless (Game.enterBattlefield o controller) := by
  refine .bind blameless_get fun g => ?_
  refine .bind (blameless_modify fun _ => _) fun _ => ?_
  exact .bind (blameless_setFacet o _) fun _ => blameless_setFacet o _

theorem blameless_move (o : ObjectId) (target : Zone) (p : Position) (controller : Option Seat) :
    Blameless (Game.move o target p controller) := by
  refine .bind blameless_get fun g => ?_
  cases g.zone? o with
  | none => exact blameless_throw rfl
  | some origin =>
    refine .bind (blameless_moveZones o target p) fun _ => ?_
    split
    · split
      · exact .bind (blameless_modify _) fun _ => blameless_pure _
      · exact blameless_pure _
    · split
      · exact .bind (blameless_enterBattlefield o _) fun _ => blameless_pure _
      · exact blameless_pure _

theorem blameless_spawn (card : Card) (owner : Seat) (kind : ZoneKind) (token : Bool) :
    Blameless (Game.spawn card owner kind token) := by
  refine ⟨fun {g g' f} h => ?_⟩
  rw [Game.spawn_eq] at h
  split at h
  · next hadd =>
    cases h
    exact Zones.blameless_add hadd
  · split at h
    · exact ((blameless_enterBattlefield _ owner).bind fun _ => blameless_pure _).blames h
    · cases h

end Edit

namespace Resolve

variable {α β : Type}

/-- A part of a resolution that never fails as if an answer were at fault. -/
structure Blameless (r : Resolve α) : Prop where
  blames : ∀ {p : Progress} {f : Failure}, r p = .error f → f.isAnswerFault = false

namespace Blameless

protected theorem pure (a : α) : Blameless (pure a) := by
  refine ⟨fun {p f} h => ?_⟩
  cases h

protected theorem throw {f : Failure} (hf : f.isAnswerFault = false) :
    Blameless (throw f : Resolve α) := by
  refine ⟨fun {p f'} h => ?_⟩
  cases h
  exact hf

protected theorem bind {m : Resolve β} {k : β → Resolve α} (hm : Blameless m)
    (hk : ∀ b, Blameless (k b)) : Blameless (m >>= k) := by
  refine ⟨fun {p f} h => ?_⟩
  change (m p).bind (fun r => k r.1 r.2) = .error f at h
  cases hrun : m p with
  | error failure =>
    rw [hrun] at h
    cases h
    exact hm.blames hrun
  | ok result =>
    rw [hrun] at h
    exact (hk _).blames h

theorem ite {c : Prop} [Decidable c] {r r' : Resolve α} (hyes : Blameless r)
    (hno : Blameless r') : Blameless (if c then r else r') := by
  split
  · exact hyes
  · exact hno

protected theorem forM {xs : List β} {body : β → Resolve PUnit}
    (hbody : ∀ x, Blameless (body x)) : Blameless (xs.forM body) := by
  induction xs with
  | nil => exact .pure _
  | cons x rest ih =>
    change Blameless (body x >>= fun _ => rest.forM body)
    exact .bind (hbody x) fun _ => ih

theorem edit {e : Edit Game α} (he : Edit.Blameless e) : Blameless (Resolve.edit e) := by
  refine ⟨fun {p f} h => ?_⟩
  unfold Resolve.edit at h
  split at h
  · cases h
  · next hedit =>
    cases h
    exact he.blames hedit

end Blameless

theorem blameless_game : Blameless game := by
  refine ⟨fun {p f} h => ?_⟩
  cases h

theorem blameless_update (f : Game → Game) : Blameless (update f) := by
  refine ⟨fun {p failure} h => ?_⟩
  cases h

theorem blameless_emit (e : Event) : Blameless (emit e) := by
  refine ⟨fun {p f} h => ?_⟩
  cases h

theorem blameless_pause (player : Seat) (prompt : String) (question : Question)
    (source : Option ObjectId) (work : Suspension) :
    Blameless (pause player prompt question source work) := by
  refine ⟨fun {p f} h => ?_⟩
  cases h

theorem blameless_require (o : ObjectId) : Blameless (require o) :=
  .bind blameless_game fun _ => .ite (.pure _) (.throw rfl)

theorem blameless_requireIn (o : ObjectId) (kind : ZoneKind) : Blameless (requireIn o kind) := by
  refine .bind (blameless_require o) fun _ => ?_
  exact .bind blameless_game fun _ => .ite (.pure _) (.throw rfl)

theorem blameless_tap (o : ObjectId) : Blameless (tap o) := by
  refine .bind (blameless_requireIn o _) fun _ => ?_
  refine .bind blameless_game fun g => .ite ?_ (.pure _)
  exact .bind (.edit (Edit.blameless_setFacet o _)) fun _ => blameless_emit _

theorem blameless_regenerate (o : ObjectId) : Blameless (regenerate o) := by
  have hcalm : Blameless (do
      tap o
      update (·.eraseFacets o [.damage, .attacking, .blocking, .blocked])
      emit (.regenerated o)) := by
    refine .bind (blameless_tap o) fun _ => ?_
    exact .bind (blameless_update _) fun _ => blameless_emit _
  refine .bind blameless_game fun g => ?_
  split
  · exact hcalm
  · refine .bind (blameless_update _) fun _ => ?_
    exact .bind (blameless_emit _) fun _ => hcalm

theorem blameless_removeCounters (o : ObjectId) (kind : CounterKind) (n : Nat) :
    Blameless (removeCounters o kind n) := by
  refine .bind (blameless_requireIn o _) fun _ => ?_
  refine .bind blameless_game fun g => ?_
  split
  · exact .pure _
  · next counters _ =>
    have htell : Blameless (do
        if 0 < (counters.take kind n).1 then
          emit (.countersRemoved o kind (counters.take kind n).1)
        return (counters.take kind n).1) :=
      .ite (.bind (blameless_emit _) fun _ => .pure _) (.pure _)
    apply Blameless.ite
    · exact .bind (blameless_update _) fun _ => htell
    · exact .bind (.edit (Edit.blameless_setFacet o _)) fun _ => htell

theorem blameless_finishReorder (player : Seat) (order : List ObjectId) :
    Blameless (LibraryEffect.finishReorder player order) := by
  refine .bind blameless_game fun g => ?_
  dsimp only
  split
  · next hreorder => exact .throw (Zones.blameless_reorder hreorder)
  · exact .bind (blameless_update _) fun _ => .bind (blameless_emit _) fun _ => .pure _

/-- No action finds fault with an answer. -/
theorem Act.blameless {chance : Prop} {holder : Seat → Prop} {r : Resolve α}
    (h : Act chance holder r) : Blameless r := by
  cases h with
  | announce => exact blameless_emit _
  | moveTo o target p controller =>
    refine .bind (.edit (Edit.blameless_move o target p controller)) fun origin => ?_
    refine .bind (blameless_emit _) fun _ => ?_
    exact .bind blameless_game fun g => .ite (.bind (blameless_emit _) fun _ => .pure _) (.pure _)
  | tap o => exact blameless_tap o
  | untap o =>
    refine .bind (blameless_requireIn o _) fun _ => ?_
    refine .bind blameless_game fun g => ?_
    exact .bind (blameless_update _) fun _ => .ite (blameless_emit _) (.pure _)
  | shuffleLibrary _ s => exact .bind (blameless_update _) fun _ => blameless_emit _
  | reorder player order => exact blameless_finishReorder player order
  | random _ random => exact blameless_update _
  | regenerate o => exact blameless_regenerate o
  | addCounters o kind n =>
    refine .bind (blameless_requireIn o _) fun _ => .ite ?_ (.pure _)
    refine .bind blameless_game fun g => ?_
    exact .bind (.edit (Edit.blameless_setFacet o _)) fun _ => blameless_emit _
  | removeCounters o kind n => exact blameless_removeCounters o kind n
  | mark o n => exact .edit (Edit.blameless_setFacet o _)
  | changeLife s delta =>
    refine .ite (.bind blameless_game fun g => ?_) (.pure _)
    exact .bind (.edit (Edit.blameless_setLife s _)) fun _ => blameless_emit _
  | addFloating change affected duration ctx =>
    refine .bind blameless_game fun g => ?_
    exact .bind (blameless_update _) fun _ => blameless_emit _
  | createToken t s =>
    refine .bind (.edit (Edit.blameless_spawn t.toCard s .battlefield true)) fun o => ?_
    refine .bind (.edit (Edit.blameless_setFacet o _)) fun _ => ?_
    exact .bind (blameless_emit _) fun _ => .pure _
  | pause player prompt question source work => exact blameless_pause _ _ _ _ _
  | restack f => exact blameless_update _

/-- Neither does what is put together from actions. -/
theorem Woven.blameless {chance : Prop} {r : Resolve α} (h : Woven chance (fun _ => True) r) :
    Blameless r := by
  induction h with
  | act h => exact h.blameless
  | game => exact blameless_game
  | pure a => exact .pure a
  | throw h => exact .throw h
  | bind hm hk ihm ihk => exact .bind ihm ihk

theorem blameless_finishScry (player : Seat) (chosen : List ObjectId) :
    Blameless (LibraryEffect.finishScry player chosen) := by
  refine .bind (.forM fun o => ?_) fun _ => .bind (blameless_emit _) fun _ => .pure _
  exact .bind (.edit (Edit.blameless_moveZones o _ _)) fun _ => .pure _

theorem blameless_settled {r : Resolve Outcome} (h : Blameless r) :
    Blameless (settled r) := by
  refine .bind h fun outcome => ?_
  refine .bind blameless_game fun g => ?_
  refine .bind (blameless_update _) fun _ => ?_
  exact .bind (.forM blameless_emit) fun _ => .pure _

end Resolve

end CardGame
