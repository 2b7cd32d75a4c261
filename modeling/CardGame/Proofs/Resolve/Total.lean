import CardGame.Effect.Kind
import CardGame.Proofs.Resolve.AtRandom
import CardGame.Proofs.Resolve.Governed

/-!
Effects that cannot fail. Most failures are about an object that an effect names and that is not
there. Some effects name none: they find what they act on in the zones of a player or among the
permanents (`Effect.isTotal`). What they find is there, and the players they act for are at the
table if everybody is whom a selector can name (`Context.Seated`).
-/

namespace CardGame

/-- Whether effects of a kind find what they act on, and so never fail. `false` means that an effect
of the kind may fail, not that it has to. -/
def EffectKind.isTotal : EffectKind → Bool
  | .modifyStatsForGroup | .grantKeywordToGroup | .destroyAll | .sacrifice | .gainLife | .loseLife
  | .draw | .discard | .discardAtRandom | .mill | .shuffleLibrary | .scry | .lookAtTopAndReorder
  | .searchLibrary | .createToken | .eachPlayerChooses => true
  | _ => false

namespace Effect

mutual

/-- Whether an effect never fails: it is of such a kind, or put together from such effects only. -/
def isTotal : Effect → Bool
  | .composite es => isTotalAll es
  | .conditional _ yes no => isTotal yes && isTotalOption no
  | .may _ e => isTotal e
  | .modal modes _ _ => isTotalModes modes
  | .payOrSuffer _ _ suffer => isTotal suffer
  | .chooseTargets _ e => isTotal e
  | e => e.kind.isTotal

def isTotalAll : List Effect → Bool
  | [] => true
  | e :: rest => isTotal e && isTotalAll rest

def isTotalOption : Option Effect → Bool
  | none => true
  | some e => isTotal e

def isTotalModes : List (String × Effect) → Bool
  | [] => true
  | (_, e) :: rest => isTotal e && isTotalModes rest

end

end Effect

/-- All players that a context names are at a table of so many. -/
structure Context.Seated (n : Nat) (ctx : Context) : Prop where
  controller : ctx.controller.index < n
  opponent : ∀ s, ctx.opponent = some s → s.index < n
  triggering : ∀ s, ctx.triggeringPlayer = some s → s.index < n

/-- Whoever a selector names is at the table, if all players in the context are, and the one whose
turn it is. -/
theorem Game.Governed.seated_of_players {g : Game} {ctx : Context} {s : Seat} {sel : Selector}
    (h : g.Governed g.seats) (hfurnished : g.Furnished) (hactive : g.turn.active.index < g.seats)
    (hctx : ctx.Seated g.seats) (rules : Rules) (hs : s ∈ (rules.view g).players ctx sel) :
    s.index < g.seats := by
  have hseated : g.seats ≤ 255 := hfurnished.sound.housed.seated
  have hturn : s ∈ g.turnOrder → s.index < g.seats :=
    (Seat.mem_turnOrder_iff hseated hactive).mp
  cases sel with
  | you =>
    rw [List.mem_singleton.mp hs]
    exact hctx.controller
  | opponent =>
    simp only [View.players] at hs
    split at hs
    · next s' hopponent =>
      rw [List.mem_singleton.mp hs]
      exact hctx.opponent s' hopponent
    · split at hs
      · next hothers =>
        rw [List.mem_singleton.mp hs]
        exact Seat.next_lt (Nat.lt_of_succ_lt hothers) hseated _
      · cases hs
  | eachOpponent => exact hturn (List.mem_filter.mp hs).1
  | eachPlayer => exact hturn hs
  | activePlayer =>
    rw [List.mem_singleton.mp hs]
    exact hactive
  | targetPlayer index =>
    obtain ⟨o, -, hseat⟩ := Option.bind_eq_some_iff.mp (Option.mem_toList.mp hs)
    exact hfurnished.sound.housed.seated_of_seat? hseat
  | triggeringPlayer => exact hctx.triggering s (Option.mem_toList.mp hs)
  | controllerOf r =>
    obtain ⟨o, -, hcontroller⟩ := Option.bind_eq_some_iff.mp (Option.mem_toList.mp hs)
    exact h.seated_of_controller? hfurnished rules hcontroller
  | ownerOf r =>
    obtain ⟨o, -, howner⟩ := Option.bind_eq_some_iff.mp (Option.mem_toList.mp hs)
    exact hfurnished.seated_of_owner? howner
  | specific s' =>
    simp only [View.players] at hs
    split at hs
    · next hseat =>
      rw [List.mem_singleton.mp hs]
      exact hseat
    · cases hs

namespace Resolve

variable {α : Type} {P : Game → Prop} {o : ObjectId} {s : Seat} {n : Nat}

theorem succeeds_amount (rules : Rules) (ctx : Context) (a : Amount) :
    Succeeds P (amount rules ctx a) fun _ => P :=
  .view fun _ _ hp => .pure _ fun h => h ▸ hp

theorem succeeds_count (rules : Rules) (ctx : Context) (a : Amount) :
    Succeeds P (count rules ctx a) fun _ => P :=
  .view fun _ _ hp => .pure _ fun h => h ▸ hp

theorem succeeds_players (rules : Rules) (ctx : Context) (sel : Selector) :
    Succeeds P (players rules ctx sel) fun found g =>
      found = (rules.view g).players ctx sel ∧ P g := by
  refine .view fun g _ hp => .pure _ ?_
  rintro h rfl
  exact ⟨rfl, hp⟩

/-- A player draws what there is to draw. -/
theorem succeeds_draw (s : Seat) (count : Nat) :
    Succeeds P (draw s count) fun _ _ => True := by
  refine .look fun g hfurnished _ => ?_
  have hhoused := hfurnished.sound.housed
  have hbody (o : ObjectId) (P : Game → Prop) (hsteady : Steady [o] P) :
      Succeeds (fun g => g.LiesAt o (.within (.library s)) ∧ P g) (do
        let _ ← moveTo o (.hand s) .top none
        emit (.cardDrawn s o)) fun _ => P := by
    refine .bind ((succeeds_moveTo s .hand .top none hsteady).mono ?_ And.right) fun _ => .emit _
    rintro h - ⟨hlies, hp⟩
    exact ⟨⟨_, Game.liesAt_within_iff.mp hlies⟩, hp⟩
  have hloop := Succeeds.forM_once (.within (.library s)) (hhoused.nodup_topOfLibrary s count)
    (fun o _ => hbody o) (steady_true _)
  refine .bind (hloop.of_pre ?_) fun _ => .pure _ id
  rintro h - rfl
  exact ⟨fun o ho => Game.liesAt_within_iff.mpr (hhoused.zone?_of_mem_top ho), trivial⟩

theorem succeeds_mill (s : Seat) (count : Nat) :
    Succeeds P (mill s count) fun _ _ => True := by
  refine .look fun g hfurnished _ => ?_
  have hhoused := hfurnished.sound.housed
  have hloop := LibraryEffect.succeeds_moveAllToOwners .graveyard (z := .library s)
    (hhoused.nodup_topOfLibrary s count) (steady_true _)
  refine .bind (hloop.of_pre ?_) fun _ => .pure _ id
  rintro h - rfl
  exact ⟨fun o ho => Game.liesAt_within_iff.mpr (hhoused.zone?_of_mem_top ho), trivial⟩

/-- A shield on a permanent is used up. -/
theorem succeeds_regenerate (hsteady : Steady [] P) :
    Succeeds (fun g => g.LiesAt o (.anyOf .battlefield) ∧ P g) (regenerate o) fun _ => P := by
  have hcalm : Succeeds (fun g => g.LiesAt o (.anyOf .battlefield) ∧ P g) (do
      tap o
      update (·.eraseFacets o [.damage, .attacking, .blocking, .blocked])
      emit (.regenerated o)) fun _ => P := by
    refine .bind (succeeds_tap hsteady.unmarked) fun _ => .bind (.update ?_) fun _ => .emit _
    intro g _ hp
    exact ⟨.unmark g o _ (by simp [Game.statusFacets]), hsteady g _ rfl (fun _ _ => rfl) hp⟩
  have hthere : Steady [] fun g => g.LiesAt o (.anyOf .battlefield) ∧ P g :=
    (steady_liesAt _ List.not_mem_nil).and hsteady
  refine .look fun g _ hp => ?_
  split
  · refine hcalm.of_pre ?_
    rintro h - rfl
    exact hp
  · next e _ =>
    refine .bind (.update ?_) fun _ => .bind (.emit _) fun _ => hcalm
    rintro h - rfl
    exact ⟨.unfloat h e.id, hthere h _ rfl (fun _ _ => rfl) hp⟩

/-- A permanent can be destroyed, whatever its characteristics are. -/
theorem succeeds_destroy (c : Characteristics) (hsteady : Steady [o] P) :
    Succeeds (fun g => g.LiesAt o (.anyOf .battlefield) ∧ P g) (destroy o c) fun _ => P := by
  refine .bind succeeds_requirePermanent fun _ => .ite ?_ fun _ => .ite ?_ ?_
  · intro hindestructible
    exact .pure _ And.right
  · intro hshielded
    have hunmarked := hsteady.subset (List.nil_subset _)
    exact .bind (succeeds_regenerate hunmarked) fun _ => .pure _ id
  · intro hbare
    refine .bind (.emit _) fun _ => .bind ((succeeds_die c hsteady).of_pre ?_) fun _ => .pure _ id
    rintro g - ⟨⟨z, hzone, -⟩, hp⟩
    exact ⟨⟨z, hzone⟩, hp⟩

/-- A token can be created for a player at the table. -/
theorem succeeds_createToken (t : TokenTemplate) (hs : s.index < n) :
    Succeeds (·.seats = n) (createToken t s) fun _ => (·.seats = n) := by
  have hspawn : Succeeds (·.seats = n) (edit (Game.spawn t.toCard s .battlefield true))
      fun o g => g.LiesAt o (.anyOf .battlefield) ∧ g.seats = n := by
    refine .edit ?_
    rintro g hfurnished rfl
    have hhoused := hfurnished.sound.housed
    obtain ⟨o, g', hspawned⟩ := hhoused.exists_spawn t.toCard .battlefield true hs
    have hthere := Game.liesAt_battlefield_iff.mpr (Game.onBattlefield_of_spawn hspawned)
    exact ⟨o, g', hspawned, .create hspawned, hthere, (hhoused.sameTable_spawn hspawned).seats⟩
  refine .bind hspawn fun o => ?_
  refine .bind ((succeeds_setFacet fun _ _ => id).of_pre ?_) fun _ => .bind (.emit _) fun _ =>
    .pure _ id
  rintro g - ⟨hthere, hseats⟩
  exact ⟨hthere, .controller s, hseats⟩

end Resolve

open Resolve

variable {P : Game → Prop} {s : Seat} {n : Nat} {rules : Rules} {ctx : Context}

/-- A group gets what it is to get. -/
theorem ContinuousEffect.succeeds_onGroup (f : ObjectFilter) {change : Modification}
    (duration : Duration) (hshield : change ≠ .regenerationShield) :
    Succeeds P (onGroup rules ctx f change duration) fun _ _ => True := by
  refine .view fun g hfurnished _ => ?_
  apply Succeeds.ite
  · intro hsome
    have haffecting := (Bool.not_eq_true' _).mp hsome
    refine .bind ((succeeds_addFloating duration ctx haffecting hshield).of_pre ?_) fun _ =>
      .pure _ id
    rintro h - rfl o ho
    rw [SortedSet.contains_ofList, decide_eq_true_eq] at ho
    exact hfurnished.sound.housed.onBattlefield_of_mem (List.mem_of_mem_filter ho)
  · intro hnone
    exact .pure _ fun _ => trivial

/-- Mass destruction finds the permanents that the projection shows. -/
theorem RemovalEffect.succeeds_destroyMatching (f : ObjectFilter) :
    Succeeds (fun g => ∀ o, g.onBattlefield o = true →
        ∃ c, SortedMap.find? (rules.project g) o = some c)
      (destroyMatching rules ctx f) fun _ _ => True := by
  refine .view fun g hfurnished hshown => ?_
  have hhoused := hfurnished.sound.housed
  have hnodup : ((rules.view g).permanents f ctx.forFilter).Nodup :=
    (hhoused.nodup_allOf .battlefield).filter _
  refine (Succeeds.forM_once (.anyOf .battlefield) hnodup ?_ (steady_true _)).of_pre ?_
  · intro o ho P hsteady
    obtain ⟨c, hc⟩ := hshown o (hhoused.onBattlefield_of_mem (List.mem_of_mem_filter ho))
    have hread : characteristics (rules.view g) o = pure c := by
      unfold characteristics
      rw [Rules.view, Option.bind_some, hc]
    rw [hread, pure_bind]
    exact .bind (succeeds_destroy c hsteady) fun _ => .pure _ id
  · rintro h - rfl
    refine ⟨fun o ho => ?_, trivial⟩
    exact Game.liesAt_battlefield_iff.mpr (hhoused.onBattlefield_of_mem (List.mem_of_mem_filter ho))

/-- A round of choices starts with those players at the table who are to choose. -/
theorem PlayerChoice.succeeds_start (choice : PlayerChoice) (players : List Seat) :
    Succeeds P (choice.start rules ctx players) fun _ _ => True := by
  refine .look fun g hfurnished _ => ?_
  have honce := Seat.nodup_turnOrder hfurnished.sound.housed.seated g.turn.active
  exact (succeeds_goOn rules ctx choice (honce.filter _)).of_pre fun _ _ => picked_nil

namespace LibraryEffect

/-- Cards of the hand are discarded, which are there. -/
theorem succeeds_discardRandom (s : Seat) (count : Nat) :
    Succeeds P (discardRandom s count) fun _ _ => True :=
  .assuming fun _ _ _ => (succeeds_discardRandom_zones s count).mono (fun _ => congrArg Game.zones)
    fun _ => trivial

theorem succeeds_askScry (count : Nat) : Succeeds P (askScry ctx count) fun _ _ => True := by
  refine .look fun g _ _ => ?_
  split
  · exact .pure _ fun _ => trivial
  · exact .pause _ _ _ _ _

theorem succeeds_askReorder (count : Nat) :
    Succeeds P (askReorder ctx count) fun _ _ => True :=
  .look fun _ _ _ => .ite (fun _ => .pure _ fun _ => trivial) fun _ => .pause _ _ _ _ _

theorem succeeds_askSearch (f : ObjectFilter) (count : Nat) (destination : ZoneKind)
    (tapped : Bool) : Succeeds P (askSearch ctx f count destination tapped) fun _ _ => True :=
  .look fun _ _ _ => .ite (fun _ => .bind (succeeds_shuffleLibrary _) fun _ => .pure _ id)
    fun _ => .pause _ _ _ _ _

end LibraryEffect

end CardGame
