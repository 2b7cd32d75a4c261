import CardGame.Proofs.Resolve.Families

/-!
Libraries, hands, tokens and costs: what is done to them, and what happens to the answers, acts
directly and then may ask.
-/

namespace CardGame

open Resolve

variable {lasting : Duration → Prop} {P : Game → Prop}

namespace LibraryEffect

theorem direct_discardRandom (s : Seat) (count : Nat) :
    Direct lasting (discardRandom s count) := by
  refine .look_anyhow (fun _ _ => rfl) fun g => ?_
  have hrandom (random : Random) : Direct lasting (Resolve.update ({ · with random })) :=
    direct_update (fun g => .random g random) fun _ _ => rfl
  refine .bind (hrandom _) fun _ => ?_
  exact direct_discard s _

/-- Asks which of the topmost cards, if there are any, go to the bottom. -/
private def offerBottom (ctx : Context) : List ObjectId → Resolve Outcome
  | [] => return .done
  | top =>
    Resolve.pause ctx.controller s!"Scry {top.length}: choose cards to put on the bottom"
      (.cards top 0 top.length true) ctx.source (.scry ctx.controller)

/-- What is offered to put on the bottom lies in the library. -/
theorem asking_askScry (ctx : Context) (count : Nat) :
    Asking lasting (fun _ => True) (askScry ctx count) := by
  have htop : Directly lasting (fun _ => True)
      (Resolve.game >>= fun g => pure (g.topOfLibrary ctx.controller count))
      fun top g => ∀ o ∈ top, g.zone? o = some (.library ctx.controller) := by
    refine .reading (fun _ _ => rfl) ?_
    intro g h hsound _ _ hsame o ho
    rw [hsame.zone?, hsound.housed.zone?_of_mem_top ho]
  have hoffer (top : List ObjectId) :
      Asking lasting (fun g => ∀ o ∈ top, g.zone? o = some (.library ctx.controller))
        (offerBottom ctx top) := by
    cases top with
    | nil => exact .done
    | cons o rest => exact .pause id
  have hask := Asking.bind htop hoffer
  exact hask

theorem asking_askReorder (ctx : Context) (count : Nat) :
    Asking lasting (fun _ => True) (askReorder ctx count) := by
  refine .look (fun _ _ => rfl) fun g => ?_
  apply Asking.ite
  · intro hempty
    exact .done
  · intro hsome
    exact .pause fun _ => trivial

theorem asking_askSearch (ctx : Context) (f : ObjectFilter) (count : Nat)
    (destination : ZoneKind) (tapped : Bool) :
    Asking lasting (fun _ => True) (askSearch ctx f count destination tapped) := by
  refine .look (fun b g => ?_) fun g => ?_
  · have hview : ({ game := g.core b } : View) = View.core b { game := g } := rfl
    rw [hview, View.select_core]
    rfl
  · apply Asking.ite
    · intro hnone
      exact .andDone (direct_shuffleLibrary _)
    · intro hsome
      exact .pause fun _ => trivial

theorem asking_askSeparation (rules : Rules) (ctx : Context) (count : Nat)
    (separator : Selector) :
    Asking lasting (fun _ => True) (askSeparation rules ctx count separator) := by
  refine .look (fun _ _ => rfl) fun g => ?_
  split
  · exact .done
  · refine .bind (directly_players rules ctx separator) fun players => ?_
    split
    · exact .throw rfl
    · refine .bind (.emit rfl) fun _ => ?_
      exact .pause fun _ => trivial

theorem asking_resolve (rules : Rules) (ctx : Context) (e : LibraryEffect) :
    Asking lasting (fun _ => True) (e.resolve rules ctx) := by
  cases e with
  | draw players count =>
    refine .bind (directly_count rules ctx count) fun n => ?_
    refine .bind (directly_players rules ctx players) fun seats => ?_
    exact .andDone (.forM fun s _ => .bind (direct_draw s n) fun _ => .pure _ id)
  | discard players count =>
    refine .bind (directly_count rules ctx count) fun n => ?_
    refine .bind (directly_players rules ctx players) fun seats => ?_
    exact PlayerChoice.asking_start rules ctx _ seats
  | discardAtRandom players count =>
    refine .bind (directly_count rules ctx count) fun n => ?_
    refine .bind (directly_players rules ctx players) fun seats => ?_
    exact .andDone (.forM fun s _ => direct_discardRandom s n)
  | mill players count =>
    refine .bind (directly_count rules ctx count) fun n => ?_
    refine .bind (directly_players rules ctx players) fun seats => ?_
    exact .andDone (.forM fun s _ => .bind (direct_mill s n) fun _ => .pure _ id)
  | shuffle players =>
    refine .bind (directly_players rules ctx players) fun seats => ?_
    exact .andDone (.forM fun s _ => direct_shuffleLibrary s)
  | scry count =>
    refine .bind (directly_count rules ctx count) fun n => ?_
    exact asking_askScry ctx n
  | reorderTop count =>
    refine .bind (directly_count rules ctx count) fun n => ?_
    exact asking_askReorder ctx n
  | search f count destination tapped => exact asking_askSearch ctx f count destination tapped
  | separate count separator =>
    refine .bind (directly_count rules ctx count) fun n => ?_
    exact asking_askSeparation rules ctx n separator
  | createToken token count controllers =>
    refine .bind (directly_count rules ctx count) fun n => ?_
    refine .bind (directly_players rules ctx controllers) fun seats => ?_
    refine .andDone (.forM fun s _ => .forM fun _ _ => ?_)
    exact .bind (direct_createToken token s) fun _ => .pure _ id

theorem asking_finishSearch (player : Seat) (destination : ZoneKind) (tapped : Bool)
    (chosen : List ObjectId) :
    Asking lasting (fun _ => True) (finishSearch player destination tapped chosen) := by
  refine .bind (.forM fun o _ => ?_) fun _ => .andDone (direct_shuffleLibrary player)
  apply Directly.ite
  · intro hbattlefield
    exact direct_putOntoBattlefield o _ tapped
  · intro hother
    exact .bind (direct_moveToOwners o destination) fun _ => .pure _ id

/-- Putting some cards of a library on its bottom leaves all of them in the library. -/
theorem asking_finishScry (player : Seat) (chosen : List ObjectId) :
    Asking lasting (fun g => ∀ o ∈ chosen, g.zone? o = some (.library player))
      (finishScry player chosen) := by
  have hsink (o : ObjectId) (ho : o ∈ chosen) : Directly lasting
      (fun g => ∀ o ∈ chosen, g.zone? o = some (.library player))
      (Resolve.edit (Game.onZones (Zones.move o (.library player) .bottom)))
      fun _ g => ∀ o ∈ chosen, g.zone? o = some (.library player) := by
    refine .edit (Edit.natural_moveZones _ _ _) ?_
    intro g g' origin hsound hin hmove
    unfold Game.onZones at hmove
    split at hmove
    · next moved zones hzones =>
      cases hmove
      refine ⟨.sink (hin o ho) hzones, ?_⟩
      intro o' ho'
      rw [(Game.sameStanding_sink (hin o ho) hzones).zone?]
      exact hin o' ho'
    · cases hmove
  refine .bind (.forM fun o ho => ?_) fun _ => .andDone (.emit rfl)
  exact .bind (hsink o ho) fun _ => .pure _ id

/-- The library with the given cards on top, the first of them topmost. -/
private def withOnTop (g : Game) (player : Seat) (order : List ObjectId) : List ObjectId :=
  (g.zones.objects (.library player)).filter (!order.contains ·) ++ order.reverse

/-- Puts cards back on top and asks nothing. -/
private def putBack (player : Seat) (order : List ObjectId) (g : Game) :
    Resolve (Option Request) :=
  match g.zones.reorder (.library player) (withOnTop g player order) with
  | .error failure => throw failure
  | .ok zones => do
    Resolve.update fun g => { g with zones }
    Resolve.emit (.libraryReordered player)
    return none

theorem asking_finishReorder (player : Seat) (order : List ObjectId) :
    Asking lasting (fun _ => True) (finishReorder player order) := by
  refine ⟨Resolve.game >>= putBack player order, ?_, ?_⟩
  · refine .look (fun _ _ => rfl) fun g _ _ => ?_
    unfold putBack
    split
    · next hreorder => exact .throw ((Zones.plain_reorder _ _ _).fault _ hreorder)
    · next zones hreorder =>
      refine .bind (R := fun _ _ => True) (.update ?_ fun _ _ => rfl) fun _ =>
        .bind (.emit rfl) fun _ => .pure _ ?_
      · rintro h _ ⟨-, hsame⟩
        exact ⟨.reorder (hsame.zones ▸ hreorder), trivial⟩
      · intro _ _ r hr
        cases hr
  · unfold finishReorder
    rw [bind_assoc]
    refine congrArg (Resolve.game >>= ·) (funext fun g => ?_)
    change (match g.zones.reorder (.library player) (withOnTop g player order) with
      | .error failure => throw failure
      | .ok zones => _) = _
    unfold putBack
    cases g.zones.reorder (.library player) (withOnTop g player order) <;> rfl

theorem direct_announceOption (player : Seat) (question : Question) (index : Nat) :
    Direct lasting (announceOption player question index) := by
  unfold announceOption
  split
  · split
    · exact .emit rfl
    · exact .pure _ id
  · exact .pure _ id

theorem asking_takePile (player : Seat) (first second : List ObjectId) (question : Question)
    (index : Nat) :
    Asking lasting (fun _ => True) (takePile player first second question index) := by
  have hmove (o : ObjectId) (kind : ZoneKind) :
      Direct lasting (do let _ ← Resolve.moveToOwners o kind) :=
    .bind (direct_moveToOwners o kind) fun _ => .pure _ id
  have htake (index : Nat) (piles : List ObjectId × List ObjectId) :
      Asking lasting (fun _ => True) (do
        announceOption player question index
        piles.1.forM fun o => do let _ ← Resolve.moveToOwners o .hand
        piles.2.forM fun o => do let _ ← Resolve.moveToOwners o .graveyard
        return .done) := by
    refine .bind (direct_announceOption player question index) fun _ => ?_
    refine .bind (.forM fun o _ => hmove o .hand) fun _ => ?_
    exact .andDone (.forM fun o _ => hmove o .graveyard)
  unfold takePile
  split
  · exact .bind (R := fun _ _ => True) (.pure _ id) (htake 0)
  · exact .bind (R := fun _ _ => True) (.pure _ id) (htake 1)
  · exact .bind (R := fun _ _ => True) (.throw rfl) (htake _)

end LibraryEffect

namespace Cost

theorem isPayable_core (b : Bool) (v : View) (ctx : Context) (payer : Seat) (cost : Cost) :
    cost.isPayable (v.core b) ctx payer = cost.isPayable v ctx payer := by
  cases cost with
  | sacrifice f n =>
    rw [isPayable, isPayable, PlayerChoice.sacrificeOptions, PlayerChoice.sacrificeOptions,
      View.permanents_core]
    rfl
  | _ => rfl

theorem direct_payWith (rules : Rules) (payer : Seat) (chosen : List ObjectId) (cost : Cost) :
    Direct lasting (cost.payWith rules payer chosen) := by
  cases cost with
  | life n => exact direct_changeLife payer (-n)
  | discard n => exact direct_discard payer chosen
  | sacrifice f n =>
    refine .view (fun _ _ => rfl) fun v => ?_
    exact PlayerChoice.direct_sacrificeAll v payer chosen

theorem asking_payFrom (rules : Rules) (ctx : Context) (payer : Seat) (options : List ObjectId)
    (count : Nat) (cost : Cost) :
    Asking lasting (fun _ => True) (payFrom rules ctx payer options count cost) := by
  apply Asking.ite
  · intro hforced
    exact .andDone (direct_payWith rules payer options cost)
  · intro hchoice
    exact .pause fun _ => trivial

theorem asking_pay (rules : Rules) (ctx : Context) (payer : Seat) (cost : Cost) :
    Asking lasting (fun _ => True) (cost.pay rules ctx payer) := by
  cases cost with
  | life n => exact .andDone (direct_changeLife payer (-n))
  | discard n =>
    refine .look (fun _ _ => rfl) fun g => ?_
    exact asking_payFrom rules ctx payer _ n _
  | sacrifice f n =>
    refine .view (fun b v => ?_) fun v => ?_
    · rw [PlayerChoice.sacrificeOptions, PlayerChoice.sacrificeOptions, View.permanents_core]
      rfl
    · exact asking_payFrom rules ctx payer _ n _

end Cost

end CardGame
