import CardGame.Proofs.Machine.Choosing
import CardGame.Resolve.Library

/-!
Effects on libraries and hands on a machine. What is drawn at random is a place in the hand.
-/

namespace CardGame

namespace Checked

/-- The cards of a hand that are discarded at random, and the stream of random words after. -/
def sample (g : Game) (s : Seat) (count : Nat) : Checked (List ObjectId × Random) := do
  let hand := g.hand s
  let (indices, random) := g.random.sample hand.length count
  return (← items hand indices, random)

/-- Places drawn at random are places in the hand. -/
theorem sample_eq (g : Game) (s : Seat) (count : Nat) :
    sample g s count =
      .ok ((g.random.sample (g.hand s).length count).1.filterMap ((g.hand s)[·]?),
        (g.random.sample (g.hand s).length count).2) := by
  unfold sample
  simp only [items_eq (g.random.samples_sample (g.hand s).length count).below]
  rfl

end Checked

namespace Machine

open Checked

variable {ctx : Context}

/-- Discards random cards of a hand. -/
def discardRandom (s : Seat) (count : Nat) : Machine Unit := do
  let (cards, random) ← check (sample (← game) s count)
  update fun g => { g with random }
  discard s cards

/-- Looks at the top of the library and lets the player put some of it on the bottom. -/
def askScry (ctx : Context) (count : Nat) : Machine Outcome := do
  match (← game).topOfLibrary ctx.controller count with
  | [] => return .done
  | top =>
    pause ctx.controller s!"Scry {top.length}: choose cards to put on the bottom"
      (.cards top 0 top.length true) ctx.source (.scry ctx.controller)

/-- Lets the player rearrange the top of the library. -/
def askReorder (ctx : Context) (count : Nat) : Machine Outcome := do
  let top := (← game).topOfLibrary ctx.controller count
  if top.length < 2 then return .done
  pause ctx.controller "Put the cards back in any order (first is on top)"
    (.order top) ctx.source (.reorder ctx.controller)

/-- Lets the player take matching cards from the library, which is shuffled afterwards. -/
def askSearch (ctx : Context) (f : ObjectFilter) (count : Nat) (destination : ZoneKind)
    (tapped : Bool) : Machine Outcome := do
  let g ← game
  let found := View.select { game := g } f ctx.forFilter (g.library ctx.controller)
  if found.isEmpty || count = 0 then
    lift (Resolve.shuffleLibrary ctx.controller)
    return .done
  let most := min found.length count
  pause ctx.controller s!"Search your library for up to {most} card(s)"
    (.cards found 0 most false) ctx.source (.search ctx.controller destination tapped)

/-- Reveals the top of the library and lets a player separate it into two piles. -/
def askSeparation (rules : Rules) (ctx : Context) (count : Nat) (separator : Selector) :
    Machine Outcome := do
  match (← game).topOfLibrary ctx.controller count with
  | [] => return .done
  | revealed =>
    match ← players rules ctx separator with
    | [] => throw (.unboundSelector separator)
    | s :: _ =>
      emit (.cardsRevealed ctx.controller revealed)
      pause s "Separate the revealed cards into two piles" (.piles revealed) ctx.source
        (.separatePiles ctx.controller revealed ctx.source)

def resolveLibrary (rules : Rules) (ctx : Context) : LibraryEffect → Machine Outcome
  | .draw players count => do
    let n ← Machine.count rules ctx count
    (← Machine.players rules ctx players).forM fun s => do let _ ← draw s n
    return .done
  | .discard players count => do
    let n ← Machine.count rules ctx count
    start rules ctx (.discard n) (← Machine.players rules ctx players)
  | .discardAtRandom players count => do
    let n ← Machine.count rules ctx count
    (← Machine.players rules ctx players).forM fun s => discardRandom s n
    return .done
  | .mill players count => do
    let n ← Machine.count rules ctx count
    (← Machine.players rules ctx players).forM fun s => do let _ ← mill s n
    return .done
  | .shuffle players => do
    (← Machine.players rules ctx players).forM fun s => lift (Resolve.shuffleLibrary s)
    return .done
  | .scry count => do askScry ctx (← Machine.count rules ctx count)
  | .reorderTop count => do askReorder ctx (← Machine.count rules ctx count)
  | .search f count destination tapped => askSearch ctx f count destination tapped
  | .separate count separator => do
    askSeparation rules ctx (← Machine.count rules ctx count) separator
  | .createToken token count controllers => do
    let n ← Machine.count rules ctx count
    (← Machine.players rules ctx controllers).forM fun s =>
      (List.replicate n ()).forM fun _ => do let _ ← createToken token s
    return .done

theorem copies_discardRandom (s : Seat) (count : Nat) :
    Copies (discardRandom s count) (LibraryEffect.discardRandom s count) := by
  refine .look_anyhow fun g _ => ?_
  rw [sample_eq, check_ok, pure_bind]
  refine .bind (copies_update fun {g} htyped => htyped.rezone g.zones _) fun _ => ?_
  exact copies_discard s _

theorem mirrors_askScry (ctx : Context) (count : Nat) :
    Mirrors 1 (fun _ => True) (askScry ctx count) (LibraryEffect.askScry ctx count)
      fun _ _ => True := by
  refine .look_anyhow fun g _ => ?_
  cases g.topOfLibrary ctx.controller count with
  | nil => exact .pure _ id
  | cons o rest => exact mirrors_pause trivial trivial (Nat.le_refl _)

theorem mirrors_askReorder (ctx : Context) (count : Nat) :
    Mirrors 1 (fun _ => True) (askReorder ctx count) (LibraryEffect.askReorder ctx count)
      fun _ _ => True := by
  refine .look_anyhow fun g _ => ?_
  apply Mirrors.ite
  · intro hfew
    exact .pure _ id
  · intro hmany
    exact mirrors_pause trivial trivial (Nat.le_refl _)

theorem mirrors_askSearch (hctx : ctx.Typed) (f : ObjectFilter) (count : Nat)
    (destination : ZoneKind) (tapped : Bool) :
    Mirrors 1 (fun _ => True) (askSearch ctx f count destination tapped)
      (LibraryEffect.askSearch ctx f count destination tapped) fun _ _ => True := by
  refine .look_anyhow fun g _ => ?_
  apply Mirrors.ite
  · intro hnone
    refine .andThen (copies_shuffleLibrary _) fun _ => ?_
    exact .pure _ id
  · intro hfound
    exact mirrors_pause trivial hctx.controller (Nat.le_refl _)

theorem mirrors_askSeparation (rules : Rules) (hctx : ctx.Typed) (count : Nat)
    (separator : Selector) :
    Mirrors 1 Game.Sound (askSeparation rules ctx count separator)
      (LibraryEffect.askSeparation rules ctx count separator) fun _ _ => True := by
  refine .look_anyhow fun g _ => ?_
  cases g.topOfLibrary ctx.controller count with
  | nil => exact .pure _ fun _ => trivial
  | cons o rest =>
    refine .read (reads_players rules hctx separator) fun ss _ => ?_
    cases ss with
    | nil => exact .throw _
    | cons s others =>
      refine .andThen (copies_emit _) fun _ => ?_
      exact mirrors_pause trivial trivial (Nat.le_refl _)

theorem mirrors_resolveLibrary (rules : Rules) (hctx : ctx.Typed) {e : LibraryEffect}
    (he : e.Typed) :
    Mirrors 1 Game.Sound (resolveLibrary rules ctx e) (e.resolve rules ctx)
      fun _ _ => True := by
  cases e with
  | draw players count =>
    refine .read (reads_count rules hctx he) fun n _ => ?_
    refine .read (reads_players rules hctx players) fun ss hss => ?_
    refine .andThen (.forM fun s hs => ?_) fun _ => .pure _ id
    refine .bind (copies_draw (hss s hs) n) fun _ => ?_
    exact .pure _ id
  | discard players count =>
    refine .read (reads_count rules hctx he) fun n _ => ?_
    refine .read (reads_players rules hctx players) fun ss _ => ?_
    exact mirrors_start rules ctx _ ss
  | discardAtRandom players count =>
    refine .read (reads_count rules hctx he) fun n _ => ?_
    refine .read (reads_players rules hctx players) fun ss _ => ?_
    refine .andThen (.forM fun s _ => copies_discardRandom s n) fun _ => ?_
    exact .pure _ id
  | mill players count =>
    refine .read (reads_count rules hctx he) fun n _ => ?_
    refine .read (reads_players rules hctx players) fun ss _ => ?_
    refine .andThen (.forM fun s _ => ?_) fun _ => .pure _ id
    refine .bind (copies_mill s n) fun _ => ?_
    exact .pure _ id
  | shuffle players =>
    refine .read (reads_players rules hctx players) fun ss _ => ?_
    refine .andThen (.forM fun s _ => copies_shuffleLibrary s) fun _ => ?_
    exact .pure _ id
  | scry count =>
    refine .read (reads_count rules hctx he) fun n _ => ?_
    exact (mirrors_askScry ctx n).anyhow
  | reorderTop count =>
    refine .read (reads_count rules hctx he) fun n _ => ?_
    exact (mirrors_askReorder ctx n).anyhow
  | search f count destination tapped => exact (mirrors_askSearch hctx f count _ _).anyhow
  | separate count separator =>
    refine .read (reads_count rules hctx he) fun n _ => ?_
    exact mirrors_askSeparation rules hctx n separator
  | createToken token count controllers =>
    obtain ⟨htoken, hcount⟩ := he
    refine .read (reads_count rules hctx hcount) fun n _ => ?_
    refine .read (reads_players rules hctx controllers) fun ss hss => ?_
    refine .andThen (.forM fun s hs => .forM fun _ _ => ?_) fun _ => .pure _ id
    refine .bind (copies_createToken htoken (hss s hs)) fun _ => ?_
    exact .pure _ id

/-- Takes the chosen cards to their destination and shuffles the library. -/
def finishSearch (player : Seat) (destination : ZoneKind) (tapped : Bool)
    (chosen : List ObjectId) : Machine Outcome := do
  chosen.forM fun o => do
    if destination = .battlefield then putOntoBattlefield o (some player) tapped
    else
      let _ ← moveToOwners o destination
  lift (Resolve.shuffleLibrary player)
  return .done

/-- Puts the chosen cards on the bottom, each under the one before. -/
def finishScry (player : Seat) (chosen : List ObjectId) : Machine Outcome := do
  chosen.forM fun o => do
    let _ ← edit (Game.onZones (Zones.move o (.library player) .bottom))
  emit (.libraryReordered player)
  return .done

/-- Offers two piles: the given one, and the other revealed cards. -/
def offerPiles (chooser : Seat) (revealed : List ObjectId) (source : Option ObjectId)
    (pile : List ObjectId) : Machine Outcome := do
  let other := revealed.filter (!pile.contains ·)
  let options :=
    [s!"First pile ({pile.length} cards)", s!"Second pile ({other.length} cards)"]
  pause chooser "Choose a pile to put into your hand" (.option options) source
    (.choosePile chooser pile other)

/-- Puts the chosen pile into the hand and the other one into the graveyard. -/
def takePile (player : Seat) (first second : List ObjectId) (question : Question) (index : Nat) :
    Machine Outcome := do
  let (kept, rest) ←
    match index with
    | 0 => pure (first, second)
    | 1 => pure (second, first)
    | _ => throw (.noSuchPile index)
  lift (LibraryEffect.announceOption player question index)
  kept.forM fun o => do let _ ← moveToOwners o .hand
  rest.forM fun o => do let _ ← moveToOwners o .graveyard
  return .done

theorem copies_finishSearch {player : Seat} (hplayer : player.Typed) (destination : ZoneKind)
    (tapped : Bool) (chosen : List ObjectId) :
    Copies (finishSearch player destination tapped chosen)
      (LibraryEffect.finishSearch player destination tapped chosen) := by
  refine .bind (.forM fun o _ => ?_) fun _ => ?_
  · apply Mirrors.ite
    · intro henters
      apply copies_putOntoBattlefield
      rintro s ⟨⟩
      exact hplayer
    · intro hother
      refine .bind (copies_moveToOwners o _) fun _ => ?_
      exact .pure _ id
  · refine .bind (copies_shuffleLibrary player) fun _ => ?_
    exact .pure _ id

theorem copies_finishScry (player : Seat) (chosen : List ObjectId) :
    Copies (finishScry player chosen) (LibraryEffect.finishScry player chosen) := by
  refine .bind (.forM fun o _ => ?_) fun _ => ?_
  · refine .bind (copies_onZones _) fun _ => ?_
    exact .pure _ id
  · refine .bind (copies_emit _) fun _ => ?_
    exact .pure _ id

theorem copies_finishReorder (player : Seat) (order : List ObjectId) :
    Copies (lift (LibraryEffect.finishReorder player order))
      (LibraryEffect.finishReorder player order) := by
  unfold LibraryEffect.finishReorder
  rw [lift_bind]
  refine .look_anyhow fun g _ => ?_
  dsimp only
  cases g.zones.reorder (.library player)
      ((g.zones.objects (.library player)).filter (!order.contains ·) ++ order.reverse) with
  | error failure => exact .throw _
  | ok zones =>
    refine .liftBind (copies_update fun {g} htyped => htyped.rezone zones g.random) fun _ => ?_
    refine .liftBind (copies_emit _) fun _ => ?_
    exact .pure _ id

theorem copies_announceOption (player : Seat) (question : Question) (index : Nat) :
    Copies (lift (LibraryEffect.announceOption player question index))
      (LibraryEffect.announceOption player question index) := by
  unfold LibraryEffect.announceOption
  split
  · split
    · exact copies_emit _
    · exact .pure _ id
  · exact .pure _ id

theorem copies_takePile (player : Seat) (first second : List ObjectId) (question : Question)
    (index : Nat) :
    Copies (takePile player first second question index)
      (LibraryEffect.takePile player first second question index) := by
  have hmove (kind : ZoneKind) (pile : List ObjectId) : Copies
      (pile.forM fun o => do let _ ← moveToOwners o kind)
      (pile.forM fun o => do let _ ← Resolve.moveToOwners o kind) := by
    refine .forM fun o _ => ?_
    refine .bind (copies_moveToOwners o kind) fun _ => ?_
    exact .pure _ id
  have htake (kept rest : List ObjectId) : Copies
      (do
        lift (LibraryEffect.announceOption player question index)
        kept.forM fun o => do let _ ← moveToOwners o .hand
        rest.forM fun o => do let _ ← moveToOwners o .graveyard
        return Outcome.done)
      (do
        LibraryEffect.announceOption player question index
        kept.forM fun o => do let _ ← Resolve.moveToOwners o .hand
        rest.forM fun o => do let _ ← Resolve.moveToOwners o .graveyard
        return Outcome.done) := by
    refine .bind (copies_announceOption player question index) fun _ => ?_
    refine .bind (hmove .hand kept) fun _ => ?_
    refine .bind (hmove .graveyard rest) fun _ => ?_
    exact .pure _ id
  match index with
  | 0 => exact htake first second
  | 1 => exact htake second first
  | n + 2 => exact .throw _

end Machine

end CardGame
