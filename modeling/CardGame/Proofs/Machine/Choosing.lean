import CardGame.Proofs.Machine.Acting
import CardGame.Resolve.Cost

/-!
Choices in turn order, and costs, on a machine. The order of the players is worked out seat by seat,
the only creature type is taken out of a list of one, and life is paid as the negative of an amount.
-/

namespace CardGame

namespace Checked

/-- What a player has to choose from. -/
def ask (v : View) (ctx : Context) (s : Seat) : PlayerChoice → Checked Ask
  | .creatureType =>
    let options := v.game.graveyardCreatureTypes
    match options.length with
    | 0 => return .forced .nothing
    | 1 => return .forced (.creatureType (← item options 0))
    | _ => return .decide "Choose a creature type" (.option (options.map (·.name)))
  | choice => return choice.ask v ctx s

/-- Goes from player to player until one has to be asked. -/
def gatherPicks (v : View) (ctx : Context) (choice : PlayerChoice) :
    List Seat → List (Seat × Pick) → Checked Round
  | [], picks => return .complete picks
  | s :: rest, picks => do
    match ← ask v ctx s choice with
    | .forced pick => gatherPicks v ctx choice rest (picks ++ [(s, pick)])
    | .decide prompt question => return .stopped picks s rest prompt question

/-- The given seats in turn order, without repetition. -/
def inTurnOrder (players : List Seat) (active : Seat) (seats : Nat) : Checked (List Seat) := do
  return (← turnOrder active seats).filter (players.contains ·)

theorem ask_eq (v : View) (ctx : Context) (s : Seat) (choice : PlayerChoice) :
    ask v ctx s choice = .ok (choice.ask v ctx s) := by
  cases choice with
  | creatureType =>
    unfold ask PlayerChoice.ask
    cases v.game.graveyardCreatureTypes with
    | nil => rfl
    | cons first rest => cases rest <;> rfl
  | _ => rfl

theorem gatherPicks_eq (v : View) (ctx : Context) (choice : PlayerChoice) (players : List Seat)
    (picks : List (Seat × Pick)) :
    gatherPicks v ctx choice players picks = .ok (choice.gather v ctx players picks) := by
  induction players generalizing picks with
  | nil => rfl
  | cons s rest ih =>
    unfold gatherPicks PlayerChoice.gather
    rw [ask_eq, ok_bind]
    cases choice.ask v ctx s with
    | forced pick => exact ih _
    | decide prompt question => rfl

theorem inTurnOrder_eq {g : Game} (hsound : g.Sound) (htyped : g.Typed) (players : List Seat) :
    inTurnOrder players g.turn.active g.seats =
      .ok (Seat.inTurnOrder players g.turn.active g.seats) := by
  unfold inTurnOrder
  rw [Seat.checked_turnOrder htyped.active hsound.housed.seated, ok_bind]
  rfl

end Checked

/-- A player is asked about objects or names, and never to divide anything. -/
theorem PlayerChoice.typed_of_gather {v : View} {ctx : Context} {choice : PlayerChoice}
    {players rest : List Seat} {picks picks' : List (Seat × Pick)} {s : Seat} {prompt : String}
    {question : Question}
    (h : choice.gather v ctx players picks = .stopped picks' s rest prompt question) :
    question.Typed := by
  have hobjects {options : List ObjectId} {count : Nat} {what : String}
      (hask : askObjects options count what = .decide prompt question) : question.Typed := by
    unfold askObjects at hask
    split at hask
    · cases hask
    · split at hask
      · cases hask
      · cases hask
        trivial
  have hask {s : Seat} (hask : choice.ask v ctx s = .decide prompt question) :
      question.Typed := by
    unfold PlayerChoice.ask at hask
    split at hask
    · exact hobjects hask
    · exact hobjects hask
    · split at hask <;> cases hask
      trivial
  induction players generalizing picks with
  | nil => cases h
  | cons s' rest' ih =>
    unfold PlayerChoice.gather at h
    cases hchoice : choice.ask v ctx s' with
    | forced pick =>
      rw [hchoice] at h
      exact ih h
    | decide prompt' question' =>
      rw [hchoice] at h
      cases h
      exact hask hchoice

namespace Machine

open Checked

/-- Sacrifices permanents as the view shows them. -/
def sacrificeAll (v : View) (s : Seat) (objects : List ObjectId) : Machine Unit :=
  objects.forM fun o => do sacrifice s o (← lift (Resolve.characteristics v o))

/-- Carries out one player's pick of cards to discard. -/
def discardPick (s : Seat) : Pick → Machine Unit
  | .objects cards => discard s cards
  | _ => return

/-- Carries out one player's pick of permanents to sacrifice. -/
def sacrificePick (v : View) (s : Seat) : Pick → Machine Unit
  | .objects permanents => sacrificeAll v s permanents
  | _ => return

/-- Carries out everybody's picks. -/
def carryOut (rules : Rules) (picks : List (Seat × Pick)) : PlayerChoice → Machine Unit
  | .discard _ => picks.forM fun p => discardPick p.1 p.2
  | .sacrifice _ _ => do
    let v ← view rules
    picks.forM fun p => sacrificePick v p.1 p.2
  | .creatureType => do
    picks.forM fun p => lift (PlayerChoice.announcePick p.1 p.2)
    let returning :=
      PlayerChoice.creaturesOfTypes (← game) (.ofList (PlayerChoice.pickedTypes picks))
    returning.forM fun o => putOntoBattlefield o none false

/-- Goes on with the round. -/
def goOn (rules : Rules) (ctx : Context) (choice : PlayerChoice) (players : List Seat)
    (picks : List (Seat × Pick)) : Machine Outcome := do
  let v ← view rules
  match ← check (gatherPicks v ctx choice players picks) with
  | .complete picks =>
    carryOut rules picks choice
    return .done
  | .stopped picks s rest prompt question =>
    pause s prompt question ctx.source (.eachPlayerChooses choice s rest picks ctx)

/-- Starts the round among some players. -/
def start (rules : Rules) (ctx : Context) (choice : PlayerChoice) (players : List Seat) :
    Machine Outcome := do
  let g ← game
  let order ← check (inTurnOrder players g.turn.active g.seats)
  goOn rules ctx choice order []

/-- Pays with the chosen objects. -/
def payWith (rules : Rules) (payer : Seat) (chosen : List ObjectId) : Cost → Machine Unit
  | .life n => do lift (Resolve.changeLife payer (← check (neg n)))
  | .discard _ => discard payer chosen
  | .sacrifice _ _ => do sacrificeAll (← view rules) payer chosen

/-- Pays with some of the options. -/
def payFrom (rules : Rules) (ctx : Context) (payer : Seat) (options : List ObjectId)
    (count : Nat) (cost : Cost) : Machine Outcome := do
  if options.length = count then
    payWith rules payer options cost
    return .done
  else
    pause payer s!"Choose {count} to pay with" (.cards options count count false)
      ctx.source (.payCost payer cost)

/-- Pays a cost. -/
def pay (rules : Rules) (ctx : Context) (payer : Seat) : Cost → Machine Outcome
  | .life n => do
    lift (Resolve.changeLife payer (← check (neg n)))
    return .done
  | .discard n => do
    payFrom rules ctx payer ((← game).hand payer) n (.discard n)
  | .sacrifice f n => do
    let options := PlayerChoice.sacrificeOptions (← view rules) ctx f payer
    payFrom rules ctx payer options n (.sacrifice f n)

theorem copies_sacrificeAll (v : View) (s : Seat) (objects : List ObjectId) :
    Copies (sacrificeAll v s objects) (PlayerChoice.sacrificeAll v s objects) := by
  refine .forM fun o _ => ?_
  refine .read (reads_characteristics v o) fun c _ => ?_
  exact copies_sacrifice s o c

theorem copies_discardPick (s : Seat) (pick : Pick) :
    Copies (discardPick s pick) (PlayerChoice.discardPick s pick) := by
  cases pick with
  | objects cards => exact copies_discard s cards
  | _ => exact .pure _ id

theorem copies_sacrificePick (v : View) (s : Seat) (pick : Pick) :
    Copies (sacrificePick v s pick) (PlayerChoice.sacrificePick v s pick) := by
  cases pick with
  | objects permanents => exact copies_sacrificeAll v s permanents
  | _ => exact .pure _ id

theorem copies_announcePick (s : Seat) (pick : Pick) :
    Copies (lift (PlayerChoice.announcePick s pick)) (PlayerChoice.announcePick s pick) := by
  cases pick with
  | creatureType t => exact copies_emit _
  | _ => exact .pure _ id

theorem mirrors_carryOut (rules : Rules) (picks : List (Seat × Pick)) (choice : PlayerChoice) :
    Mirrors 0 Game.Sound (carryOut rules picks choice) (choice.carryOut rules picks)
      fun _ _ => True := by
  cases choice with
  | discard count =>
    exact (Mirrors.forM fun p _ => copies_discardPick p.1 p.2).anyhow
  | sacrifice f count =>
    refine .read (.view rules) fun v _ => ?_
    exact (Mirrors.forM fun p _ => copies_sacrificePick v p.1 p.2).anyhow
  | creatureType =>
    refine .andThen (.forM fun p _ => copies_announcePick p.1 p.2) fun _ => ?_
    refine .look_anyhow fun g _ => ?_
    exact .forM fun o _ => copies_putOntoBattlefield o (by rintro t ⟨⟩) false

theorem mirrors_goOn (rules : Rules) (ctx : Context) (choice : PlayerChoice)
    (players : List Seat) (picks : List (Seat × Pick)) :
    Mirrors 1 Game.Sound (goOn rules ctx choice players picks)
      (choice.goOn rules ctx players picks) fun _ _ => True := by
  refine .read (.view rules) fun v _ => ?_
  rw [gatherPicks_eq, check_ok, pure_bind]
  cases hround : choice.gather v ctx players picks with
  | complete picks' =>
    refine .bind (mirrors_carryOut rules picks' choice) fun _ => ?_
    exact .pure _ id
  | stopped picks' s rest prompt question =>
    exact mirrors_pause (PlayerChoice.typed_of_gather hround) trivial (Nat.le_refl _)

theorem mirrors_start (rules : Rules) (ctx : Context) (choice : PlayerChoice)
    (players : List Seat) :
    Mirrors 1 Game.Sound (start rules ctx choice players) (choice.start rules ctx players)
      fun _ _ => True := by
  refine .look fun g htyped hsound => ?_
  rw [inTurnOrder_eq hsound htyped, check_ok, pure_bind]
  refine (mirrors_goOn rules ctx choice _ []).of_pre ?_
  rintro h rfl
  exact hsound

theorem mirrors_payWith (rules : Rules) (payer : Seat) (chosen : List ObjectId) {cost : Cost}
    (hcost : cost.Typed) :
    Mirrors 0 Game.Sound (payWith rules payer chosen cost) (cost.payWith rules payer chosen)
      fun _ _ => True := by
  cases cost with
  | life n =>
    obtain ⟨hmin, hmax⟩ := hcost
    simp only [payWith, neg_eq hmin hmax, check_ok, pure_bind]
    exact (copies_changeLife payer (-n)).anyhow
  | discard n => exact (copies_discard payer chosen).anyhow
  | sacrifice f n =>
    refine .read (.view rules) fun v _ => ?_
    exact (copies_sacrificeAll v payer chosen).anyhow

theorem mirrors_payFrom (rules : Rules) (ctx : Context) (payer : Seat) (options : List ObjectId)
    (count : Nat) {cost : Cost} (hcost : cost.Typed) :
    Mirrors 1 Game.Sound (payFrom rules ctx payer options count cost)
      (cost.payFrom rules ctx payer options count) fun _ _ => True := by
  apply Mirrors.ite
  · intro hall
    refine .bind (mirrors_payWith rules payer options hcost) fun _ => ?_
    exact .pure _ id
  · intro hchoice
    exact mirrors_pause trivial hcost (Nat.le_refl _)

theorem mirrors_pay (rules : Rules) (ctx : Context) (payer : Seat) {cost : Cost}
    (hcost : cost.Typed) :
    Mirrors 1 Game.Sound (pay rules ctx payer cost) (cost.pay rules ctx payer)
      fun _ _ => True := by
  cases cost with
  | life n =>
    obtain ⟨hmin, hmax⟩ := hcost
    simp only [pay, neg_eq hmin hmax, check_ok, pure_bind]
    refine .andThen (copies_changeLife payer (-n)) fun _ => ?_
    exact .pure _ id
  | discard n =>
    refine .look_anyhow fun g _ => ?_
    exact mirrors_payFrom rules ctx payer _ n hcost
  | sacrifice f n =>
    refine .read (.view rules) fun v _ => ?_
    exact mirrors_payFrom rules ctx payer _ n hcost

end Machine

end CardGame
