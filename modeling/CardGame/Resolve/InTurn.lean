import CardGame.Resolve.Action

/-!
Choices that several players make in turn order. Everybody chooses first, and then all choices are
carried out at once. Nobody is asked who has no choice.
-/

namespace CardGame

/-- What a player has to choose from. -/
inductive Ask where
  | forced (pick : Pick)
  | decide (prompt : String) (question : Question)

/-- How far the round of choices gets without asking anyone. -/
inductive Round where
  | complete (picks : List (Seat × Pick))
  | stopped (picks : List (Seat × Pick)) (player : Seat) (remaining : List Seat)
      (prompt : String) (question : Question)

namespace PlayerChoice

/-- The permanents a player controls among those that a filter accepts when the player uses it. -/
def sacrificeOptions (v : View) (ctx : Context) (f : ObjectFilter) (s : Seat) : List ObjectId :=
  (v.permanents f (ctx.forPlayer s).forFilter).filter fun o =>
    (v.projection.bind (·.controller? o)) = some s

/-- The choice of exactly some of the options, or of all if there are no more. -/
def askObjects (options : List ObjectId) (count : Nat) (what : String) : Ask :=
  if count = 0 || options.isEmpty then .forced .nothing
  else if options.length ≤ count then .forced (.objects options)
  else .decide s!"Choose {count} {what}" (.cards options count count false)

/-- What a player has to choose from. -/
def ask (v : View) (ctx : Context) (s : Seat) : PlayerChoice → Ask
  | .discard count => askObjects (v.game.hand s) count "card(s) to discard"
  | .sacrifice f count =>
    askObjects (sacrificeOptions v ctx f s) count "permanent(s) to sacrifice"
  | .creatureType =>
    match v.game.graveyardCreatureTypes with
    | [] => .forced .nothing
    | [only] => .forced (.creatureType only)
    | options => .decide "Choose a creature type" (.option (options.map (·.name)))

/-- Goes from player to player until one has to be asked. -/
def gather (v : View) (ctx : Context) (choice : PlayerChoice) :
    List Seat → List (Seat × Pick) → Round
  | [], picks => .complete picks
  | s :: rest, picks =>
    match choice.ask v ctx s with
    | .forced pick => gather v ctx choice rest (picks ++ [(s, pick)])
    | .decide prompt question => .stopped picks s rest prompt question

/-- Sacrifices permanents as the view shows them. -/
def sacrificeAll (v : View) (s : Seat) (objects : List ObjectId) : Resolve Unit :=
  objects.forM fun o => do Resolve.sacrifice s o (← Resolve.characteristics v o)

/-- The creature cards in graveyards that have one of the subtypes. -/
def creaturesOfTypes (g : Game) (chosen : SortedSet CardSubtype) : List ObjectId :=
  (g.zones.allOf .graveyard).filter fun o =>
    (g.facets o).card?.any fun c =>
      c.types.contains .creature && c.subtypes.toList.any chosen.contains

/-- Carries out one player's pick of cards to discard. -/
def discardPick (s : Seat) : Pick → Resolve Unit
  | .objects cards => Resolve.discard s cards
  | _ => return

/-- Carries out one player's pick of permanents to sacrifice. -/
def sacrificePick (v : View) (s : Seat) : Pick → Resolve Unit
  | .objects permanents => sacrificeAll v s permanents
  | _ => return

/-- Tells which creature type a player picked. -/
def announcePick (s : Seat) : Pick → Resolve Unit
  | .creatureType t => Resolve.emit (.optionChosen s t.name)
  | _ => return

/-- The creature types among the picks. -/
def pickedTypes (picks : List (Seat × Pick)) : List CardSubtype :=
  picks.filterMap fun p =>
    match p.2 with
    | .creatureType t => some t
    | _ => none

/-- Carries out everybody's picks. Creatures of a chosen type return to the battlefield. -/
def carryOut (rules : Rules) (picks : List (Seat × Pick)) : PlayerChoice → Resolve Unit
  | .discard _ => picks.forM fun p => discardPick p.1 p.2
  | .sacrifice _ _ => do
    let v ← Resolve.view rules
    picks.forM fun p => sacrificePick v p.1 p.2
  | .creatureType => do
    picks.forM fun p => announcePick p.1 p.2
    let returning := creaturesOfTypes (← Resolve.game) (.ofList (pickedTypes picks))
    returning.forM fun o => Resolve.putOntoBattlefield o none false

/-- Goes on with the round: asks the next player who has a choice, or carries out all picks. -/
def goOn (rules : Rules) (ctx : Context) (choice : PlayerChoice) (players : List Seat)
    (picks : List (Seat × Pick)) : Resolve Outcome := do
  match gather (← Resolve.view rules) ctx choice players picks with
  | .complete picks =>
    choice.carryOut rules picks
    return .done
  | .stopped picks s rest prompt question =>
    Resolve.pause s prompt question ctx.source (.eachPlayerChooses choice s rest picks ctx)

/-- Starts the round among some players. -/
def start (rules : Rules) (ctx : Context) (choice : PlayerChoice) (players : List Seat) :
    Resolve Outcome := do
  let g ← Resolve.game
  choice.goOn rules ctx (Seat.inTurnOrder players g.turn.active g.seats) []

/-- The pick that an answer makes. -/
def pickOf (question : Question) (answer : Answer) : Except Failure Pick :=
  match question, answer with
  | _, .cards chosen => .ok (.objects chosen)
  | .option options, .option index =>
    match options[index]? with
    | some name => .ok (.creatureType ⟨name⟩)
    | none => .error (.noSuchOption index)
  | question, answer => .error (.wrongAnswer question.name answer.name)

end PlayerChoice

end CardGame
