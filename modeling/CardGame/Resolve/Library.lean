import CardGame.Resolve.InTurn

/-!
Resolving effects on libraries and hands, and the creation of tokens.
-/

namespace CardGame

namespace LibraryEffect

/-- Discards random cards of a hand. -/
def discardRandom (s : Seat) (count : Nat) : Resolve Unit := do
  let g ← Resolve.game
  let hand := g.hand s
  let (indices, random) := g.random.sample hand.length count
  Resolve.update fun g => { g with random }
  Resolve.discard s (indices.filterMap (hand[·]?))

/-- Looks at the top of the library and lets the player put some of it on the bottom. -/
def askScry (ctx : Context) (count : Nat) : Resolve Outcome := do
  match (← Resolve.game).topOfLibrary ctx.controller count with
  | [] => return .done
  | top =>
    Resolve.pause ctx.controller s!"Scry {top.length}: choose cards to put on the bottom"
      (.cards top 0 top.length true) ctx.source (.scry ctx.controller)

/-- Lets the player rearrange the top of the library. -/
def askReorder (ctx : Context) (count : Nat) : Resolve Outcome := do
  let top := (← Resolve.game).topOfLibrary ctx.controller count
  if top.length < 2 then return .done
  Resolve.pause ctx.controller "Put the cards back in any order (first is on top)"
    (.order top) ctx.source (.reorder ctx.controller)

/-- Lets the player take matching cards from the library, which is shuffled afterwards. -/
def askSearch (ctx : Context) (f : ObjectFilter) (count : Nat) (destination : ZoneKind)
    (tapped : Bool) : Resolve Outcome := do
  let g ← Resolve.game
  let found := View.select { game := g } f ctx.forFilter (g.library ctx.controller)
  if found.isEmpty || count = 0 then
    Resolve.shuffleLibrary ctx.controller
    return .done
  let most := min found.length count
  Resolve.pause ctx.controller s!"Search your library for up to {most} card(s)"
    (.cards found 0 most false) ctx.source (.search ctx.controller destination tapped)

/-- Reveals the top of the library and lets a player separate it into two piles. -/
def askSeparation (rules : Rules) (ctx : Context) (count : Nat) (separator : Selector) :
    Resolve Outcome := do
  match (← Resolve.game).topOfLibrary ctx.controller count with
  | [] => return .done
  | revealed =>
    match ← Resolve.players rules ctx separator with
    | [] => throw (.unboundSelector separator)
    | s :: _ =>
      Resolve.emit (.cardsRevealed ctx.controller revealed)
      Resolve.pause s "Separate the revealed cards into two piles" (.piles revealed) ctx.source
        (.separatePiles ctx.controller revealed ctx.source)

def resolve (rules : Rules) (ctx : Context) : LibraryEffect → Resolve Outcome
  | .draw players count => do
    let n ← Resolve.count rules ctx count
    (← Resolve.players rules ctx players).forM fun s => do let _ ← Resolve.draw s n
    return .done
  | .discard players count => do
    let n ← Resolve.count rules ctx count
    PlayerChoice.start rules ctx (.discard n) (← Resolve.players rules ctx players)
  | .discardAtRandom players count => do
    let n ← Resolve.count rules ctx count
    (← Resolve.players rules ctx players).forM fun s => discardRandom s n
    return .done
  | .mill players count => do
    let n ← Resolve.count rules ctx count
    (← Resolve.players rules ctx players).forM fun s => do let _ ← Resolve.mill s n
    return .done
  | .shuffle players => do
    (← Resolve.players rules ctx players).forM Resolve.shuffleLibrary
    return .done
  | .scry count => do askScry ctx (← Resolve.count rules ctx count)
  | .reorderTop count => do askReorder ctx (← Resolve.count rules ctx count)
  | .search f count destination tapped => askSearch ctx f count destination tapped
  | .separate count separator => do
    askSeparation rules ctx (← Resolve.count rules ctx count) separator
  | .createToken token count controllers => do
    let n ← Resolve.count rules ctx count
    (← Resolve.players rules ctx controllers).forM fun s =>
      (List.replicate n ()).forM fun _ => do let _ ← Resolve.createToken token s
    return .done

/-- Takes the chosen cards to their destination and shuffles the library. -/
def finishSearch (player : Seat) (destination : ZoneKind) (tapped : Bool)
    (chosen : List ObjectId) : Resolve Outcome := do
  chosen.forM fun o => do
    if destination = .battlefield then Resolve.putOntoBattlefield o (some player) tapped
    else
      let _ ← Resolve.moveToOwners o destination
  Resolve.shuffleLibrary player
  return .done

/-- Puts the chosen cards on the bottom, each under the one before. -/
def finishScry (player : Seat) (chosen : List ObjectId) : Resolve Outcome := do
  chosen.forM fun o => do
    let _ ← Resolve.edit (Game.onZones (Zones.move o (.library player) .bottom))
  Resolve.emit (.libraryReordered player)
  return .done

/-- Puts cards back on top in the given order, the first on top. -/
def finishReorder (player : Seat) (order : List ObjectId) : Resolve Outcome := do
  let g ← Resolve.game
  let library := Zone.library player
  let rest := (g.zones.objects library).filter (!order.contains ·)
  match g.zones.reorder library (rest ++ order.reverse) with
  | .error failure => throw failure
  | .ok zones =>
    Resolve.update fun g => { g with zones }
    Resolve.emit (.libraryReordered player)
    return .done

/-- Offers two piles: the given one, and the other revealed cards. -/
def offerPiles (chooser : Seat) (revealed : List ObjectId) (source : Option ObjectId)
    (pile : List ObjectId) : Resolve Outcome := do
  let other := revealed.filter (!pile.contains ·)
  let options :=
    [s!"First pile ({pile.length} cards)", s!"Second pile ({other.length} cards)"]
  Resolve.pause chooser "Choose a pile to put into your hand" (.option options) source
    (.choosePile chooser pile other)

/-- Tells which option of a question was chosen. -/
def announceOption (player : Seat) (question : Question) (index : Nat) : Resolve Unit :=
  match question with
  | .option options =>
    match options[index]? with
    | some option => Resolve.emit (.optionChosen player option)
    | none => return
  | _ => return

/-- Puts the chosen pile into the hand and the other one into the graveyard. -/
def takePile (player : Seat) (first second : List ObjectId) (question : Question) (index : Nat) :
    Resolve Outcome := do
  let (kept, rest) ←
    match index with
    | 0 => pure (first, second)
    | 1 => pure (second, first)
    | _ => throw (.noSuchPile index)
  announceOption player question index
  kept.forM fun o => do let _ ← Resolve.moveToOwners o .hand
  rest.forM fun o => do let _ ← Resolve.moveToOwners o .graveyard
  return .done

end LibraryEffect

end CardGame
