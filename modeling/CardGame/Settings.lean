import CardGame.Failure

/-!
The settings of a table and of the rules.
-/

namespace CardGame

/-- What a new game needs to know. -/
structure TableSettings where
  players : Nat := 2
  startingLife : Int := 20
  seed : Nat := 0
deriving DecidableEq

/-- A table seats 1 to 255 players, who start alive. -/
def TableSettings.check (s : TableSettings) : Except Failure Unit :=
  if s.players = 0 then .error .noPlayers
  else if 255 < s.players then .error .tooManyPlayers
  else if s.startingLife ≤ 0 then .error (.nonPositiveLife s.startingLife)
  else .ok ()

/-- How effects are resolved: the most suspended effects that one answer may set going, and whether
static abilities take part in the characteristics of objects. -/
structure Rules where
  chainLimit : Nat := 256
  staticAbilities : Bool := true
deriving DecidableEq

/-- An answer must be allowed to set some effects going. -/
def Rules.check (r : Rules) : Except Failure Unit :=
  if r.chainLimit = 0 then .error .noChainSteps else .ok ()

end CardGame
