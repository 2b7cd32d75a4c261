import CardGame.Identity
import CardGame.Collection.SortedMap

/-!
The context of a resolving effect: who acts, on what, and with which choices made beforehand.
-/

namespace CardGame

/-- The roles that references and selectors in an effect speak of. -/
structure Context where
  source : Option ObjectId := none
  controller : Seat := ⟨0⟩
  opponent : Option Seat := none
  targets : List ObjectId := []
  x : Int := 0
  sacrificed : List ObjectId := []
  triggeringObject : Option ObjectId := none
  triggeringPlayer : Option Seat := none
  division : SortedMap ObjectId Int := ∅
deriving DecidableEq

/-- The roles that an object filter speaks of. -/
structure FilterContext where
  controller : Seat
  source : Option ObjectId := none
  targets : List ObjectId := []
deriving DecidableEq

namespace Context

/-- A context in which only the acting player is known. -/
def ofController (controller : Seat) : Context := { controller }

/-- The same context with another player acting. -/
def forPlayer (c : Context) (controller : Seat) : Context := { c with controller }

/-- The same context with other targets. -/
def withTargets (c : Context) (targets : List ObjectId) : Context := { c with targets }

def target? (c : Context) (index : Nat) : Option ObjectId := c.targets[index]?

/-- What a filter can see of the context. -/
def forFilter (c : Context) : FilterContext := ⟨c.controller, c.source, c.targets⟩

end Context

end CardGame
