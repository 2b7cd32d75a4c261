import CardGame.Card.Face
import CardGame.Failure

/-!
The catalog of cards that can be brought into a game.
-/

namespace CardGame

/-- Card definitions by identity. -/
structure Catalog where
  cards : SortedMap CardId CardDefinition := ∅
deriving DecidableEq

namespace Catalog

/-- Adds a card whose identity is still free. -/
def register (c : Catalog) (d : CardDefinition) : Except Failure Catalog :=
  if c.cards.contains d.id then .error (.cardAlreadyRegistered d.id)
  else .ok ⟨c.cards.insert d.id d⟩

def require (c : Catalog) (id : CardId) : Except Failure CardDefinition :=
  match c.cards.find? id with
  | some d => .ok d
  | none => .error (.unknownCard id)

def size (c : Catalog) : Nat := c.cards.size

end Catalog

end CardGame
