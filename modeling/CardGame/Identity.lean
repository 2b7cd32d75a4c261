import CardGame.Collection.Ranked

/-!
Seats at the table and the identities of objects. The identities below the number of seats stand
for the players themselves; all others are cards, tokens and spells.
-/

namespace CardGame

/-- A player's seat, counted from 0 around the table. -/
structure Seat where
  index : Nat
deriving DecidableEq

/-- The identity of an object of the game. -/
structure ObjectId where
  val : Nat
deriving DecidableEq

/-- The identity of a card in the catalog. -/
structure CardId where
  val : Nat
deriving DecidableEq

/-- The identity of a decision put to a player. -/
structure DecisionId where
  val : Nat
deriving DecidableEq

/-- The identity of a floating effect. -/
structure FloatingId where
  val : Nat
deriving DecidableEq

instance : Inhabited Seat := ⟨⟨0⟩⟩
instance : Inhabited ObjectId := ⟨⟨0⟩⟩

instance : ToString Seat := ⟨fun s => "Player " ++ toString s.index⟩
instance : ToString ObjectId := ⟨fun o => "Entity(" ++ toString o.val ++ ")"⟩
instance : ToString CardId := ⟨fun c => "Card(" ++ toString c.val ++ ")"⟩
instance : ToString DecisionId := ⟨fun d => "Decision(" ++ toString d.val ++ ")"⟩
instance : ToString FloatingId := ⟨fun f => "FloatingEffect(" ++ toString f.val ++ ")"⟩

instance : Ranked Seat where
  rank s := [s.index]
  rank_inj {a b} h := by cases a; cases b; simpa using h

instance : Ranked ObjectId where
  rank o := [o.val]
  rank_inj {a b} h := by cases a; cases b; simpa using h

instance : Ranked CardId where
  rank c := [c.val]
  rank_inj {a b} h := by cases a; cases b; simpa using h

namespace Seat

/-- Seats are numbered with one byte. -/
def limit : Nat := 256

/-- Every seat of a table, in seat order. -/
def all (seats : Nat) : List Seat := (List.range (seats % limit)).map Seat.mk

/-- The seat to the left. -/
def next (s : Seat) (seats : Nat) : Seat := ⟨(s.index + 1) % seats % limit⟩

/-- A walk of some steps around the table. -/
def walk (seats : Nat) : Nat → Seat → List Seat
  | 0, _ => []
  | steps + 1, s => s :: walk seats steps (s.next seats)

/-- Every seat once, the active player first. -/
def turnOrder (active : Seat) (seats : Nat) : List Seat := walk seats seats active

/-- The given seats in turn order, without repetition. -/
def inTurnOrder (players : List Seat) (active : Seat) (seats : Nat) : List Seat :=
  (turnOrder active seats).filter (players.contains ·)

/-- Every other seat, in seat order. -/
def opponents (s : Seat) (seats : Nat) : List Seat := (all seats).filter (· ≠ s)

end Seat

namespace ObjectId

/-- The first identity that is not a player's. -/
def firstObject (seats : Nat) : Nat := seats % 4294967296

/-- The identity of a player. -/
def ofSeat (s : Seat) : ObjectId := ⟨s.index⟩

/-- Whether an identity is a player's at a table of so many seats. -/
def isSeat (o : ObjectId) (seats : Nat) : Bool := o.val < firstObject seats

/-- The player that an identity stands for. -/
def seat? (o : ObjectId) (seats : Nat) : Option Seat :=
  if o.isSeat seats then some ⟨o.val % Seat.limit⟩ else none

theorem seat?_eq_none_iff (o : ObjectId) (seats : Nat) :
    o.seat? seats = none ↔ firstObject seats ≤ o.val := by
  simp [seat?, isSeat]

end ObjectId

end CardGame
