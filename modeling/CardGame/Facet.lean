import CardGame.Card.Face
import CardGame.Collection.SortedMap

/-!
The facets of an object: everything that is known about it, each kind of fact at most once.
-/

namespace CardGame

/-- The counters on a permanent, with how many of each kind. -/
structure Counters where
  counts : SortedMap CounterKind Nat := ∅
deriving DecidableEq

namespace Counters

def count (c : Counters) (kind : CounterKind) : Nat := (c.counts.find? kind).getD 0

def isEmpty (c : Counters) : Bool := c.counts.isEmpty

def add (c : Counters) (kind : CounterKind) (n : Nat) : Counters :=
  ⟨c.counts.insert kind (c.count kind + n)⟩

/-- Takes off up to some counters, and answers how many it took. A kind of which none is left is
forgotten. -/
def take (c : Counters) (kind : CounterKind) (n : Nat) : Nat × Counters :=
  let taken := min (c.count kind) n
  let left := c.count kind - taken
  (taken, ⟨if left = 0 then c.counts.erase kind else c.counts.insert kind left⟩)

end Counters

/-- The kinds of facets. -/
inductive FacetKind where
  | card | owner | controller | tapped | entered | attacking | blocking | blocked | counters
  | damage | attached | token | faceDown | player
deriving DecidableEq

/-- Something known about an object. -/
inductive Facet where
  | card (c : Card)
  | owner (s : Seat)
  | controller (s : Seat)
  | tapped
  | entered (turn timestamp : Nat)
  | attacking (defender : ObjectId)
  | blocking (attackers : List ObjectId)
  | blocked
  | counters (c : Counters)
  | damage (amount : Int)
  | attached (host : ObjectId)
  | token
  | faceDown
  | player (life : Int) (poison : Nat)
deriving DecidableEq

def Facet.kind : Facet → FacetKind
  | .card _ => .card
  | .owner _ => .owner
  | .controller _ => .controller
  | .tapped => .tapped
  | .entered _ _ => .entered
  | .attacking _ => .attacking
  | .blocking _ => .blocking
  | .blocked => .blocked
  | .counters _ => .counters
  | .damage _ => .damage
  | .attached _ => .attached
  | .token => .token
  | .faceDown => .faceDown
  | .player _ _ => .player

instance : Ranked FacetKind where
  rank k := [k.ctorIdx]
  rank_inj {a b} h := by
    have hab : a.ctorIdx = b.ctorIdx := by simpa using h
    cases a <;> cases b <;> first | rfl | cases hab

/-- The facets of one object by kind. -/
structure Facets where
  byKind : SortedMap FacetKind Facet := ∅
deriving DecidableEq

namespace Facets

def empty : Facets := {}

instance : Inhabited Facets := ⟨empty⟩

/-- Whether there is an entry for a kind. -/
def has (fs : Facets) (kind : FacetKind) : Bool := fs.byKind.contains kind

/-- The facet of a kind. A saved game may hold a facet under another kind's entry: such an entry
counts as present, but it is no facet of the kind. -/
def get? (fs : Facets) (kind : FacetKind) : Option Facet :=
  (fs.byKind.find? kind).filter (·.kind = kind)

/-- Records a facet, replacing one of the same kind. -/
def insert (fs : Facets) (f : Facet) : Facets := ⟨fs.byKind.insert f.kind f⟩

def erase (fs : Facets) (kind : FacetKind) : Facets := ⟨fs.byKind.erase kind⟩

def kinds (fs : Facets) : List FacetKind := fs.byKind.keys

def card? (fs : Facets) : Option Card :=
  match fs.byKind.find? .card with
  | some (.card c) => some c
  | _ => none

def owner? (fs : Facets) : Option Seat :=
  match fs.byKind.find? .owner with
  | some (.owner s) => some s
  | _ => none

def controller? (fs : Facets) : Option Seat :=
  match fs.byKind.find? .controller with
  | some (.controller s) => some s
  | _ => none

/-- The turn in which a permanent entered the battlefield, and the timestamp it got. -/
def entered? (fs : Facets) : Option (Nat × Nat) :=
  match fs.byKind.find? .entered with
  | some (.entered turn timestamp) => some (turn, timestamp)
  | _ => none

def counters? (fs : Facets) : Option Counters :=
  match fs.byKind.find? .counters with
  | some (.counters c) => some c
  | _ => none

def damage? (fs : Facets) : Option Int :=
  match fs.byKind.find? .damage with
  | some (.damage amount) => some amount
  | _ => none

/-- The object that a permanent is attached to. -/
def host? (fs : Facets) : Option ObjectId :=
  match fs.byKind.find? .attached with
  | some (.attached host) => some host
  | _ => none

/-- A player's life total and poison counters. -/
def player? (fs : Facets) : Option (Int × Nat) :=
  match fs.byKind.find? .player with
  | some (.player life poison) => some (life, poison)
  | _ => none

end Facets

end CardGame
