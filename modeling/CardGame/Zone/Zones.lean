import CardGame.Failure
import CardGame.Random.Source

/-!
Which zone every object is in, and the order within each zone. The two views are kept in step by
every operation; `Zones.check` says whether they agree.
-/

namespace CardGame

/-- A change that may fail and then leaves behind the part it had done. -/
abbrev Edit (σ α : Type) := EStateM Failure σ α

/-- The zones of a game: each object's zone, and each zone's objects with the bottom one first. -/
structure Zones where
  location : SortedMap ObjectId Zone
  contents : SortedMap Zone (List ObjectId)
  seats : Nat
deriving DecidableEq

namespace Zones

/-- Empty zones of every kind for every player. -/
def empty (seats : Nat) : Zones where
  location := ∅
  contents := .ofList <| (Seat.all seats).flatMap fun owner =>
    ZoneKind.all.map fun kind => (⟨owner, kind⟩, [])
  seats

/-- The zone that an object is in. -/
def zone? (zs : Zones) (o : ObjectId) : Option Zone := zs.location.find? o

/-- Whether an object is in some player's zone of a kind. -/
def isIn (zs : Zones) (o : ObjectId) (kind : ZoneKind) : Bool :=
  (zs.zone? o).any (·.kind = kind)

/-- The objects of a zone, the bottom one first. -/
def objects (zs : Zones) (z : Zone) : List ObjectId := (zs.contents.find? z).getD []

/-- Up to some objects from the top of a zone, the topmost first. -/
def top (zs : Zones) (z : Zone) (count : Nat) : List ObjectId := (zs.objects z).reverse.take count

/-- The objects in all zones of a kind, owner by owner in seat order. -/
def allOf (zs : Zones) (kind : ZoneKind) : List ObjectId :=
  (Seat.all zs.seats).flatMap fun owner => zs.objects ⟨owner, kind⟩

/-- The number of objects in a zone. -/
def size (zs : Zones) (z : Zone) : Nat := (zs.objects z).length

/-- The number of objects in all zones. -/
def total (zs : Zones) : Nat := zs.location.size

/-- Puts an object at a position of a list; an index beyond the top means the top. -/
def insertAt (xs : List ObjectId) (o : ObjectId) : Position → List ObjectId
  | .top => xs ++ [o]
  | .bottom => o :: xs
  | .index n => xs.take n ++ o :: xs.drop n

/-- Puts an object that is in no zone into one. -/
def add (zs : Zones) (o : ObjectId) (z : Zone) (p : Position) : Except Failure Zones :=
  match zs.location.find? o, zs.contents.find? z with
  | some existing, _ => .error (.alreadyInZone o existing)
  | none, none => .error (.unknownZone z)
  | none, some xs =>
    .ok { zs with
      location := zs.location.insert o z
      contents := zs.contents.insert z (insertAt xs o p) }

/-- Takes an object out of the zones, and answers where it was. -/
def remove? (zs : Zones) (o : ObjectId) : Option (Zone × Zones) :=
  (zs.location.find? o).map fun z =>
    (z, { zs with
      location := zs.location.erase o
      contents := zs.contents.modify z (·.filter (· ≠ o)) })

/-- The zones without an object. -/
def remove (zs : Zones) (o : ObjectId) : Zones := ((zs.remove? o).map (·.2)).getD zs

/-- Moves an object to a zone and answers where it was. An object that cannot get there ends on top
of the zone it was in. -/
def move (o : ObjectId) (z : Zone) (p : Position) : Edit Zones Zone := fun zs =>
  match zs.remove? o with
  | none => .error (.objectNotFound o) zs
  | some (origin, rest) =>
    match rest.add o z p with
    | .ok moved => .ok origin moved
    | .error failure =>
      match rest.add o origin .top with
      | .ok restored => .error failure restored
      | .error _ => .error failure rest

/-- Gives a zone's objects a new order. -/
def reorder (zs : Zones) (z : Zone) (order : List ObjectId) : Except Failure Zones :=
  match zs.contents.find? z with
  | none => .error (.unknownZone z)
  | some xs =>
    if xs.isPerm order then .ok { zs with contents := zs.contents.insert z order }
    else .error (.notPermutation z)

/-- Shuffles a zone. -/
def shuffle (zs : Zones) (z : Zone) (r : Random) : Zones × Random :=
  match zs.contents.find? z with
  | none => (zs, r)
  | some xs =>
    let (shuffled, r) := r.shuffle xs
    ({ zs with contents := zs.contents.insert z shuffled }, r)

/-- How often an object is listed in a zone. -/
def timesListed (zs : Zones) (o : ObjectId) (z : Zone) : Nat := (zs.objects z).count o

/-- The first object that is not listed exactly once in its zone. -/
def checkListed (zs : Zones) : List (ObjectId × Zone) → Except Failure Unit
  | [] => .ok ()
  | (o, z) :: rest =>
    if zs.timesListed o z = 1 then checkListed zs rest
    else .error (.listedTimes o (zs.timesListed o z) z)

/-- Every located object is listed once, in its zone, and no other object is listed. -/
def check (zs : Zones) : Except Failure Unit :=
  let listed := zs.contents.values.flatten.length
  if listed ≠ zs.total then .error (.listedOtherThanLocated listed zs.total)
  else checkListed zs zs.location.entries

end Zones

end CardGame
