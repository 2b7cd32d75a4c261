import CardGame.Identity

/-!
The zones of the game. Every player owns one zone of each kind.
-/

namespace CardGame

inductive ZoneKind where
  | library | hand | graveyard | battlefield | stack | exile
deriving DecidableEq

namespace ZoneKind

def all : List ZoneKind := [.library, .hand, .graveyard, .battlefield, .stack, .exile]

def name : ZoneKind → String
  | .library => "Library"
  | .hand => "Hand"
  | .graveyard => "Graveyard"
  | .battlefield => "Battlefield"
  | .stack => "Stack"
  | .exile => "Exile"

theorem mem_all (k : ZoneKind) : k ∈ all := by cases k <;> simp [all]

end ZoneKind

/-- One player's zone of one kind. -/
structure Zone where
  owner : Seat
  kind : ZoneKind
deriving DecidableEq

namespace Zone

def library (owner : Seat) : Zone := ⟨owner, .library⟩
def hand (owner : Seat) : Zone := ⟨owner, .hand⟩
def graveyard (owner : Seat) : Zone := ⟨owner, .graveyard⟩
def battlefield (owner : Seat) : Zone := ⟨owner, .battlefield⟩
def exile (owner : Seat) : Zone := ⟨owner, .exile⟩

instance : ToString Zone := ⟨fun z => toString z.owner ++ "'s " ++ z.kind.name⟩

end Zone

/-- Where in a zone an object is put. Index 0 is the bottom. -/
inductive Position where
  | top
  | bottom
  | index (n : Nat)
deriving DecidableEq

instance : Ranked ZoneKind where
  rank k := [k.ctorIdx]
  rank_inj {a b} h := by cases a <;> cases b <;> first | rfl | cases h

/-- Zones are ordered by owner, then by kind. -/
instance : Ranked Zone where
  rank z := [z.owner.index, z.kind.ctorIdx]
  rank_inj {a b} h := by
    obtain ⟨⟨i⟩, k⟩ := a
    obtain ⟨⟨j⟩, l⟩ := b
    simp only [List.cons.injEq, and_true] at h
    obtain ⟨rfl, hk⟩ := h
    have : k = l := Ranked.rank_inj (κ := ZoneKind) (congrArg (fun n => [n]) hk)
    rw [this]

end CardGame
