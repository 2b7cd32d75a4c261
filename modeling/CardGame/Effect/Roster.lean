import CardGame.Settings

/-!
Rosters say which families of effects a set of rules resolves. Rules that play the whole game need
every family.
-/

namespace CardGame

/-- The families taken up so far. -/
structure Roster where
  families : List Family := []
deriving DecidableEq

namespace Roster

/-- The roster of every family. -/
def standard : Roster := ⟨Family.all⟩

/-- Takes up a family. -/
def add (r : Roster) (f : Family) : Roster :=
  if r.families.contains f then r else ⟨r.families ++ [f]⟩

/-- The family that resolves a kind of effect. -/
def family? (r : Roster) (k : EffectKind) : Option Family :=
  r.families.find? (·.kinds.contains k)

def require (r : Roster) (k : EffectKind) : Except Failure Family :=
  match r.family? k with
  | some f => .ok f
  | none => .error (.unresolvedKind k)

/-- The kinds of effects that the roster resolves, in order. -/
def kinds (r : Roster) : List EffectKind := EffectKind.all.filter fun k => (r.family? k).isSome

/-- Fails on the first kind that no family of the roster resolves. -/
def check (r : Roster) : Except Failure Unit :=
  match EffectKind.all.find? (fun k => (r.family? k).isNone) with
  | some k => .error (.unresolvedKind k)
  | none => .ok ()

/-- The given settings are usable and the roster is complete. -/
def checkRules (r : Roster) (rules : Rules) : Except Failure Unit := do
  rules.check
  r.check

end Roster

end CardGame
