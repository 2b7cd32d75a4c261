import CardGame.Proofs.Resolve.Plan

/-!
Effects in which nothing is optional. Where an effect asks whether a part of it happens, the
compulsory effect lets it happen.
-/

namespace CardGame

namespace Effect

mutual

/-- The effect with every optional part made to happen. -/
def compulsory : Effect → Effect
  | .continuous e => .continuous e
  | .permanent e => .permanent e
  | .removal e => .removal e
  | .damage e => .damage e
  | .library e => .library e
  | .composite es => .composite (compulsoryAll es)
  | .conditional c yes no => .conditional c (compulsory yes) (compulsoryOption no)
  | .may _ e => compulsory e
  | .modal modes fewest most => .modal (compulsoryModes modes) fewest most
  | .payOrSuffer selector cost suffer => .payOrSuffer selector cost (compulsory suffer)
  | .chooseTargets spec e => .chooseTargets spec (compulsory e)
  | .eachPlayerChooses selector choice => .eachPlayerChooses selector choice

def compulsoryAll : List Effect → List Effect
  | [] => []
  | e :: rest => compulsory e :: compulsoryAll rest

def compulsoryOption : Option Effect → Option Effect
  | none => none
  | some e => some (compulsory e)

def compulsoryModes : List (String × Effect) → List (String × Effect)
  | [] => []
  | (description, e) :: rest => (description, compulsory e) :: compulsoryModes rest

end

mutual

/-- How many parts of an effect are optional. -/
def mays : Effect → Nat
  | .continuous _ | .permanent _ | .removal _ | .damage _ | .library _ | .eachPlayerChooses _ _ => 0
  | .composite es => maysOfAll es
  | .conditional _ yes no => mays yes + maysOfOption no
  | .may _ e => mays e + 1
  | .modal modes _ _ => maysOfModes modes
  | .payOrSuffer _ _ suffer => mays suffer
  | .chooseTargets _ e => mays e

def maysOfAll : List Effect → Nat
  | [] => 0
  | e :: rest => mays e + maysOfAll rest

def maysOfOption : Option Effect → Nat
  | none => 0
  | some e => mays e

def maysOfModes : List (String × Effect) → Nat
  | [] => 0
  | (_, e) :: rest => mays e + maysOfModes rest

end

mutual

/-- What happens by choice lasts as long as what has to happen. -/
theorem durations_compulsory (e : Effect) : e.compulsory.durations = e.durations := by
  cases e with
  | composite es => exact durationsOfAll_compulsoryAll es
  | conditional c yes no =>
    rw [compulsory, durations, durations, durations_compulsory yes,
      durationsOfOption_compulsoryOption no]
  | may prompt e => exact durations_compulsory e
  | modal modes fewest most => exact durationsOfModes_compulsoryModes modes
  | payOrSuffer selector cost suffer => exact durations_compulsory suffer
  | chooseTargets spec e => exact durations_compulsory e
  | _ => rfl

theorem durationsOfAll_compulsoryAll (es : List Effect) :
    durationsOfAll (compulsoryAll es) = durationsOfAll es := by
  cases es with
  | nil => rfl
  | cons e rest =>
    rw [compulsoryAll, durationsOfAll, durationsOfAll, durations_compulsory e,
      durationsOfAll_compulsoryAll rest]

theorem durationsOfOption_compulsoryOption (e : Option Effect) :
    durationsOfOption (compulsoryOption e) = durationsOfOption e := by
  cases e with
  | none => rfl
  | some e => exact durations_compulsory e

theorem durationsOfModes_compulsoryModes (modes : List (String × Effect)) :
    durationsOfModes (compulsoryModes modes) = durationsOfModes modes := by
  cases modes with
  | nil => rfl
  | cons m rest =>
    obtain ⟨description, e⟩ := m
    rw [compulsoryModes, durationsOfModes, durationsOfModes, durations_compulsory e,
      durationsOfModes_compulsoryModes rest]

end

theorem compulsoryAll_ne_nil {es : List Effect} (h : es ≠ []) : compulsoryAll es ≠ [] := by
  cases es with
  | nil => exact absurd rfl h
  | cons e rest => exact List.cons_ne_nil _ _

end Effect

end CardGame
