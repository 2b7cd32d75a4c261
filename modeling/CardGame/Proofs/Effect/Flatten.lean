import CardGame.Effect.Basic

/-!
Effects without composites in composites. Splicing a composite into the composite that it is part
of, at any depth, gives an effect that reads the same to the players.
-/

namespace CardGame

namespace Effect

/-- The effects of a composite; any other effect is its own only part. -/
def parts : Effect → List Effect
  | .composite es => es
  | e => [e]

mutual

/-- The effect with every composite that is part of another spliced into it. -/
def flatten : Effect → Effect
  | .continuous e => .continuous e
  | .permanent e => .permanent e
  | .removal e => .removal e
  | .damage e => .damage e
  | .library e => .library e
  | .composite es => .composite (flattenAll es)
  | .conditional c yes no => .conditional c (flatten yes) (flattenOption no)
  | .may prompt e => .may prompt (flatten e)
  | .modal modes fewest most => .modal (flattenModes modes) fewest most
  | .payOrSuffer selector cost suffer => .payOrSuffer selector cost (flatten suffer)
  | .chooseTargets spec e => .chooseTargets spec (flatten e)
  | .eachPlayerChooses selector choice => .eachPlayerChooses selector choice

/-- Effects to be resolved one after the other, with the parts of composites in their place. -/
def flattenAll : List Effect → List Effect
  | [] => []
  | e :: rest => (flatten e).parts ++ flattenAll rest

def flattenOption : Option Effect → Option Effect
  | none => none
  | some e => some (flatten e)

def flattenModes : List (String × Effect) → List (String × Effect)
  | [] => []
  | (description, e) :: rest => (description, flatten e) :: flattenModes rest

end

theorem flattenAll_append (xs ys : List Effect) :
    flattenAll (xs ++ ys) = flattenAll xs ++ flattenAll ys := by
  induction xs with
  | nil => rfl
  | cons x xs ih => rw [List.cons_append, flattenAll, flattenAll, ih, List.append_assoc]

theorem flattenModes_eq_map (modes : List Mode) :
    flattenModes modes = modes.map fun m => (m.1, flatten m.2) := by
  induction modes with
  | nil => rfl
  | cons m rest ih => exact congrArg (_ :: ·) ih

/-- The parts of a flat effect are flat. -/
theorem flattenAll_parts {e : Effect} (h : flatten e = e) : flattenAll e.parts = e.parts := by
  cases e with
  | composite es => exact composite.inj h
  | _ =>
    change (flatten _).parts ++ [] = _
    rw [h, List.append_nil]

mutual

theorem flatten_flatten (e : Effect) : flatten (flatten e) = flatten e := by
  cases e with
  | composite es => exact congrArg composite (flattenAll_flattenAll es)
  | conditional c yes no =>
    rw [flatten, flatten, flatten_flatten yes, flattenOption_flattenOption no]
  | may prompt e => exact congrArg (may prompt) (flatten_flatten e)
  | modal modes fewest most =>
    exact congrArg (modal · fewest most) (flattenModes_flattenModes modes)
  | payOrSuffer selector cost suffer =>
    exact congrArg (payOrSuffer selector cost) (flatten_flatten suffer)
  | chooseTargets spec e => exact congrArg (chooseTargets spec) (flatten_flatten e)
  | _ => rfl

theorem flattenAll_flattenAll (es : List Effect) : flattenAll (flattenAll es) = flattenAll es := by
  cases es with
  | nil => rfl
  | cons e rest =>
    rw [flattenAll, flattenAll_append, flattenAll_parts (flatten_flatten e),
      flattenAll_flattenAll rest]

theorem flattenOption_flattenOption (e : Option Effect) :
    flattenOption (flattenOption e) = flattenOption e := by
  cases e with
  | none => rfl
  | some e => exact congrArg some (flatten_flatten e)

theorem flattenModes_flattenModes (modes : List (String × Effect)) :
    flattenModes (flattenModes modes) = flattenModes modes := by
  cases modes with
  | nil => rfl
  | cons m rest =>
    obtain ⟨description, e⟩ := m
    rw [flattenModes, flattenModes, flatten_flatten e, flattenModes_flattenModes rest]

end

theorem flattenAll_map_flatten (es : List Effect) :
    flattenAll (es.map flatten) = flattenAll es := by
  induction es with
  | nil => rfl
  | cons e rest ih => rw [List.map_cons, flattenAll, flattenAll, flatten_flatten, ih]

mutual

/-- No part of a flat composite is a composite. -/
theorem parts_of_mem_flatten (e : Effect) : ∀ e' ∈ (flatten e).parts, e'.parts = [e'] := by
  cases e with
  | composite es => exact parts_of_mem_flattenAll es
  | _ =>
    intro e' he'
    rw [List.mem_singleton.mp he']
    rfl

theorem parts_of_mem_flattenAll (es : List Effect) : ∀ e' ∈ flattenAll es, e'.parts = [e'] := by
  cases es with
  | nil =>
    intro e' he'
    cases he'
  | cons e rest =>
    intro e' he'
    rcases List.mem_append.mp he' with hfirst | hrest
    · exact parts_of_mem_flatten e e' hfirst
    · exact parts_of_mem_flattenAll rest e' hrest

end

end Effect

end CardGame
