import CardGame.Effect.Kind
import CardGame.Suspension

/-!
What is left to chance. Libraries are shuffled and cards discarded at random by three kinds of
effects only, and a search shuffles once more when it is answered.
-/

namespace CardGame

/-- Whether effects of a kind shuffle or pick at random. -/
def EffectKind.isRandom : EffectKind → Bool
  | .shuffleLibrary | .searchLibrary | .discardAtRandom => true
  | _ => false

namespace Effect

mutual

/-- Whether an effect is of a kind that shuffles or picks at random, or has such an effect in it. -/
def isRandom : Effect → Bool
  | .composite es => isRandomAmong es
  | .conditional _ yes no => isRandom yes || isRandomOption no
  | .may _ e => isRandom e
  | .modal modes _ _ => isRandomMode modes
  | .payOrSuffer _ _ suffer => isRandom suffer
  | .chooseTargets _ e => isRandom e
  | e => e.kind.isRandom

def isRandomAmong : List Effect → Bool
  | [] => false
  | e :: rest => isRandom e || isRandomAmong rest

def isRandomOption : Option Effect → Bool
  | none => false
  | some e => isRandom e

def isRandomMode : List (String × Effect) → Bool
  | [] => false
  | (_, e) :: rest => isRandom e || isRandomMode rest

end

theorem isRandomAmong_eq_any (es : List Effect) : isRandomAmong es = es.any isRandom := by
  induction es with
  | nil => rfl
  | cons e rest ih => rw [isRandomAmong, ih, List.any_cons]

theorem isRandomMode_eq_any (modes : List (String × Effect)) :
    isRandomMode modes = modes.any fun mode => isRandom mode.2 := by
  induction modes with
  | nil => rfl
  | cons mode rest ih => rw [isRandomMode, ih, List.any_cons]

end Effect

/-- Whether suspended work shuffles or picks at random, or has an effect in it that does. -/
def Suspension.isRandom : Suspension → Bool
  | .search .. => true
  | .effects es _ => Effect.isRandomAmong es
  | .may e _ | .payOrSuffer _ _ e _ | .chooseTargets e _ => e.isRandom
  | .modal modes _ => Effect.isRandomMode modes
  | _ => false

end CardGame
