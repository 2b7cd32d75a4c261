import CardGame.Resolve.Answer

/-!
Which failures the readings of answers, divisions and zones find. None of them says that the caller
has lost track of the pending decision or that an answer has set too much going: only the order of
calls gives rise to those.
-/

namespace CardGame

/-- A computation that fails, if it does, with a failure that has some property. -/
structure FailsOnly (P : Failure → Prop) {α : Type} (r : Except Failure α) : Prop where
  fault : ∀ failure, r = .error failure → P failure

namespace FailsOnly

variable {P : Failure → Prop} {α β : Type}

theorem ok (a : α) : FailsOnly P (.ok a) :=
  ⟨fun _ h => nomatch h⟩

theorem error {failure : Failure} (hfailure : P failure) :
    FailsOnly P (.error failure : Except Failure α) := by
  refine ⟨fun failure' h => ?_⟩
  cases h
  exact hfailure

theorem ite {c : Prop} [Decidable c] {r r' : Except Failure α} (hyes : FailsOnly P r)
    (hno : FailsOnly P r') : FailsOnly P (if c then r else r') := by
  split
  · exact hyes
  · exact hno

theorem bind {r : Except Failure α} {k : α → Except Failure β} (hr : FailsOnly P r)
    (hk : ∀ a, FailsOnly P (k a)) : FailsOnly P (r >>= k) := by
  refine ⟨fun failure h => ?_⟩
  cases r with
  | error failure' =>
    cases h
    exact hr.fault _ rfl
  | ok a => exact (hk a).fault _ h

end FailsOnly

/-- Whether a failure is about the calls made: the caller has lost track of the pending decision, or
an answer has set too much going. -/
def Failure.isOfCalls (f : Failure) : Bool :=
  match f.category with
  | .noDecisionPending | .decisionPending | .nothingToResume | .otherDecisionPending
  | .chainTooLong => true
  | _ => false

/-- A computation that never fails on account of the calls made. -/
abbrev Plain {α : Type} (r : Except Failure α) : Prop := FailsOnly (·.isOfCalls = false) r

theorem PlayerChoice.plain_pickOf (q : Question) (a : Answer) : Plain (pickOf q a) := by
  unfold pickOf
  split
  · exact .ok _
  · split
    · exact .ok _
    · exact .error rfl
  · exact .error rfl

theorem Suspension.plain_modeEffects (modes : List Mode) (chosen : List Nat) :
    Plain (modeEffects modes chosen) := by
  induction chosen with
  | nil => exact .ok _
  | cons i rest ih =>
    unfold modeEffects
    split
    · exact .error rfl
    · exact ih.bind fun _ => .ok _

namespace DamageEffect

theorem plain_checkShares (division : SortedMap ObjectId Int) (os : List ObjectId) :
    Plain (checkShares division os) := by
  induction os with
  | nil => exact .ok ()
  | cons o rest ih =>
    unfold checkShares
    split
    · exact .error rfl
    · exact .ite ih (.error rfl)

theorem plain_checkDivision (division : SortedMap ObjectId Int) (targets : List ObjectId)
    (total : Int) : Plain (checkDivision division targets total) := by
  have hstray (o : ObjectId) : Plain (throw (.strayDamage o) : Except Failure Unit) := .error rfl
  unfold checkDivision
  cases division.keys.find? (!targets.contains ·) with
  | some stray => exact ⟨fun failure h => (hstray stray).fault failure h⟩
  | none =>
    refine (plain_checkShares division targets).bind fun _ => ?_
    cases sumShares division.values 0 with
    | none => exact .error rfl
    | some sum => exact .ite (.error rfl) (.ok ())

end DamageEffect

namespace Zones

theorem plain_add (zs : Zones) (o : ObjectId) (z : Zone) (p : Position) : Plain (zs.add o z p) := by
  unfold add
  split
  · exact .error rfl
  · exact .error rfl
  · exact .ok _

theorem plain_reorder (zs : Zones) (z : Zone) (order : List ObjectId) :
    Plain (zs.reorder z order) := by
  unfold reorder
  split
  · exact .error rfl
  · exact .ite (.ok _) (.error rfl)

end Zones

end CardGame
