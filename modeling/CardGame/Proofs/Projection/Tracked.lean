import CardGame.Play
import CardGame.Proofs.Projection.Readings

/-!
What the game does not track. A view answers for damage dealt earlier in the turn, of which there is
no record, and an expression is said to be tracked if it does not ask. The flag is worked out on the
syntax alone, through amounts, conditions and filters that contain each other. It is off exactly if
one of the readings of the expression asks for that record, so a tracked expression has the same
value whatever the record would say.
-/

namespace CardGame

/-- Whether the game tracks what is read. -/
def Reading.isTracked : Reading → Bool
  | .measure m => m.isTracked
  | .fact f => f.isTracked

mutual

/-- An amount is tracked if all that it reads is. -/
theorem Amount.isTracked_eq_all (a : Amount) : a.isTracked = a.readings.all Reading.isTracked := by
  cases a with
  | measure m => exact (Bool.and_true _).symm
  | join op a b =>
    rw [Amount.isTracked, Amount.readings, List.all_append, Amount.isTracked_eq_all a,
      Amount.isTracked_eq_all b]
  | times a factor => rw [Amount.isTracked, Amount.readings, Amount.isTracked_eq_all a]
  | nonNegative a => rw [Amount.isTracked, Amount.readings, Amount.isTracked_eq_all a]
  | cases c a b =>
    rw [Amount.isTracked, Amount.readings, List.all_append, List.all_append,
      Condition.isTracked_eq_all c, Amount.isTracked_eq_all a, Amount.isTracked_eq_all b,
      Bool.and_assoc]

/-- A condition is tracked if all that it reads is. -/
theorem Condition.isTracked_eq_all (c : Condition) :
    c.isTracked = c.readings.all Reading.isTracked := by
  cases c with
  | all cs => rw [Condition.isTracked, Condition.readings, Condition.allTracked_eq_all cs]
  | any cs => rw [Condition.isTracked, Condition.readings, Condition.allTracked_eq_all cs]
  | not c => rw [Condition.isTracked, Condition.readings, Condition.isTracked_eq_all c]
  | compare a op b =>
    rw [Condition.isTracked, Condition.readings, List.all_append, Amount.isTracked_eq_all a,
      Amount.isTracked_eq_all b]
  | fact f => exact (Bool.and_true _).symm

theorem Condition.allTracked_eq_all (cs : List Condition) :
    Condition.allTracked cs = (Condition.readingsOfAll cs).all Reading.isTracked := by
  cases cs with
  | nil => rfl
  | cons c cs =>
    rw [Condition.allTracked, Condition.readingsOfAll, List.all_append,
      Condition.isTracked_eq_all c, Condition.allTracked_eq_all cs]

end

namespace View

/-- The same view with other answers about damage dealt earlier in the turn. -/
def recalling (v : View) (u : UnrecordedDamage) : View := { v with unrecorded := u }

variable (v : View) (u u' : UnrecordedDamage)

theorem statusPasses_recalling {t : StatusTest} (h : t.isTracked = true) (o : ObjectId) :
    (v.recalling u).statusPasses o t = (v.recalling u').statusPasses o t := by
  cases t with
  | wasDealtDamageThisTurn | dealtDamageThisTurn => cases h
  | _ => rfl

theorem accepts_recalling {f : ObjectFilter} (h : f.isTracked = true) :
    (v.recalling u).accepts f = (v.recalling u').accepts f := by
  funext ctx o
  have hlook : (v.recalling u).characteristics? o = (v.recalling u').characteristics? o := rfl
  have hcard (c : Characteristics) :
      (v.recalling u).cardPasses c o = (v.recalling u').cardPasses c o :=
    funext (cardPasses_congr rfl)
  have hcontrol (c : Characteristics) :
      (v.recalling u).controlPasses c ctx = (v.recalling u').controlPasses c ctx := rfl
  have hstatus : f.status.all ((v.recalling u).statusPasses o) =
      f.status.all ((v.recalling u').statusPasses o) := by
    rw [Bool.eq_iff_iff, List.all_eq_true, List.all_eq_true]
    refine forall₂_congr fun t ht => ?_
    rw [statusPasses_recalling v u u' (List.all_eq_true.mp h t ht)]
  simp only [accepts, hlook, hcard, hcontrol, hstatus]

theorem countMatching_recalling {f : ObjectFilter} (h : f.isTracked = true) (ctx : Context)
    (players : List Seat) (zone : ZoneKind) :
    (v.recalling u).countMatching ctx players zone f =
      (v.recalling u').countMatching ctx players zone f := by
  have hobjects : (v.recalling u).objectsOf = (v.recalling u').objectsOf := rfl
  simp only [countMatching, select, accepts_recalling v u u' h, hobjects]

/-- What is tracked is read without the record. -/
theorem agreesOn_recalling {r : Reading} (h : r.isTracked = true) (ctx : Context) :
    (v.recalling u).AgreesOn (v.recalling u') ctx r := by
  cases r with
  | measure m =>
    cases m with
    | damageDealtThisTurn object => cases h
    | count players zone f =>
      have hcount := countMatching_recalling v u u' h ctx (v.players ctx players) zone
      exact congrArg countAsAmount hcount
    | _ => rfl
  | fact f =>
    cases f with
    | controlsMatching players f count =>
      have hcount := countMatching_recalling v u u' h ctx (v.players ctx players) .battlefield
      exact congrArg (fun n => decide ((count : Int) ≤ countAsAmount n)) hcount
    | _ => rfl

/-- Whatever the game would have recorded of damage dealt earlier in the turn, amounts, conditions
and filters that are said to be tracked come to the same. -/
theorem same_of_isTracked (v : View) (u u' : UnrecordedDamage) :
    (∀ a : Amount, a.isTracked = true → ∀ ctx,
      (v.recalling u).evaluate ctx a = (v.recalling u').evaluate ctx a) ∧
    (∀ c : Condition, c.isTracked = true → ∀ ctx,
      (v.recalling u).holds ctx c = (v.recalling u').holds ctx c) ∧
    ∀ f : ObjectFilter, f.isTracked = true → ∀ ctx o,
      (v.recalling u).accepts f ctx o = (v.recalling u').accepts f ctx o := by
  refine ⟨fun a htracked ctx => ?_, fun c htracked ctx => ?_, fun f htracked ctx o => ?_⟩
  · rw [Amount.isTracked_eq_all] at htracked
    refine evaluate_congr a fun r hr => ?_
    exact agreesOn_recalling v u u' (List.all_eq_true.mp htracked r hr) ctx
  · rw [Condition.isTracked_eq_all] at htracked
    refine holds_congr c fun r hr => ?_
    exact agreesOn_recalling v u u' (List.all_eq_true.mp htracked r hr) ctx
  · rw [accepts_recalling v u u' htracked]

/-- Twice the untapped creatures you control if there is one, else nothing. -/
def herd : Amount :=
  let untapped := ObjectFilter.creature.withStatus .untapped
  .cases (.any [.fact (.controlsMatching .you untapped 1)]) (.times (.countYouControl untapped) 2)
    (.fixed 0)

/-- An amount that asks about untapped creatures only does not depend on past damage; what a
creature dealt this turn does. -/
theorem same_of_isTracked_herd : ∃ g₀ g, Game.start {} = .ok g₀ ∧
    Game.spawnCard (.creature ⟨7⟩ "Bear" 2 2) ⟨0⟩ .battlefield g₀ = .ok ⟨2⟩ g ∧
    herd.isTracked = true ∧ ∀ u : UnrecordedDamage,
      (recalling { game := g } u).evaluate {} herd = 2 ∧
      (recalling { game := g } u).evaluate {} (.measure (.damageDealtThisTurn .source)) =
        u.amount := by
  refine ⟨_, _, rfl, rfl, by decide, fun u => ⟨?_, rfl⟩⟩
  rw [(same_of_isTracked _ u {}).1 herd (by decide) {}]
  decide +kernel

end View

end CardGame
