import CardGame.Projection.View

/-!
What an expression reads. Amounts and conditions contain each other, but in the end they are made of
measures and facts, and a card test is made of card facts. A view that answers these answers the
whole, so that two views that agree on what an expression reads give it the same value.
-/

namespace CardGame

/-- A part of an expression that is read off the game. -/
inductive Reading where
  | measure (m : Measure)
  | fact (f : GameFact)

mutual

/-- What an amount reads off the game. -/
def Amount.readings : Amount → List Reading
  | .measure m => [.measure m]
  | .join _ a b => a.readings ++ b.readings
  | .times a _ | .nonNegative a => a.readings
  | .cases c a b => c.readings ++ (a.readings ++ b.readings)

/-- What a condition reads off the game. -/
def Condition.readings : Condition → List Reading
  | .all cs | .any cs => Condition.readingsOfAll cs
  | .not c => c.readings
  | .compare a _ b => a.readings ++ b.readings
  | .fact f => [.fact f]

def Condition.readingsOfAll : List Condition → List Reading
  | [] => []
  | c :: cs => c.readings ++ Condition.readingsOfAll cs

end

namespace View

variable {v w : View} {ctx : Context}

/-- Two views read the same off their games. -/
def AgreesOn (v w : View) (ctx : Context) : Reading → Prop
  | .measure m => v.measure ctx m = w.measure ctx m
  | .fact f => v.gameFactHolds ctx f = w.gameFactHolds ctx f

mutual

/-- Views that agree on what an amount reads give it the same value. -/
theorem evaluate_congr (a : Amount) (h : ∀ r ∈ a.readings, v.AgreesOn w ctx r) :
    v.evaluate ctx a = w.evaluate ctx a := by
  cases a with
  | measure m => exact h (.measure m) List.mem_cons_self
  | join op a b =>
    obtain ⟨ha, hb⟩ := List.forall_mem_append.mp h
    rw [evaluate, evaluate, evaluate_congr a ha, evaluate_congr b hb]
  | times a factor => rw [evaluate, evaluate, evaluate_congr a h]
  | nonNegative a => rw [evaluate, evaluate, evaluate_congr a h]
  | cases c a b =>
    obtain ⟨hc, hab⟩ := List.forall_mem_append.mp h
    obtain ⟨ha, hb⟩ := List.forall_mem_append.mp hab
    rw [evaluate, evaluate, holds_congr c hc, evaluate_congr a ha, evaluate_congr b hb]

/-- Views that agree on what a condition reads agree on whether it holds. -/
theorem holds_congr (c : Condition) (h : ∀ r ∈ c.readings, v.AgreesOn w ctx r) :
    v.holds ctx c = w.holds ctx c := by
  cases c with
  | all cs => rw [holds, holds, holdAll_congr cs h]
  | any cs => rw [holds, holds, holdAny_congr cs h]
  | not c => rw [holds, holds, holds_congr c h]
  | compare a op b =>
    obtain ⟨ha, hb⟩ := List.forall_mem_append.mp h
    rw [holds, holds, evaluate_congr a ha, evaluate_congr b hb]
  | fact f => exact h (.fact f) List.mem_cons_self

theorem holdAll_congr (cs : List Condition)
    (h : ∀ r ∈ Condition.readingsOfAll cs, v.AgreesOn w ctx r) :
    v.holdAll ctx cs = w.holdAll ctx cs := by
  cases cs with
  | nil => rfl
  | cons c cs =>
    obtain ⟨hc, hcs⟩ := List.forall_mem_append.mp h
    rw [holdAll, holdAll, holds_congr c hc, holdAll_congr cs hcs]

theorem holdAny_congr (cs : List Condition)
    (h : ∀ r ∈ Condition.readingsOfAll cs, v.AgreesOn w ctx r) :
    v.holdAny ctx cs = w.holdAny ctx cs := by
  cases cs with
  | nil => rfl
  | cons c cs =>
    obtain ⟨hc, hcs⟩ := List.forall_mem_append.mp h
    rw [holdAny, holdAny, holds_congr c hc, holdAny_congr cs hcs]

end

section

variable {c : Characteristics} {o : ObjectId}

mutual

/-- Views that agree on the facts about an object agree on every test of it. -/
theorem cardPasses_congr (h : v.factHolds c o = w.factHolds c o) :
    ∀ t, v.cardPasses c o t = w.cardPasses c o t
  | .fact f => congrFun h f
  | .all ts => by rw [cardPasses, cardPasses, cardPassesAll_congr h ts]
  | .any ts => by rw [cardPasses, cardPasses, cardPassesAny_congr h ts]
  | .not t => by rw [cardPasses, cardPasses, cardPasses_congr h t]

theorem cardPassesAll_congr (h : v.factHolds c o = w.factHolds c o) :
    ∀ ts, v.cardPassesAll c o ts = w.cardPassesAll c o ts
  | [] => rfl
  | t :: ts => by
    rw [cardPassesAll, cardPassesAll, cardPasses_congr h t, cardPassesAll_congr h ts]

theorem cardPassesAny_congr (h : v.factHolds c o = w.factHolds c o) :
    ∀ ts, v.cardPassesAny c o ts = w.cardPassesAny c o ts
  | [] => rfl
  | t :: ts => by
    rw [cardPassesAny, cardPassesAny, cardPasses_congr h t, cardPassesAny_congr h ts]

end

end

end View

end CardGame
