/-!
Amounts are kept within the range of a signed 32-bit word: a result beyond an end of the range is
that end.
-/

namespace CardGame

/-- The largest amount. -/
def maxAmount : Int := 2147483647

/-- The smallest amount. -/
def minAmount : Int := -2147483648

/-- The amount nearest to a number. -/
def saturate (x : Int) : Int := max minAmount (min x maxAmount)

/-- A count as an amount. -/
def countAsAmount (n : Nat) : Int := min (n : Int) maxAmount

theorem saturate_of_mem {x : Int} (hlo : minAmount ≤ x) (hhi : x ≤ maxAmount) :
    saturate x = x := by
  simp only [saturate, minAmount, maxAmount] at *
  omega

theorem saturate_mem (x : Int) : minAmount ≤ saturate x ∧ saturate x ≤ maxAmount := by
  simp only [saturate, minAmount, maxAmount]
  omega

end CardGame
