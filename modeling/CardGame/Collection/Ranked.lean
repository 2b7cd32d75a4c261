/-!
Keys with a total order. Every key has a rank, a list of numbers compared lexicographically, and
distinct keys have distinct ranks, so sorted collections of keys have one form only.
-/

namespace CardGame

/-- A type whose values are ordered by an injective rank. -/
class Ranked (κ : Type) where
  rank : κ → List Nat
  rank_inj : ∀ {a b : κ}, rank a = rank b → a = b

namespace Ranked

variable {κ : Type} [Ranked κ]

/-- Whether one key comes strictly before another. -/
def before (a b : κ) : Bool := decide (rank a < rank b)

theorem before_irrefl (a : κ) : before a a = false :=
  decide_eq_false (List.lt_irrefl _)

theorem before_trans {a b c : κ} (hab : before a b) (hbc : before b c) : before a c := by
  simp only [before, decide_eq_true_eq] at *
  exact List.lt_trans hab hbc

/-- Keys of which neither comes first are equal. -/
theorem eq_of_not_before {a b : κ} (hab : before a b = false) (hba : before b a = false) :
    a = b := by
  simp only [before, decide_eq_false_iff_not, List.not_lt] at *
  exact rank_inj (List.le_antisymm hba hab)

end Ranked

instance : Ranked Nat where
  rank n := [n]
  rank_inj h := by simpa using h

/-- Texts are ordered by their code points, which is also the order of their UTF-8 bytes. -/
instance : Ranked String where
  rank s := s.toList.map Char.toNat
  rank_inj h := String.toList_inj.1 ((List.map_inj_right fun _ _ => Char.toNat_inj.1).1 h)

end CardGame
