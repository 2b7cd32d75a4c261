import CardGame.Proofs.Game.Failing

/-!
Zones that are worked on. What an operation leaves behind, whether it succeeds or fails, is
consistent if the zones were (`Zones.Consistent.after`), and so is what a series of operations
leaves. The check finds out exactly whether zones are consistent, so once passed it is passed for
good.
-/

namespace CardGame

namespace Zones

variable {zs : Zones}

/-- What can be done to zones. -/
inductive Operation where
  | add (o : ObjectId) (z : Zone) (p : Position)
  | remove (o : ObjectId)
  | move (o : ObjectId) (z : Zone) (p : Position)
  | reorder (z : Zone) (order : List ObjectId)
  | shuffle (z : Zone) (r : Random)

/-- The zones that an operation leaves behind, whether it succeeds or fails. -/
def after (zs : Zones) : Operation → Zones
  | .add o z p =>
    match zs.add o z p with
    | .ok added => added
    | .error _ => zs
  | .remove o => zs.remove o
  | .move o z p =>
    match Zones.move o z p zs with
    | .ok _ moved => moved
    | .error _ left => left
  | .reorder z order =>
    match zs.reorder z order with
    | .ok reordered => reordered
    | .error _ => zs
  | .shuffle z r => (zs.shuffle z r).1

/-- No operation makes zones inconsistent. A failed move may reorder the zone of the object, but
loses nothing. -/
theorem Consistent.after (h : zs.Consistent) (op : Operation) : (zs.after op).Consistent := by
  cases op with
  | add o z p =>
    simp only [Zones.after]
    split
    · next added hadd => exact h.add hadd
    · exact h
  | remove o => exact h.remove_eq o
  | move o z p =>
    simp only [Zones.after]
    split
    · next origin moved hmove => exact h.move hmove
    · next failure left hmove => exact (h.move_eq_error_iff.mp hmove).consistent h
  | reorder z order =>
    simp only [Zones.after]
    split
    · next reordered hreorder =>
      obtain ⟨-, hperm, rfl⟩ := reorder_eq_ok hreorder
      exact h.rearrange hperm
    · exact h
  | shuffle z r =>
    rcases zs.shuffle_cases z r with hsame | ⟨order, r', -, hperm, hshuffled⟩
    · rw [Zones.after, hsame]
      exact h
    · rw [Zones.after, hshuffled]
      exact h.rearrange hperm

theorem Consistent.afterAll (h : zs.Consistent) (ops : List Operation) :
    (ops.foldl Zones.after zs).Consistent := by
  induction ops generalizing zs with
  | nil => exact h
  | cons op rest ih => exact ih (h.after op)

/-- The check is passed by consistent zones only, and by all of them. -/
theorem check_eq_ok_iff : zs.check = .ok () ↔ zs.Consistent :=
  ⟨consistent_of_check, Consistent.check_eq_ok⟩

/-- Consistent zones list an object once where it is located and nowhere else. -/
theorem consistent_iff : zs.Consistent ↔
    (∀ o z, zs.zone? o = some z →
      (zs.objects z).count o = 1 ∧ ∀ z', z' ≠ z → o ∉ zs.objects z') ∧
    ∀ o z, o ∈ zs.objects z → zs.zone? o = some z := by
  constructor
  · intro h
    refine ⟨fun o z hzone => ⟨h.listedOnce hzone, fun z' hne hmem => ?_⟩, fun o z => h.located⟩
    exact hne (Option.some.inj ((h.located hmem).symm.trans hzone))
  · rintro ⟨honce, hlocated⟩
    exact ⟨fun hzone => (honce _ _ hzone).1, hlocated _ _⟩

/-- A zone that there is takes on the orders of what it lists and no other. -/
theorem exists_reorder_iff {z : Zone} {order : List ObjectId} (hknows : zs.knows z = true) :
    (∃ reordered, zs.reorder z order = .ok reordered) ↔ order.Perm (zs.objects z) := by
  constructor
  · rintro ⟨reordered, hreorder⟩
    exact (reorder_eq_ok hreorder).2.1.symm
  · intro hperm
    exact ⟨_, exists_reorder hknows hperm.symm⟩

/-- The check is passed if and only if every located object is listed once in its zone and in no
other, and every listed object is located there. Whatever is done to zones that pass it, successful
or not, they pass it afterwards. A zone that there is can be given an order if and only if it
rearranges what is there. -/
theorem check_exact (zs : Zones) :
    (zs.check = .ok () ↔
      (∀ o z, zs.zone? o = some z →
        (zs.objects z).count o = 1 ∧ ∀ z', z' ≠ z → o ∉ zs.objects z') ∧
      ∀ o z, o ∈ zs.objects z → zs.zone? o = some z) ∧
    (zs.check = .ok () → ∀ ops : List Operation, (ops.foldl after zs).check = .ok ()) ∧
    ∀ z order, zs.knows z = true →
      ((∃ reordered, zs.reorder z order = .ok reordered) ↔ order.Perm (zs.objects z)) := by
  refine ⟨check_eq_ok_iff.trans consistent_iff, fun hcheck ops => ?_, fun z order => ?_⟩
  · exact ((consistent_of_check hcheck).afterAll ops).check_eq_ok
  · exact exists_reorder_iff

/-- Of two cards in a hand, one cannot be moved to a zone that there is not, and stays in the hand.
After a shuffle it is taken out, and the other card is moved: the zones still pass the check. -/
theorem check_exact_of_two_cards : ∃ one two : Zones,
    (empty 2).add ⟨2⟩ (.hand ⟨0⟩) .top = .ok one ∧ one.add ⟨3⟩ (.hand ⟨0⟩) .top = .ok two ∧
    two.check = .ok () ∧
    let ops : List Operation := [.move ⟨2⟩ (.hand ⟨9⟩) .top, .shuffle (.hand ⟨0⟩) ⟨7, 0⟩,
      .remove ⟨2⟩, .move ⟨3⟩ (.exile ⟨0⟩) (.index 4)]
    (ops.foldl after two).check = .ok () ∧
    ∃ reordered, two.reorder (.hand ⟨0⟩) [⟨3⟩, ⟨2⟩] = .ok reordered := by
  refine ⟨_, _, rfl, rfl, by decide +kernel, ?_, ?_⟩
  · exact (check_exact _).2.1 (by decide +kernel) _
  · exact ((check_exact _).2.2 _ _ (by decide +kernel)).mpr (by decide +kernel)

end Zones

end CardGame
