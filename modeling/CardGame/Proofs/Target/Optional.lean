import CardGame.Proofs.Target.Selection

/-!
Targets that may be left out. The mark brings the lower bound of a spec down to nothing, so that
with it the spec accepts not only the empty selection and what it accepts without it, but also what
is too small for that: fewer different legal targets than it asks for. There are such selections as
soon as more than one target has to be chosen and one is there.
-/

namespace CardGame

namespace Question.Selects

variable {α : Type} {offered chosen : List α} {fewest most : Nat}

/-- Without a lower bound, what is too small for the bound is selected as well. -/
theorem zero_iff (hordered : fewest ≤ most) : Selects offered 0 most chosen ↔
    Selects offered fewest most chosen ∨
      chosen.length < fewest ∧ chosen.Nodup ∧ chosen ⊆ offered := by
  constructor
  · intro h
    rcases Nat.lt_or_ge chosen.length fewest with hfew | henough
    · exact .inr ⟨hfew, h.once, h.among⟩
    · exact .inl ⟨henough, h.notTooMany, h.once, h.among⟩
  · rintro (h | ⟨hfew, honce, hamong⟩)
    · exact ⟨Nat.zero_le _, h.notTooMany, h.once, h.among⟩
    · exact ⟨Nat.zero_le _, Nat.le_trans (Nat.le_of_lt hfew) hordered, honce, hamong⟩

end Question.Selects

theorem TargetSpec.bounds_optional (r : Requirement) (count : TargetCount) (available : Nat) :
    bounds { requirement := r, count, optional := true } available =
      (0, (bounds { requirement := r, count } available).2) := by
  simp [bounds]

namespace View

variable {v : View} {ctx : Context} {r : Requirement} {count : TargetCount}

theorem acceptsSelection_optional_nil :
    v.acceptsSelection ctx { requirement := r, count, optional := true } [] = true := by
  rw [acceptsSelection_iff, TargetSpec.bounds_optional]
  exact ⟨Nat.le_refl 0, Nat.zero_le _, List.nodup_nil, List.nil_subset _⟩

theorem acceptsSelection_optional_iff {chosen : List ObjectId} :
    let legal := v.legalTargets ctx r
    v.acceptsSelection ctx { requirement := r, count, optional := true } chosen = true ↔
      v.acceptsSelection ctx { requirement := r, count } chosen = true ∨
        chosen.length < (TargetSpec.bounds { requirement := r, count } legal.length).1 ∧
          chosen.Nodup ∧ chosen ⊆ legal := by
  rw [acceptsSelection_iff, acceptsSelection_iff, TargetSpec.bounds_optional]
  exact Question.Selects.zero_iff (TargetSpec.fewest_le_most _ _)

/-- Nothing but the empty selection is accepted in addition if and only if not more than one target
has to be chosen or there is none. -/
theorem only_empty_added_iff :
    let legal := v.legalTargets ctx r
    (∀ chosen, v.acceptsSelection ctx { requirement := r, count, optional := true } chosen = true ↔
      chosen = [] ∨ v.acceptsSelection ctx { requirement := r, count } chosen = true) ↔
    (TargetSpec.bounds { requirement := r, count } legal.length).1 ≤ 1 ∨ legal = [] := by
  intro legal
  constructor
  · intro honly
    by_contra hnot
    obtain ⟨hmany, hsome⟩ := not_or.mp hnot
    -- a single legal target is not enough where more have to be chosen
    obtain ⟨o, ho⟩ := List.exists_mem_of_ne_nil legal hsome
    have hone : v.acceptsSelection ctx { requirement := r, count, optional := true } [o] = true :=
      acceptsSelection_optional_iff.mpr (.inr ⟨Nat.lt_of_not_le hmany, List.nodup_singleton o,
        List.cons_subset.mpr ⟨ho, List.nil_subset _⟩⟩)
    rcases (honly [o]).mp hone with hnil | hcompulsory
    · cases hnil
    · exact hmany (acceptsSelection_iff.mp hcompulsory).enough
  · intro hfew chosen
    constructor
    · intro haccepts
      rcases acceptsSelection_optional_iff.mp haccepts with hcompulsory | ⟨hsmall, -, hamong⟩
      · exact .inr hcompulsory
      · rcases hfew with hone | hnone
        · have hempty : chosen.length = 0 := Nat.lt_one_iff.mp (Nat.lt_of_lt_of_le hsmall hone)
          exact .inl (List.length_eq_zero_iff.mp hempty)
        · exact .inl (List.subset_nil.mp (hnone ▸ hamong))
    · rintro (rfl | hcompulsory)
      · exact acceptsSelection_optional_nil
      · exact acceptsSelection_optional_iff.mpr (.inl hcompulsory)

/-- If targets may be left out, the empty selection is accepted, so is what is accepted if they may
not, and so are selections of different legal targets that are too small for that. Apart from the
empty one there are such selections unless not more than one target has to be chosen or there is
none. -/
theorem acceptsSelection_optional (v : View) (ctx : Context) (r : Requirement)
    (count : TargetCount) :
    let compulsory : TargetSpec := { requirement := r, count }
    let optional : TargetSpec := { requirement := r, count, optional := true }
    let legal := v.legalTargets ctx r
    let fewest := (compulsory.bounds legal.length).1
    (∀ chosen, v.acceptsSelection ctx optional chosen = true ↔
      chosen = [] ∨ v.acceptsSelection ctx compulsory chosen = true ∨
        chosen ≠ [] ∧ chosen.length < fewest ∧ chosen.Nodup ∧ chosen ⊆ legal) ∧
    ((∀ chosen, v.acceptsSelection ctx optional chosen = true ↔
        chosen = [] ∨ v.acceptsSelection ctx compulsory chosen = true) ↔
      fewest ≤ 1 ∨ legal = []) := by
  intro compulsory optional legal fewest
  refine ⟨fun chosen => ⟨fun haccepts => ?_, ?_⟩, only_empty_added_iff⟩
  · rcases acceptsSelection_optional_iff.mp haccepts with hcompulsory | hsmall
    · exact .inr (.inl hcompulsory)
    · by_cases hnil : chosen = []
      · exact .inl hnil
      · exact .inr (.inr ⟨hnil, hsmall⟩)
  · rintro (rfl | hcompulsory | ⟨-, hsmall⟩)
    · exact acceptsSelection_optional_nil
    · exact acceptsSelection_optional_iff.mpr (.inl hcompulsory)
    · exact acceptsSelection_optional_iff.mpr (.inr hsmall)

/-- Where two players have to be chosen and may be left out, one of the two at the table is
accepted. -/
theorem not_only_empty_added : ¬ ∀ (g : Game) (rules : Rules) (ctx : Context) (r : Requirement)
    (count : TargetCount) (chosen : List ObjectId), g.Reachable →
    ((rules.view g).acceptsSelection ctx { requirement := r, count, optional := true } chosen =
        true ↔
      chosen = [] ∨
        (rules.view g).acceptsSelection ctx { requirement := r, count } chosen = true) := by
  intro h
  have hsame := h _ {} {} (.player .anyone) (.exactly 2) [⟨0⟩] (.start (s := {}) rfl)
  revert hsame
  decide +kernel

end View

end CardGame
