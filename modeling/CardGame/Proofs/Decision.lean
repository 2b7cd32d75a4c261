import CardGame.Decision.Check
import CardGame.Proofs.Collection
import CardGame.Proofs.Failure
import Mathlib.Algebra.GroupWithZero.Nat
import Mathlib.Data.List.Dedup
import Mathlib.Data.List.Perm.Basic

/-!
Which answers fit a question. `Question.Accepts` says so without the order in which an answer is
examined, and `Question.check` lets exactly these answers pass. What it turns down, it turns down
for a fault of the answer: for its shape if that is wrong, and otherwise because something is out of
bounds (`Question.Judged`). A fair question leaves its player an answer that fits.
-/

namespace CardGame

/-- Whether a failure is the fault of an answer. -/
def Failure.isAnswerFault (f : Failure) : Bool :=
  match f.category with
  | .wrongAnswer | .outOfBounds => true
  | _ => false

namespace Question

/-- Some of what is offered, nothing twice, and as many as are asked for. -/
structure Selects {α : Type} (offered : List α) (fewest most : Nat) (chosen : List α) : Prop where
  enough : fewest ≤ chosen.length
  notTooMany : chosen.length ≤ most
  once : chosen.Nodup
  among : chosen ⊆ offered

/-- Shares for recipients only, at least the minimum for each, that add up to the total. -/
structure Divides (total : Nat) (recipients : List ObjectId) (minimum : Nat)
    (shares : SortedMap ObjectId Nat) : Prop where
  among : shares.keys ⊆ recipients
  enough : ∀ o ∈ recipients, minimum ≤ (shares.find? o).getD 0
  sum : shares.values.sum = total
  bounded : total ≤ maxTotal

/-- Whether an answer fits a question. -/
def Accepts : Question → Answer → Prop
  | .targets legal fewest most, .targets chosen => Selects legal fewest most chosen
  | .cards options fewest most _, .cards chosen => Selects options fewest most chosen
  | .yesNo, .yesNo _ => True
  | .modes descriptions fewest most, .modes chosen =>
    Selects (List.range descriptions.length) fewest most chosen
  | .color options, .color chosen => chosen ∈ options
  | .option options, .option index => index < options.length
  | .number fewest most, .number n => fewest ≤ n ∧ n ≤ most
  | .distribution total recipients minimum, .distribution shares =>
    Divides total recipients minimum shares
  | .order objects, .order chosen => Selects objects objects.length objects.length chosen
  | .piles objects, .firstPile chosen => chosen.Nodup ∧ chosen ⊆ objects
  | _, _ => False

theorem checkCount_eq_ok_iff {what : String} {chosen fewest most : Nat} :
    checkCount what chosen fewest most = .ok () ↔ fewest ≤ chosen ∧ chosen ≤ most := by
  unfold checkCount
  split
  · next hout =>
    have hwrong : chosen < fewest ∨ most < chosen := by simpa using hout
    simp only [reduceCtorEq, false_iff]
    omega
  · next hin =>
    have hright : fewest ≤ chosen ∧ chosen ≤ most := by simpa using hin
    simp [hright]

theorem checkChosen_eq_ok_iff {what : String} {offered chosen seen : List ObjectId} :
    checkChosen what offered chosen seen = .ok () ↔
      (chosen.Nodup ∧ ∀ o ∈ chosen, o ∉ seen) ∧ chosen ⊆ offered := by
  induction chosen generalizing seen with
  | nil => simp [checkChosen]
  | cons o rest ih =>
    unfold checkChosen
    split
    · next hout =>
      have hnot : o ∉ offered := by simpa using hout
      simp [hnot]
    · next hin =>
      have hoffered : o ∈ offered := by simpa using hin
      split
      · next hseen =>
        have hagain : o ∈ seen := by simpa using hseen
        simp [hagain]
      · next hnew =>
        have hfirst : o ∉ seen := by simpa using hnew
        rw [ih]
        simp only [List.nodup_cons, List.mem_cons, forall_eq_or_imp, List.cons_subset, not_or]
        grind

theorem checkModes_eq_ok_iff {modes : Nat} {chosen seen : List Nat} :
    checkModes modes chosen seen = .ok () ↔
      (chosen.Nodup ∧ ∀ m ∈ chosen, m ∉ seen) ∧ chosen ⊆ List.range modes := by
  induction chosen generalizing seen with
  | nil => simp [checkModes]
  | cons m rest ih =>
    unfold checkModes
    split
    · next hout =>
      have hnot : m ∉ List.range modes := by simpa using hout
      simp [hnot]
    · next hin =>
      have hmode : m < modes := by omega
      split
      · next hseen =>
        have hagain : m ∈ seen := by simpa using hseen
        simp [hagain]
      · next hnew =>
        have hfirst : m ∉ seen := by simpa using hnew
        rw [ih]
        simp only [List.nodup_cons, List.mem_cons, forall_eq_or_imp, List.cons_subset, not_or,
          List.mem_range]
        grind

theorem checkRecipients_eq_ok_iff {recipients os : List ObjectId} :
    checkRecipients recipients os = .ok () ↔ os ⊆ recipients := by
  induction os with
  | nil => simp [checkRecipients]
  | cons o rest ih =>
    unfold checkRecipients
    split
    · next hin =>
      have hmem : o ∈ recipients := by simpa using hin
      simp [ih, hmem]
    · next hout =>
      have hnot : o ∉ recipients := by simpa using hout
      simp [hnot]

theorem checkShares_eq_ok_iff {shares : SortedMap ObjectId Nat} {minimum : Nat}
    {os : List ObjectId} :
    checkShares shares minimum os = .ok () ↔ ∀ o ∈ os, minimum ≤ (shares.find? o).getD 0 := by
  induction os with
  | nil => simp [checkShares]
  | cons o rest ih =>
    unfold checkShares
    simp only
    split
    · next hsmall => simp [Nat.not_le.mpr hsmall]
    · next henough =>
      have hfirst : minimum ≤ (shares.find? o).getD 0 := Nat.le_of_not_lt henough
      simp [ih, hfirst]

private theorem andThen_eq_ok_iff {r r' : Except Failure Unit} :
    (r >>= fun _ => r') = .ok () ↔ r = .ok () ∧ r' = .ok () := by
  cases r with
  | error failure => simp [bind, Except.bind]
  | ok u => simp [bind, Except.bind]

/-- Added one by one, shares come to their sum, unless that is more than a word holds. -/
theorem addShares_eq {shares : List Nat} {before : Nat} (h : before ≤ maxTotal) :
    addShares shares before =
      if before + shares.sum ≤ maxTotal then some (before + shares.sum) else none := by
  induction shares generalizing before with
  | nil => exact (if_pos h).symm
  | cons share rest ih =>
    rw [addShares, List.sum_cons, ← Nat.add_assoc]
    split
    · next hfits => exact ih hfits
    · next hover =>
      -- What is over the limit stays over it.
      have htotal : ¬before + share + rest.sum ≤ maxTotal := by omega
      exact (if_neg htotal).symm

theorem checkSum_eq_ok_iff {total : Nat} {shares : List Nat} :
    checkSum total shares = .ok () ↔ shares.sum = total ∧ total ≤ maxTotal := by
  unfold checkSum
  rw [addShares_eq (Nat.zero_le _), Nat.zero_add]
  split
  · next hnone =>
    have hover : ¬shares.sum ≤ maxTotal := by simpa using hnone
    simp only [reduceCtorEq, false_iff]
    omega
  · next sum hsum =>
    obtain ⟨hfits, rfl⟩ : shares.sum ≤ maxTotal ∧ shares.sum = sum := by simpa using hsum
    split
    · next hwrong => simp [hwrong]
    · next hright =>
      have htotal : shares.sum = total := by simpa using hright
      simp [htotal, htotal ▸ hfits]

/-- The check lets pass the answers that fit. -/
theorem check_eq_ok_iff {q : Question} {a : Answer} : q.check a = .ok () ↔ q.Accepts a := by
  have hselects {α : Type} {offered chosen : List α} {fewest most : Nat} :
      ((fewest ≤ chosen.length ∧ chosen.length ≤ most) ∧
        (chosen.Nodup ∧ ∀ o ∈ chosen, o ∉ ([] : List α)) ∧ chosen ⊆ offered) ↔
          Selects offered fewest most chosen := by
    constructor
    · rintro ⟨⟨henough, hmost⟩, ⟨honce, -⟩, hamong⟩
      exact ⟨henough, hmost, honce, hamong⟩
    · rintro ⟨henough, hmost, honce, hamong⟩
      exact ⟨⟨henough, hmost⟩, ⟨honce, by simp⟩, hamong⟩
  cases q with
  | targets legal fewest most =>
    cases a with
    | targets chosen =>
      rw [check, andThen_eq_ok_iff, checkCount_eq_ok_iff, checkChosen_eq_ok_iff, hselects]
      rfl
    | _ => simp [check, Accepts]
  | cards options fewest most ordered =>
    cases a with
    | cards chosen =>
      rw [check, andThen_eq_ok_iff, checkCount_eq_ok_iff, checkChosen_eq_ok_iff, hselects]
      rfl
    | _ => simp [check, Accepts]
  | yesNo => cases a <;> simp [check, Accepts]
  | modes descriptions fewest most =>
    cases a with
    | modes chosen =>
      rw [check, andThen_eq_ok_iff, checkCount_eq_ok_iff, checkModes_eq_ok_iff, hselects]
      rfl
    | _ => simp [check, Accepts]
  | color options => cases a <;> simp [check, Accepts]
  | option options => cases a <;> simp [check, Accepts]
  | number fewest most => cases a <;> simp [check, Accepts]
  | distribution total recipients minimum =>
    cases a with
    | distribution shares =>
      simp only [check]
      rw [andThen_eq_ok_iff, andThen_eq_ok_iff, checkRecipients_eq_ok_iff, checkShares_eq_ok_iff,
        checkSum_eq_ok_iff]
      constructor
      · rintro ⟨hamong, henough, hsum, hbounded⟩
        exact ⟨hamong, henough, hsum, hbounded⟩
      · rintro ⟨hamong, henough, hsum, hbounded⟩
        exact ⟨hamong, henough, hsum, hbounded⟩
    | _ => simp [check, Accepts]
  | order objects =>
    cases a with
    | order chosen =>
      rw [check, andThen_eq_ok_iff, checkCount_eq_ok_iff, checkChosen_eq_ok_iff, hselects]
      rfl
    | _ => simp [check, Accepts]
  | piles objects =>
    cases a with
    | firstPile chosen =>
      rw [check, checkChosen_eq_ok_iff]
      simp [Accepts]
    | _ => simp [check, Accepts]

/-- Whether an answer has the shape that a question asks for. -/
def isAnsweredBy : Question → Answer → Bool
  | .targets .., .targets _ | .cards .., .cards _ | .yesNo, .yesNo _ | .modes .., .modes _
  | .color _, .color _ | .option _, .option _ | .number .., .number _
  | .distribution .., .distribution _ | .order _, .order _ | .piles _, .firstPile _ => true
  | _, _ => false

/-- A check that fails only because something is out of bounds. -/
abbrev IsBoundsCheck (r : Except Failure Unit) : Prop := FailsOnly (·.category = .outOfBounds) r

theorem isBoundsCheck_checkCount {what : String} {chosen fewest most : Nat} :
    IsBoundsCheck (checkCount what chosen fewest most) :=
  .ite (.error rfl) (.ok ())

theorem isBoundsCheck_checkChosen {what : String} {offered chosen seen : List ObjectId} :
    IsBoundsCheck (checkChosen what offered chosen seen) := by
  induction chosen generalizing seen with
  | nil => exact .ok ()
  | cons o rest ih => exact .ite (.error rfl) (.ite (.error rfl) ih)

theorem isBoundsCheck_checkModes {modes : Nat} {chosen seen : List Nat} :
    IsBoundsCheck (checkModes modes chosen seen) := by
  induction chosen generalizing seen with
  | nil => exact .ok ()
  | cons m rest ih => exact .ite (.error rfl) (.ite (.error rfl) ih)

theorem isBoundsCheck_checkRecipients {recipients os : List ObjectId} :
    IsBoundsCheck (checkRecipients recipients os) := by
  induction os with
  | nil => exact .ok ()
  | cons o rest ih => exact .ite ih (.error rfl)

theorem isBoundsCheck_checkShares {shares : SortedMap ObjectId Nat} {minimum : Nat}
    {os : List ObjectId} : IsBoundsCheck (checkShares shares minimum os) := by
  induction os with
  | nil => exact .ok ()
  | cons o rest ih => exact .ite (.error rfl) ih

theorem isBoundsCheck_checkSum {total : Nat} {shares : List Nat} :
    IsBoundsCheck (checkSum total shares) := by
  unfold checkSum
  split
  · exact .error rfl
  · exact .ite (.error rfl) (.ok ())

/-- An answer of the right shape is turned down only for being out of bounds. -/
theorem isBoundsCheck_check {q : Question} {a : Answer} (hshape : q.isAnsweredBy a = true) :
    IsBoundsCheck (q.check a) := by
  cases q with
  | targets legal fewest most =>
    cases a with
    | targets chosen => exact isBoundsCheck_checkCount.bind fun _ => isBoundsCheck_checkChosen
    | _ => cases hshape
  | cards options fewest most ordered =>
    cases a with
    | cards chosen => exact isBoundsCheck_checkCount.bind fun _ => isBoundsCheck_checkChosen
    | _ => cases hshape
  | yesNo =>
    cases a with
    | yesNo yes => exact .ok ()
    | _ => cases hshape
  | modes descriptions fewest most =>
    cases a with
    | modes chosen => exact isBoundsCheck_checkCount.bind fun _ => isBoundsCheck_checkModes
    | _ => cases hshape
  | color options =>
    cases a with
    | color chosen => exact .ite (.ok ()) (.error rfl)
    | _ => cases hshape
  | option options =>
    cases a with
    | option index => exact .ite (.ok ()) (.error rfl)
    | _ => cases hshape
  | number fewest most =>
    cases a with
    | number n => exact .ite (.ok ()) (.error rfl)
    | _ => cases hshape
  | distribution total recipients minimum =>
    cases a with
    | distribution shares =>
      exact isBoundsCheck_checkRecipients.bind fun _ =>
        isBoundsCheck_checkShares.bind fun _ => isBoundsCheck_checkSum
    | _ => cases hshape
  | order objects =>
    cases a with
    | order chosen => exact isBoundsCheck_checkCount.bind fun _ => isBoundsCheck_checkChosen
    | _ => cases hshape
  | piles objects =>
    cases a with
    | firstPile chosen => exact isBoundsCheck_checkChosen
    | _ => cases hshape

/-- An answer of another shape is turned down for that, with both shapes named. -/
theorem check_of_not_isAnsweredBy {q : Question} {a : Answer} (hshape : q.isAnsweredBy a = false) :
    q.check a = .error (.wrongAnswer q.name a.name) := by
  cases q <;> cases a <;> first | rfl | cases hshape

/-- An answer is turned down only for a fault of its own. -/
theorem fault_check {q : Question} {a : Answer} {f : Failure} (h : q.check a = .error f) :
    f.isAnswerFault = true := by
  cases hshape : q.isAnsweredBy a with
  | false =>
    rw [check_of_not_isAnsweredBy hshape] at h
    cases h
    rfl
  | true =>
    unfold Failure.isAnswerFault
    rw [(isBoundsCheck_check hshape).fault f h]

/-- What a question offers. -/
def objects : Question → List ObjectId
  | .targets legal _ _ => legal
  | .cards options _ _ _ => options
  | .distribution _ recipients _ => recipients
  | .order objects | .piles objects => objects
  | _ => []

/-- A question is fair if it offers things only once, and enough of them for what it asks. Nobody is
asked to order nothing. -/
def Fair : Question → Prop
  | .targets legal fewest most => legal.Nodup ∧ fewest ≤ most ∧ most ≤ legal.length
  | .cards options fewest most _ => options.Nodup ∧ fewest ≤ most ∧ fewest ≤ options.length
  | .modes descriptions fewest most => fewest ≤ most ∧ most ≤ descriptions.length
  | .color options => options ≠ []
  | .option options => options ≠ []
  | .number fewest most => fewest ≤ most
  | .distribution total recipients minimum =>
    recipients ≠ [] ∧ minimum * recipients.dedup.length ≤ total
  | .order objects => objects ≠ [] ∧ objects.Nodup
  | .piles objects => objects.Nodup
  | .yesNo => True

/-- Whether what is to be divided is a number of one unsigned 32-bit word, as every amount is. -/
def Representable : Question → Prop
  | .distribution total _ _ => total ≤ maxTotal
  | _ => True

/-- There is a share of 1 for everyone if there is one for every mention of someone. -/
theorem fair_distribution {total : Nat} {recipients : List ObjectId} (hsome : recipients ≠ [])
    (henough : recipients.length ≤ total) : (distribution total recipients 1).Fair := by
  refine ⟨hsome, ?_⟩
  rw [Nat.one_mul]
  exact Nat.le_trans recipients.dedup_sublist.length_le henough

/-- The first so many of the things offered are a selection of that many. -/
theorem selects_take {α : Type} {offered : List α} {fewest most : Nat} (hnodup : offered.Nodup)
    (hbounds : fewest ≤ most) (henough : fewest ≤ offered.length) :
    Selects offered fewest most (offered.take fewest) := by
  have hlength : (offered.take fewest).length = fewest := by
    rw [List.length_take]
    omega
  refine ⟨?_, ?_, hnodup.sublist (List.take_sublist _ _), List.take_subset _ _⟩
  · exact Nat.le_of_eq hlength.symm
  · rw [hlength]
    exact hbounds

/-- The minimum for everyone but the first, who gets the rest. -/
theorem exists_divides {total minimum : Nat} {recipients : List ObjectId}
    (hsome : recipients ≠ []) (henough : minimum * recipients.dedup.length ≤ total)
    (hbounded : total ≤ maxTotal) : ∃ shares, Divides total recipients minimum shares := by
  cases hrecipients : recipients.dedup with
  | nil =>
    have hnone : recipients = [] := by simpa using hrecipients
    exact absurd hnone hsome
  | cons first others =>
    let least := others.map fun o => (o, minimum)
    let entries := (first, total - minimum * others.length) :: least
    rw [hrecipients, List.length_cons, Nat.mul_succ] at henough
    have hnames : entries.map (·.1) = recipients.dedup := by
      simp [entries, least, hrecipients, Function.comp_def]
    have hkeys : (entries.map (·.1)).Nodup := hnames ▸ recipients.nodup_dedup
    have hperm := SortedMap.entries_ofList_perm hkeys
    have hleast : (least.map (·.2)).sum = minimum * others.length := by
      simp [least, Function.comp_def, Nat.mul_comm]
    refine ⟨.ofList entries, ?_, ?_, ?_, hbounded⟩
    · intro o ho
      have hmem : o ∈ entries.map (·.1) := (hperm.map (·.1)).mem_iff.mp ho
      rw [hnames] at hmem
      exact List.mem_dedup.mp hmem
    · intro o ho
      have hmem : o ∈ first :: others := hrecipients ▸ List.mem_dedup.mpr ho
      rcases List.mem_cons.mp hmem with rfl | hother
      · have hfind := SortedMap.find?_ofList_of_mem hkeys List.mem_cons_self
        rw [hfind, Option.getD_some]
        omega
      · have hentry : (o, minimum) ∈ entries :=
          List.mem_cons_of_mem _ (List.mem_map.mpr ⟨o, hother, rfl⟩)
        have hfind := SortedMap.find?_ofList_of_mem hkeys hentry
        exact Nat.le_of_eq (by rw [hfind, Option.getD_some])
    · have hsum := (hperm.map (·.2)).sum_nat
      change ((SortedMap.ofList entries).entries.map (·.2)).sum = total
      rw [hsum, List.map_cons, List.sum_cons, hleast]
      omega

/-- A fair question can be answered. -/
theorem Fair.exists_accepts {q : Question} (hfair : q.Fair) (hrepresentable : q.Representable) :
    ∃ a, q.Accepts a := by
  cases q with
  | targets legal fewest most =>
    obtain ⟨hnodup, hbounds, hmost⟩ := hfair
    exact ⟨.targets _, selects_take hnodup hbounds (Nat.le_trans hbounds hmost)⟩
  | cards options fewest most ordered =>
    obtain ⟨hnodup, hbounds, henough⟩ := hfair
    exact ⟨.cards _, selects_take hnodup hbounds henough⟩
  | yesNo => exact ⟨.yesNo true, trivial⟩
  | modes descriptions fewest most =>
    obtain ⟨hbounds, hmost⟩ := hfair
    have henough : fewest ≤ (List.range descriptions.length).length := by
      rw [List.length_range]
      omega
    exact ⟨.modes _, selects_take List.nodup_range hbounds henough⟩
  | color options =>
    obtain ⟨color, hcolor⟩ := List.exists_mem_of_ne_nil options hfair
    exact ⟨.color color, hcolor⟩
  | option options => exact ⟨.option 0, List.length_pos_iff.mpr hfair⟩
  | number fewest most => exact ⟨.number fewest, Int.le_refl _, hfair⟩
  | distribution total recipients minimum =>
    obtain ⟨hsome, henough⟩ := hfair
    obtain ⟨shares, hdivides⟩ := exists_divides hsome henough hrepresentable
    exact ⟨.distribution shares, hdivides⟩
  | order objects =>
    exact ⟨.order objects, Nat.le_refl _, Nat.le_refl _, hfair.2, List.Subset.refl _⟩
  | piles objects => exact ⟨.firstPile [], List.nodup_nil, List.nil_subset _⟩

/-- To choose as many things as are offered is to put them in order: without repetitions they are
part of what is offered, and no smaller part. -/
theorem Selects.perm {α : Type} {offered chosen : List α}
    (h : Selects offered offered.length offered.length chosen) : chosen.Perm offered :=
  (List.subperm_of_subset h.once h.among).perm_of_length_le h.enough

/-- Different things are put in order by their permutations. -/
theorem selects_length_iff {α : Type} {offered chosen : List α} (hnodup : offered.Nodup) :
    Selects offered offered.length offered.length chosen ↔ chosen.Perm offered := by
  refine ⟨Selects.perm, fun hperm => ?_⟩
  have hlength := hperm.length_eq
  exact ⟨Nat.le_of_eq hlength.symm, Nat.le_of_eq hlength, hperm.symm.nodup hnodup, hperm.subset⟩

/-- The verdict on an answer. The answers that fit pass: of a distribution the shares add up to the
total as numbers, and different objects are put in order by their permutations. What does not pass
is turned down for its shape if that is wrong, and otherwise for being out of bounds. -/
structure Judged (q : Question) (a : Answer) : Prop where
  passes : q.check a = .ok () ↔ q.Accepts a
  divides : ∀ total recipients minimum shares, q = .distribution total recipients minimum →
    a = .distribution shares → (q.check a = .ok () ↔ shares.keys ⊆ recipients ∧
      (∀ o ∈ recipients, minimum ≤ (shares.find? o).getD 0) ∧ shares.values.sum = total)
  orders : ∀ objects chosen, q = .order objects → a = .order chosen → objects.Nodup →
    (q.check a = .ok () ↔ chosen.Perm objects)
  misshapen : q.isAnsweredBy a = false → q.check a = .error (.wrongAnswer q.name a.name)
  outOfBounds : ∀ f, q.isAnsweredBy a = true → q.check a = .error f → f.category = .outOfBounds

/-- Every answer is judged as it should be. -/
theorem judged {q : Question} (hword : q.Representable) (a : Answer) : q.Judged a where
  passes := check_eq_ok_iff
  divides := by
    rintro total recipients minimum shares rfl rfl
    rw [check_eq_ok_iff]
    constructor
    · rintro ⟨hamong, henough, hsum, -⟩
      exact ⟨hamong, henough, hsum⟩
    · rintro ⟨hamong, henough, hsum⟩
      exact ⟨hamong, henough, hsum, hword⟩
  orders := by
    rintro objects chosen rfl rfl hnodup
    exact check_eq_ok_iff.trans (selects_length_iff hnodup)
  misshapen := check_of_not_isAnsweredBy
  outOfBounds f hshape := (isBoundsCheck_check hshape).fault f

/-- Shares that would come to the total if sums wrapped around are turned down. -/
theorem judged_wrapping :
    let q : Question := .distribution 3 [⟨4⟩, ⟨5⟩] 1
    let a : Answer := .distribution (.ofList [(⟨4⟩, maxTotal), (⟨5⟩, 4)])
    (maxTotal + 4) % (maxTotal + 1) = 3 ∧ q.Representable ∧ q.Judged a ∧
      q.check a = .error .distributionOverflow ∧ ¬q.Accepts a := by
  have hword : 3 ≤ maxTotal := by decide
  have hjudged := judged (q := .distribution 3 [⟨4⟩, ⟨5⟩] 1) hword
    (.distribution (.ofList [(⟨4⟩, maxTotal), (⟨5⟩, 4)]))
  refine ⟨by decide, hword, hjudged, by decide, fun haccepts => ?_⟩
  cases hjudged.passes.mpr haccepts

end Question

end CardGame
