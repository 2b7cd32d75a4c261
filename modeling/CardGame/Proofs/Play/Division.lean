import CardGame.Proofs.Play.Answering
import CardGame.Proofs.Resolve.Dealing

/-!
Divisions of damage. A player is asked to divide damage among targets whether or not they can be
dealt damage. Every answer gives every target a share, so if some target cannot be dealt damage
every answer fails, and otherwise every answer that fits is carried out (`Game.Reachable.divided`).
-/

namespace CardGame

open Resolve

variable {rules : Rules} {g g' : Game} {ctx : Context} {amount : Amount} {d : Decision}
  {es : List Event}

/-- Who is asked to divide damage is asked about the targets, and nothing else is suspended. -/
theorem Game.Reachable.asked_to_divide (h : g.Reachable)
    (hexecute : rules.execute g (.damage (.divide amount)) ctx = .paused g' d es) :
    g'.pending = some d ∧ g'.stack = [⟨some d.id, .divideDamage ctx⟩] ∧
      ∃ total, d.question = .distribution total ctx.targets 1 := by
  cases h.poised with
  | waiting d' work groups hpending =>
    unfold Rules.execute at hexecute
    rw [hpending] at hexecute
    cases hexecute
  | idle hpending hempty =>
    rw [Rules.execute_eq h.sound hpending] at hexecute
    obtain ⟨stop, q, hrun, rfl, rfl⟩ := Result.conclude_eq_paused hexecute
    obtain ⟨request, hheld, rfl⟩ := stopAt_eq_some hrun
    have hasking : Asking (fun _ => True) (fun _ => True)
        ((DamageEffect.divide amount).resolve rules ctx) := DamageEffect.asking_resolve rules ctx _
    have hcontrol := (hasking.directly.runs h.sound trivial hheld).1.sameControl
    have hposes : Poses (fun _ => True) ((DamageEffect.divide amount).resolve rules ctx) _ :=
      DamageEffect.poses_division rules ctx amount
    obtain ⟨hwork, total, hquestion⟩ := hposes.poses h.sound trivial hheld
    refine ⟨rfl, ?_, total, hquestion⟩
    have hbelow : q.game.stack = [] := hcontrol.stack.trans hempty
    change ⟨some _, request.work⟩ :: q.game.stack = _
    rw [hbelow, hwork]
    rfl

/-- A division that fits gives damage to the recipients, to every one of them. -/
theorem Question.Divides.exists_share_iff {total : Nat} {recipients : List ObjectId}
    {shares : SortedMap ObjectId Nat} (h : Divides total recipients 1 shares)
    (bad : ObjectId → Prop) :
    (∃ p ∈ (Suspension.asDamage shares).entries, 0 < p.2 ∧ bad p.1) ↔
      ∃ o ∈ recipients, bad o := by
  have hentries : (Suspension.asDamage shares).entries =
      shares.entries.map fun p => (p.1, countAsAmount p.2) := rfl
  rw [hentries]
  constructor
  · rintro ⟨p, hp, -, hbad⟩
    obtain ⟨p', hp', rfl⟩ := List.mem_map.mp hp
    exact ⟨p'.1, h.among (List.mem_map_of_mem hp'), hbad⟩
  · rintro ⟨o, ho, hbad⟩
    have henough := h.enough o ho
    cases hfind : shares.find? o with
    | none =>
      rw [hfind] at henough
      cases henough
    | some n =>
      have hpositive : 1 ≤ n := by rwa [hfind, Option.getD_some] at henough
      have hdamage : 0 < countAsAmount n := by
        simp only [countAsAmount, maxAmount]
        omega
      have hentry : (o, n) ∈ shares.entries := SortedMap.mem_entries_iff.mpr hfind
      exact ⟨(o, countAsAmount n), List.mem_map.mpr ⟨(o, n), hentry, rfl⟩, hdamage, hbad⟩

theorem Rules.project_resolving (rules : Rules) (g : Game) (d : Decision) :
    rules.project (Progress.resolving g d).game = rules.project g := by
  rw [← rules.project_core (g := g) (b := true)]
  exact (rules.project_core (b := true)).symm

/-- A player who has been asked to divide damage answers in vain, however the answer divides it, if
some target cannot be dealt damage. Otherwise every answer that fits is carried out. -/
theorem Game.Reachable.divided {answer : Answer} (h : g.Reachable)
    (hexecute : rules.execute g (.damage (.divide amount)) ctx = .paused g' d es)
    (hcheck : d.question.check answer = .ok ()) (rules' : Rules) :
    (rules'.resume g' ⟨d.id, answer⟩).isFailed =
      ctx.targets.any fun o => !g'.isDamageable o ((rules'.project g').find? o) := by
  have hreachable : g'.Reachable := by
    have hmoved := Reachable.move (.execute rules (.damage (.divide amount)) ctx) h trivial
    rwa [Move.apply, hexecute] at hmoved
  obtain ⟨hpending, hstack, total, hquestion⟩ := h.asked_to_divide hexecute
  have hwaits := hreachable.waitsWith hpending hstack rfl
  have haccepts := Question.check_eq_ok_iff.mp hcheck
  rw [hquestion] at haccepts
  cases answer with
  | distribution shares =>
    have hdivides : Question.Divides total ctx.targets 1 shares := haccepts
    have hproject := rules'.project_resolving g' d
    have hshares := hdivides.exists_share_iff fun o =>
      g'.isDamageable o ((rules'.project g').find? o) = false
    cases hsome : ctx.targets.any fun o => !g'.isDamageable o ((rules'.project g').find? o) with
    | true =>
      obtain ⟨o, ho, hnot⟩ := List.any_eq_true.mp hsome
      have hbad := hshares.mpr ⟨o, ho, Bool.eq_false_of_not_eq_true' hnot⟩
      have hfails := DamageEffect.fails_dealShares rules' ctx.source (Suspension.asDamage shares)
      refine Rules.isFailed_of_fails hwaits hcheck (hfails.first fun _ => pure Outcome.done) ?_
      rw [hproject]
      exact hbad
    | false =>
      have hall := List.any_eq_false.mp hsome
      have hsucceeds := DamageEffect.succeeds_dealShares rules' ctx.source
        (Suspension.asDamage shares)
      refine Rules.isFailed_of_succeeds hwaits hcheck (Q := fun _ _ => True)
        (.bind hsucceeds fun _ => .pure _ id) ?_
      rw [hproject]
      intro p hp hshare
      cases hdamageable : g'.isDamageable p.1 ((rules'.project g').find? p.1) with
      | true => exact hdamageable
      | false =>
        obtain ⟨o, ho, hbad⟩ := hshares.mp ⟨p, hp, hshare, hdamageable⟩
        exact absurd (by rw [hbad]; rfl) (hall o ho)
  | _ => cases haccepts

/-- Damage divided between a creature and a player is dealt. -/
theorem Game.divided_of_creature : ∃ g₀, start {} = .ok g₀ ∧
    let bear : CardDefinition := .creature ⟨7⟩ "Bear" 2 2
    let r := Rules.execute {} ((Move.spawn bear ⟨0⟩ .battlefield).apply g₀)
      (.damage (.divide (.fixed 3))) { targets := [⟨2⟩, ⟨1⟩] }
    r = .paused r.game ⟨⟨1⟩, ⟨0⟩, "Divide 3 damage", none, .distribution 3 [⟨2⟩, ⟨1⟩] 1⟩
      r.events ∧
    (Rules.resume {} r.game ⟨⟨1⟩, .distribution (.ofList [(⟨2⟩, 2), (⟨1⟩, 1)])⟩).isFailed =
      false := by
  refine ⟨_, rfl, by decide +kernel, ?_⟩
  have hdivided (g : Game) (h : g.Reachable) (r : Result)
      (hr : Rules.execute {} g (.damage (.divide (.fixed 3))) { targets := [⟨2⟩, ⟨1⟩] } = r)
      (hpaused : r = .paused r.game
        ⟨⟨1⟩, ⟨0⟩, "Divide 3 damage", none, .distribution 3 [⟨2⟩, ⟨1⟩] 1⟩ r.events)
      (hcheck : Question.check (.distribution 3 [⟨2⟩, ⟨1⟩] 1)
        (.distribution (.ofList [(⟨2⟩, 2), (⟨1⟩, 1)])) = .ok ()) :=
    Reachable.divided h (hr.trans hpaused) hcheck {}
  have hspawned := Reachable.move (.spawn (.creature ⟨7⟩ "Bear" 2 2) ⟨0⟩ .battlefield)
    (.start (s := {}) rfl) Nat.zero_lt_two
  rw [hdivided _ hspawned _ rfl (by decide +kernel) (by decide +kernel)]
  decide +kernel

/-- A player may be asked to divide damage between two lands, and then no answer can be carried
out. -/
theorem Game.not_divided_between_lands : ¬ ∀ (g g' : Game) (rules : Rules) (amount : Amount)
    (ctx : Context) (d : Decision) (es : List Event) (answer : Answer), g.Reachable →
    rules.execute g (.damage (.divide amount)) ctx = .paused g' d es →
    d.question.check answer = .ok () → (rules.resume g' ⟨d.id, answer⟩).isFailed = false := by
  intro h
  have hspawned {g : Game} (hs : 0 < g.seats) (h : g.Reachable) :
      ((Move.spawn (.land ⟨9⟩ "Grove") ⟨0⟩ .battlefield).apply g).Reachable := .move _ h hs
  have hlands := hspawned Nat.zero_lt_two
    (hspawned Nat.zero_lt_two (Reachable.start (s := {}) rfl))
  have hdivided (g : Game) (hreachable : g.Reachable) (r : Result)
      (hr : Rules.execute {} g (.damage (.divide (.fixed 2))) { targets := [⟨2⟩, ⟨3⟩] } = r)
      (hpaused : r = .paused r.game
        ⟨⟨1⟩, ⟨0⟩, "Divide 2 damage", none, .distribution 2 [⟨2⟩, ⟨3⟩] 1⟩ r.events)
      (hcheck : Question.check (.distribution 2 [⟨2⟩, ⟨3⟩] 1)
        (.distribution (.ofList [(⟨2⟩, 1), (⟨3⟩, 1)])) = .ok ()) :=
    h g _ {} _ _ _ _ _ hreachable (hr.trans hpaused) hcheck
  have hcarried := hdivided _ hlands _ rfl (by decide +kernel) (by decide +kernel)
  revert hcarried
  decide +kernel

end CardGame
