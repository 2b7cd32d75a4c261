import CardGame.Proofs.Resolve.Posing
import CardGame.Proofs.Resolve.Success

/-!
Which damage can be dealt. Players can be dealt damage, and on the battlefield creatures and
planeswalkers (`Game.isDamageable`). Dealing damage changes nothing about that, so shares are dealt
if everybody with a share can be dealt damage, and otherwise they are not dealt at all.
-/

namespace CardGame

/-- Whether damage can be dealt to an object that has some characteristics. -/
def Game.isDamageable (g : Game) (o : ObjectId) (c : Option Characteristics) : Bool :=
  (g.seat? o).isSome ||
    g.onBattlefield o && c.any fun c => c.hasType .creature || c.hasType .planeswalker

/-- Whether in another game the same objects can be dealt damage. -/
def Game.SameRecipients (g h : Game) : Prop :=
  ∀ o c, h.isDamageable o c = g.isDamageable o c

namespace Resolve

variable {P : Game → Prop} {o : ObjectId} {c : Option Characteristics}
  {source : Option ObjectId} {n : Int}

theorem steady_sameRecipients (g : Game) : Steady [] g.SameRecipients := by
  intro h h' hseats hzone hsame o c
  have hseat : h'.seat? o = h.seat? o := by rw [Game.seat?, hseats, Game.seat?]
  have hthere : h'.onBattlefield o = h.onBattlefield o := by
    have hzone : h'.zone? o = h.zone? o := hzone o List.not_mem_nil
    rw [Bool.eq_iff_iff, Game.onBattlefield_iff, Game.onBattlefield_iff, hzone]
  rw [← hsame o c, Game.isDamageable, hseat, hthere, Game.isDamageable]

/-- A planeswalker that is dealt damage loses loyalty. -/
theorem succeeds_loseLoyalty (loses : Bool) (hsteady : Steady [] P) :
    Succeeds (fun g => g.LiesAt o (.anyOf .battlefield) ∧ P g)
      (do if loses then
            let _ ← removeCounters o .loyalty n.toNat) fun _ => P := by
  apply Succeeds.ite
  · intro hloses
    exact .bind (succeeds_removeCounters _ _ hsteady) fun _ => .pure _ id
  · intro hkeeps
    exact .pure _ And.right

/-- Damage is dealt to whoever can be dealt damage. -/
theorem succeeds_dealDamage (hsteady : Steady [] P) :
    Succeeds (fun g => (0 < n → g.isDamageable o c = true) ∧ P g) (dealDamage source o n c)
      fun _ => P := by
  apply Succeeds.ite
  · intro hsome
    refine .look ?_
    rintro g hfurnished ⟨hdamageable, hp⟩
    have hdamageable := hdamageable hsome
    cases hseat : g.seat? o with
    | some s =>
      refine .bind (.emit _) fun _ => (succeeds_changeLife (-n) hsteady).of_pre ?_
      rintro h - rfl
      exact ⟨hfurnished.sound.housed.seated_of_seat? hseat, hp⟩
    | none =>
      rw [Game.isDamageable, hseat, Option.isSome_none, Bool.false_or, Bool.and_eq_true,
        Option.any_eq_true] at hdamageable
      obtain ⟨hthere, c, rfl, htype⟩ := hdamageable
      have hlies := Game.liesAt_battlefield_iff.mpr hthere
      have hthen : Steady [] fun g => g.LiesAt o (.anyOf .battlefield) ∧ P g :=
        (steady_liesAt _ List.not_mem_nil).and hsteady
      have hrequire : Succeeds (fun h => h = g) (requireIn o .battlefield)
          fun _ g => g.LiesAt o (.anyOf .battlefield) ∧ P g := by
        refine (succeeds_requireIn .battlefield).of_pre ?_
        rintro h - rfl
        exact ⟨hlies, hlies, hp⟩
      have htyped : ¬(!c.hasType .creature && !c.hasType .planeswalker) = true := by
        rcases (Bool.or_eq_true _ _).mp htype with h | h <;> simp [h]
      refine .bind hrequire fun _ => .guard htyped (.bind (.emit _) fun _ => ?_)
      apply Succeeds.ite
      · intro hcreature
        refine .look fun g hfurnished hp => .bind (.of_pre (succeeds_setFacet hthen.unmarked) ?_)
          fun _ => succeeds_loseLoyalty _ hsteady
        rintro h - rfl
        exact ⟨hp.1, .damaged hsome, hp⟩
      · intro hother
        exact succeeds_loseLoyalty _ hsteady
  · intro hnone
    exact .pure _ And.right

theorem fails_requireIn (kind : ZoneKind) :
    Fails (fun g => g.zones.isIn o kind = false) (requireIn o kind) := by
  refine ⟨fun {p} _ hnot => ?_⟩
  unfold requireIn require
  rw [bind_apply, game_bind]
  by_cases hcontains : p.game.contains o = true
  · rw [if_pos hcontains]
    refine ⟨.misplaced o (.anyOf kind), ?_⟩
    change (game >>= fun g => if g.zones.isIn o kind then return else
      throw (.misplaced o (.anyOf kind)) : Resolve Unit) p = _
    rw [game_bind, if_neg (by simp [hnot])]
    rfl
  · rw [if_neg hcontains]
    exact ⟨_, rfl⟩

/-- Damage is not dealt to anything else. -/
theorem fails_dealDamage (hsome : 0 < n) :
    Fails (fun g => g.isDamageable o c = false) (dealDamage source o n c) := by
  unfold dealDamage
  rw [if_pos hsome]
  refine .look fun g _ hnot => ?_
  rw [Game.isDamageable, Bool.or_eq_false_iff, Option.isSome_eq_false_iff,
    Option.isNone_iff_eq_none] at hnot
  obtain ⟨hseat, hnot⟩ := hnot
  rw [hseat]
  cases hthere : g.onBattlefield o with
  | false =>
    refine Fails.first ((fails_requireIn .battlefield).of_pre ?_) _
    rintro h - rfl
    exact hthere
  | true =>
    rw [hthere, Bool.true_and] at hnot
    refine Fails.after (Succeeds.of_pre (succeeds_requireIn (P := fun _ => True) .battlefield) ?_)
      fun _ => ?_
    · rintro h - rfl
      exact ⟨Game.liesAt_battlefield_iff.mpr hthere, trivial⟩
    · cases c with
      | none => exact .throw _
      | some c =>
        have huntyped : (!c.hasType .creature && !c.hasType .planeswalker) = true := by
          simpa using hnot
        dsimp only
        rw [if_pos huntyped]
        exact (Fails.throw _).first _

end Resolve

open Resolve

namespace DamageEffect

variable {P : Game → Prop}

/-- Shares are dealt if everybody with a share can be dealt damage. -/
theorem succeeds_dealShares (rules : Rules) (source : Option ObjectId)
    (shares : SortedMap ObjectId Int) :
    Succeeds (fun g => ∀ p ∈ shares.entries, 0 < p.2 →
        g.isDamageable p.1 ((rules.project g).find? p.1) = true)
      (dealShares rules source shares) fun _ _ => True := by
  refine .view fun g _ hall => ?_
  change Succeeds _ (shares.entries.forM fun p =>
    dealDamage source p.1 p.2 ((rules.project g).find? p.1)) _
  refine (Succeeds.forM fun p hp => ?_).mono (P := g.SameRecipients) ?_ fun _ => trivial
  · refine (succeeds_dealDamage (steady_sameRecipients g)).of_pre fun _ hsame => ⟨?_, hsame⟩
    exact fun hsome => (hsame _ _).trans (hall p hp hsome)
  · rintro h - rfl o c
    rfl

/-- If somebody with a share cannot be dealt damage, no shares are dealt. -/
theorem fails_dealShares (rules : Rules) (source : Option ObjectId)
    (shares : SortedMap ObjectId Int) :
    Fails (fun g => ∃ p ∈ shares.entries, 0 < p.2 ∧
        g.isDamageable p.1 ((rules.project g).find? p.1) = false)
      (dealShares rules source shares) := by
  refine .view fun g _ hsome => ?_
  change Fails _ (shares.entries.forM fun p =>
    dealDamage source p.1 p.2 ((rules.project g).find? p.1))
  have hround (p : ObjectId × Int) (hp : 0 < p.2)
      (hnot : g.isDamageable p.1 ((rules.project g).find? p.1) = false) :
      Fails g.SameRecipients (dealDamage source p.1 p.2 ((rules.project g).find? p.1)) :=
    (fails_dealDamage hp).of_pre fun _ hsame => (hsame _ _).trans hnot
  obtain ⟨p, hp, hshare, hnot⟩ := hsome
  refine (Fails.forM (fun p' _ => ?_) ⟨p, hp, hround p hshare hnot⟩).of_pre ?_
  · by_cases hfine : 0 < p'.2 → g.isDamageable p'.1 ((rules.project g).find? p'.1) = true
    · refine Or.inl ((succeeds_dealDamage (steady_sameRecipients g)).of_pre ?_)
      exact fun _ hsame => ⟨fun hp' => (hsame _ _).trans (hfine hp'), hsame⟩
    · obtain ⟨hshare', hnot'⟩ := Classical.not_imp.mp hfine
      exact Or.inr (hround p' hshare' (Bool.eq_false_of_not_eq_true hnot'))
  · rintro h - rfl o c
    rfl

/-- A division is asked for with the targets, each of which has to get some of the damage. -/
theorem poses_division (rules : Rules) (ctx : Context) (amount : Amount) :
    Poses P ((divide amount).resolve rules ctx) fun r _ =>
      r.work = .divideDamage ctx ∧ ∃ total, r.question = .distribution total ctx.targets 1 := by
  refine .bind (directly_amount rules ctx amount) fun n => .ite ?_ ?_
  · intro hdivided
    split
    · exact .throw _
    · exact .andDone _
  · intro hundivided
    split
    · exact .done
    · exact .andDone _
    · exact .guard fun _ => .pause fun _ _ => ⟨rfl, _, rfl⟩

end DamageEffect

end CardGame
