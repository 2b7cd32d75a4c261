import CardGame.Proofs.Play.Division
import CardGame.Proofs.Play.Waiting
import CardGame.Proofs.Resolve.Sharing
import Mathlib.Algebra.BigOperators.Ring.Finset

/-!
Damage and counters that are shared among targets. However a share is settled, beforehand, by there
being one target only, or by a player's answer, the shares are positive, add up, and go to different
targets, to every one of them if there are several (`Apportions`). What is dealt or put on is just
these shares (`Game.Reachable.shared`).
-/

namespace CardGame

open Resolve

/-- Parts of a total for different targets, for every one of them if there are several. -/
structure Apportions {α : Type} [Zero α] [Add α] [LT α] (total : α) (targets : List ObjectId)
    (parts : List (ObjectId × α)) : Prop where
  sum : (parts.map (·.2)).sum = total
  positive : ∀ part ∈ parts, 0 < part.2
  once : (parts.map (·.1)).Nodup
  among : parts.map (·.1) ⊆ targets
  all : 1 < targets.length → targets ⊆ parts.map (·.1)

namespace DamageEffect

variable {division : SortedMap ObjectId Int} {targets : List ObjectId} {total : Int}

theorem sum_of_sumShares {shares : List Int} {before sum : Int}
    (h : sumShares shares before = some sum) : before + shares.sum = sum := by
  induction shares generalizing before with
  | nil =>
    cases h
    exact Int.add_zero _
  | cons share rest ih =>
    unfold sumShares at h
    split at h
    · rw [List.sum_cons, ← Int.add_assoc]
      exact ih h
    · cases h

theorem exists_share_of_checkShares (h : checkShares division targets = .ok ()) :
    ∀ o ∈ targets, ∃ share, division.find? o = some share ∧ 1 ≤ share := by
  induction targets with
  | nil => exact fun o ho => absurd ho List.not_mem_nil
  | cons o rest ih =>
    unfold checkShares at h
    split at h
    · cases h
    · next share hshare =>
      split at h
      · next hpositive => exact List.forall_mem_cons.mpr ⟨⟨share, hshare, hpositive⟩, ih h⟩
      · cases h

/-- A division that passes the check gives positive shares that add up. -/
theorem apportions_of_checkDivision (h : checkDivision division targets total = .ok ()) :
    Apportions total targets (division.entries.filter fun part => 0 < part.2) := by
  have hcases : division.keys ⊆ targets ∧ checkShares division targets = .ok () ∧
      division.values.sum = total := by
    unfold checkDivision at h
    cases hstray : division.keys.find? (!targets.contains ·) with
    | some stray =>
      rw [hstray] at h
      cases h
    | none =>
      rw [hstray] at h
      have hamong : division.keys ⊆ targets := fun o ho => by
        simpa using List.find?_eq_none.mp hstray o ho
      cases hshares : checkShares division targets with
      | error failure =>
        rw [hshares] at h
        cases h
      | ok u =>
        rw [hshares] at h
        cases hsum : sumShares division.values 0 with
        | none =>
          rw [hsum] at h
          cases h
        | some sum =>
          rw [hsum] at h
          by_cases htotal : sum = total
          · exact ⟨hamong, rfl, by rw [← htotal, ← sum_of_sumShares hsum, Int.zero_add]⟩
          · exact absurd (show throw _ = Except.ok () from (if_pos htotal).symm.trans h) nofun
  obtain ⟨hamong, hshares, hsum⟩ := hcases
  have hshare := exists_share_of_checkShares hshares
  have hpositive : ∀ part ∈ division.entries, 0 < part.2 := by
    intro part hpart
    obtain ⟨share, hfind, hleast⟩ := hshare part.1 (hamong (List.mem_map_of_mem hpart))
    cases (SortedMap.mem_entries_iff.mp hpart).symm.trans hfind
    omega
  have hall : division.entries.filter (fun part => 0 < part.2) = division.entries :=
    List.filter_eq_self.mpr fun part hpart => decide_eq_true (hpositive part hpart)
  rw [hall]
  refine ⟨hsum, hpositive, division.keys_nodup, hamong, fun _ o ho => ?_⟩
  obtain ⟨share, hfind, -⟩ := hshare o ho
  exact List.mem_map_of_mem (SortedMap.mem_entries_iff.mpr hfind)

end DamageEffect

/-- What an only target gets is all there is. -/
theorem apportions_only {α : Type} [AddMonoid α] [LinearOrder α] {total : α} (htotal : 0 ≤ total)
    (o : ObjectId) :
    Apportions total [o]
      ((SortedMap.ofList [(o, total)]).entries.filter fun part => 0 < part.2) := by
  have hentries : (SortedMap.ofList [(o, total)]).entries = [(o, total)] := rfl
  rw [hentries]
  by_cases hpositive : 0 < total
  · rw [List.filter_cons_of_pos (by simpa using hpositive), List.filter_nil]
    exact ⟨by simp, by simpa using hpositive, by simp, by simp, by simp⟩
  · rw [List.filter_cons_of_neg (by simpa using hpositive), List.filter_nil]
    exact ⟨htotal.eq_of_not_lt hpositive, by simp, by simp, by simp, by simp⟩

/-- The parts of an accepted answer. -/
theorem Question.Divides.apportions {total : Nat} {targets : List ObjectId}
    {shares : SortedMap ObjectId Nat} (h : Question.Divides total targets 1 shares) :
    Apportions total targets (shares.entries.filter fun part => 0 < part.2) := by
  have hpositive : ∀ part ∈ shares.entries, 0 < part.2 := by
    intro part hpart
    have henough := h.enough part.1 (h.among (List.mem_map_of_mem hpart))
    rw [SortedMap.mem_entries_iff.mp hpart] at henough
    exact henough
  have hall : shares.entries.filter (fun part => 0 < part.2) = shares.entries :=
    List.filter_eq_self.mpr fun part hpart => decide_eq_true (hpositive part hpart)
  rw [hall]
  refine ⟨h.sum, hpositive, shares.keys_nodup, h.among, fun _ o ho => ?_⟩
  have henough := h.enough o ho
  cases hfind : shares.find? o with
  | none =>
    rw [hfind] at henough
    cases henough
  | some n => exact List.mem_map_of_mem (SortedMap.mem_entries_iff.mpr hfind)

/-- The parts of an accepted answer as damage. Shares of an amount are amounts. -/
theorem Question.Divides.apportions_damage {total : Nat} {targets : List ObjectId}
    {shares : SortedMap ObjectId Nat} (h : Question.Divides total targets 1 shares)
    (htotal : (total : Int) ≤ maxAmount) :
    Apportions (total : Int) targets
      ((Suspension.asDamage shares).entries.filter fun part => 0 < part.2) := by
  have hparts := h.apportions
  have hentries : (Suspension.asDamage shares).entries.filter (fun part => 0 < part.2) =
      (shares.entries.filter fun part => 0 < part.2).map fun part => (part.1, (part.2 : Int)) := by
    have hwhole : (Suspension.asDamage shares).entries =
        shares.entries.map fun part => (part.1, (part.2 : Int)) := by
      refine List.map_congr_left fun part hpart => Prod.ext rfl ?_
      have hle : part.2 ≤ total := h.sum ▸ List.single_le_sum (by simp) _
        (List.mem_map_of_mem hpart)
      exact min_eq_left ((Int.ofNat_le.mpr hle).trans htotal)
    rw [hwhole, List.filter_map]
    refine congrArg (List.map _) (List.filter_congr fun part _ => ?_)
    simp
  rw [hentries]
  have hfirst : (List.map (fun part : ObjectId × Nat => (part.1, (part.2 : Int)))
      (shares.entries.filter fun part => 0 < part.2)).map (·.1) =
      (shares.entries.filter fun part => 0 < part.2).map (·.1) := by
    rw [List.map_map]
    rfl
  refine ⟨?_, ?_, hfirst ▸ hparts.once, hfirst ▸ hparts.among, fun h => hfirst ▸ hparts.all h⟩
  · rw [← hparts.sum, Nat.cast_list_sum, List.map_map, List.map_map]
    rfl
  · intro part hpart
    obtain ⟨part', hpart', rfl⟩ := List.mem_map.mp hpart
    exact Int.natCast_pos.mpr (hparts.positive part' hpart')

variable {rules : Rules} {ctx : Context} {p q : Progress}

/-- Damage has been dealt in parts of a total. -/
structure Progress.Damages (rules : Rules) (source : Option ObjectId) (targets : List ObjectId)
    (total : Int) (parts : List (ObjectId × Int)) (p q : Progress) : Prop where
  apportions : Apportions total targets parts
  shared : p.Shared Event.isDamage (fun part => .damageDealt source part.1 part.2)
    (fun o n => p.game.Hurts (SortedMap.find? (rules.project p.game) o) o n) parts q

/-- Counters of a kind have been put on in parts of a total. -/
structure Progress.Stocks (kind : CounterKind) (targets : List ObjectId) (total : Nat)
    (parts : List (ObjectId × Nat)) (p q : Progress) : Prop where
  apportions : Apportions total targets parts
  shared : p.Shared Event.isGrowth (fun part => .countersAdded part.1 kind part.2)
    (fun o n fs fs' => p.game.onBattlefield o = true ∧ fs.Stocked kind n fs') parts q

/-- Shares are handed out at once, or somebody is asked to divide a total among the targets. -/
def Resolve.SharesOut (r : Resolve Outcome) (p : Progress) (work : Suspension) (total : Nat)
    (targets : List ObjectId) (P : Progress → Prop) : Prop :=
  ∀ {outcome : Outcome} {q : Progress}, r p = .ok (outcome, q) → (outcome = .done ∧ P q) ∨
    ∃ request : Request, request.work = work ∧ request.question = .distribution total targets 1 ∧
      ask (some request) p = .ok (outcome, q)

/-- Handing out shares does not end any floating effect. -/
theorem Progress.Shared.settled_eq {α : Type} {heard : Event → Bool}
    {event : ObjectId × α → Event} {R : ObjectId → α → Facets → Facets → Prop}
    {parts : List (ObjectId × α)} (h : p.Shared heard event R parts q) (hswept : p.game.Swept)
    (hattached : ∀ {o : ObjectId} {n : α} {fs fs' : Facets}, R o n fs fs' →
      fs'.byKind.find? .attached = fs.byKind.find? .attached) : q.settled = q := by
  have hactive : q.game.isActive = p.game.isActive := by
    refine Game.isActive_congr (fun o => ?_) fun o => ?_
    · rw [← h.frame]
      rfl
    · by_cases ho : o ∈ parts.map (·.1)
      · obtain ⟨part, hpart, rfl⟩ := List.mem_map.mp ho
        exact hattached (h.changed part hpart)
      · rw [h.others o ho]
  have hfloating : q.game.floating = p.game.floating := by
    rw [← h.frame]
  have hstill : q.game.Swept := by
    unfold Game.Swept
    rw [hactive, hfloating]
    exact hswept
  unfold Progress.settled
  rw [hstill.sweep_eq, List.append_nil]

theorem Progress.Damages.settled_eq {source : Option ObjectId} {targets : List ObjectId}
    {total : Int} {parts : List (ObjectId × Int)} (h : p.Damages rules source targets total parts q)
    (hswept : p.game.Swept) : q.settled = q := by
  refine h.shared.settled_eq hswept fun hhurts => ?_
  cases hhurts with
  | player _ hdrained => exact hdrained.others .attached (by decide)
  | permanent _ _ _ _ hwounded => exact hwounded.others .attached (by decide) (by decide)

theorem Progress.Stocks.settled_eq {kind : CounterKind} {targets : List ObjectId} {total : Nat}
    {parts : List (ObjectId × Nat)} (h : p.Stocks kind targets total parts q)
    (hswept : p.game.Swept) : q.settled = q :=
  h.shared.settled_eq hswept fun hstocked => hstocked.2.others .attached (by decide)

/-- Shares of damage that are settled are dealt. -/
theorem DamageEffect.damages_of_dealShares {shares : SortedMap ObjectId Int}
    {source : Option ObjectId} {targets : List ObjectId} {total : Int} {outcome : Outcome}
    (hseats : p.game.seats ≤ 255)
    (hparts : Apportions total targets (shares.entries.filter fun part => 0 < part.2))
    (h : (do dealShares rules source shares; return .done : Resolve Outcome) p =
      .ok (outcome, q)) :
    outcome = .done ∧ ∃ parts, p.Damages rules source targets total parts q := by
  obtain ⟨u, r, hdeal, hrest⟩ := bind_eq_ok h
  cases hrest
  exact ⟨rfl, _, hparts, dealShares_eq_ok hseats hdeal⟩

/-- Dividing damage that does not fail deals parts of it, or asks for them. -/
theorem DamageEffect.sharesOut_divideAmong {total : Int} (htotal : 0 ≤ total)
    (htargets : ctx.targets ≠ []) (hseats : p.game.seats ≤ 255) :
    SharesOut (divideAmong rules ctx total) p (.divideDamage ctx) total.toNat ctx.targets
      fun q => ∃ parts, p.Damages rules ctx.source ctx.targets total parts q := by
  intro outcome q h
  unfold divideAmong at h
  by_cases hdivided : (!ctx.division.isEmpty) = true
  · rw [if_pos hdivided] at h
    cases hcheck : checkDivision ctx.division ctx.targets total with
    | error failure =>
      rw [hcheck] at h
      cases h
    | ok u =>
      rw [hcheck] at h
      exact .inl (damages_of_dealShares hseats (apportions_of_checkDivision hcheck) h)
  · rw [if_neg hdivided] at h
    cases hlist : ctx.targets with
    | nil => exact absurd hlist htargets
    | cons first rest =>
      cases rest with
      | nil =>
        rw [hlist] at h
        exact .inl (damages_of_dealShares hseats (apportions_only htotal first) h)
      | cons second rest =>
        rw [hlist] at h
        dsimp only at h
        split at h
        · cases h
        · exact .inr ⟨⟨ctx.controller, s!"Divide {total.toNat} damage",
            .distribution total.toNat (first :: second :: rest) 1, ctx.source,
            .divideDamage ctx⟩, rfl, rfl, h⟩

namespace PermanentEffect

/-- Looking where the targets are changes nothing. -/
theorem requireEach_eq_ok {os : List ObjectId} {kind : ZoneKind} {u : Unit}
    (h : os.forM (fun o => requireIn o kind) p = .ok (u, q)) : p = q := by
  induction os with
  | nil =>
    cases h
    rfl
  | cons o rest ih =>
    change (requireIn o kind >>= fun _ => rest.forM fun o => requireIn o kind) p = _ at h
    obtain ⟨v, r, hrequire, hrest⟩ := bind_eq_ok h
    obtain ⟨rfl, -⟩ := requireIn_eq_ok hrequire
    exact ih hrest

/-- Distributing counters, if it does not fail, puts on parts of them or asks for them. -/
theorem sharesOut_distribute {kind : CounterKind} {total : Nat} (htargets : ctx.targets ≠ []) :
    SharesOut (distribute ctx kind total) p (.distributeCounters kind ctx) total ctx.targets
      fun q => ∃ parts, p.Stocks kind ctx.targets total parts q := by
  intro outcome q h
  unfold distribute at h
  obtain ⟨u, r, hrequire, hrest⟩ := bind_eq_ok h
  obtain rfl := requireEach_eq_ok hrequire
  cases hlist : ctx.targets with
  | nil => exact absurd hlist htargets
  | cons first rest =>
    cases rest with
    | nil =>
      rw [hlist] at hrest
      obtain ⟨v, r, hadd, hdone⟩ := bind_eq_ok hrest
      cases hdone
      have hplace : placeShares kind (.ofList [(first, total)]) p = .ok ((), q) :=
        (bind_of_ok hadd).trans rfl
      exact .inl ⟨rfl, _, apportions_only (Nat.zero_le total) first, placeShares_eq_ok hplace⟩
    | cons second rest =>
      rw [hlist] at hrest
      dsimp only at hrest
      split at hrest
      · cases hrest
      · exact .inr ⟨⟨ctx.controller, s!"Distribute {total} counters",
          .distribution total (first :: second :: rest) 1, ctx.source,
          .distributeCounters kind ctx⟩, rfl, rfl, hrest⟩

end PermanentEffect

variable {g g' : Game}

/-- What is accepted as a distribution divides the total. -/
theorem Question.divides_of_check {q : Question} {total : Nat} {targets : List ObjectId}
    {answer : Answer} (hquestion : q = .distribution total targets 1)
    (hcheck : q.check answer = .ok ()) :
    ∃ shares, answer = .distribution shares ∧ Question.Divides total targets 1 shares := by
  have haccepts := Question.check_eq_ok_iff.mp hcheck
  rw [hquestion] at haccepts
  cases answer with
  | distribution shares => exact ⟨shares, rfl, haccepts⟩
  | _ => cases haccepts

namespace Resolve.SharesOut

variable {e : Effect} {es es' : List Event} {work : Suspension} {total : Nat}
  {targets : List ObjectId} {P : Progress → Prop}

/-- What is executed with success is handed out at once. -/
theorem of_success (h : SharesOut (e.resolve rules ctx) { game := g } work total targets P)
    (hidle : g.pending = none) (hexecute : rules.execute g e ctx = .success g' es) :
    ∃ q : Progress, P q ∧ ⟨g', es⟩ = q.settled := by
  obtain ⟨q, hrun, rfl, rfl⟩ := Rules.execute_eq_success hidle hexecute
  obtain ⟨-, hq⟩ | ⟨request, -, -, hasked⟩ := h hrun
  · exact ⟨q, hq, rfl⟩
  · cases hasked

/-- An answer that is carried out with success divides the total. -/
theorem of_answer {g₁ g₂ : Game} {d : Decision} {rules' : Rules} {answer : Answer}
    (h : SharesOut (e.resolve rules ctx) { game := g } work total targets P)
    (hidle : g.pending = none) (hunsuspended : g.stack = [])
    (hexecute : rules.execute g e ctx = .paused g' d es) (hreachable : g₁.Reachable)
    (hpending : g₁.pending = g'.pending) (hstack : g₁.stack = g'.stack)
    (hsimple : work.isSimple = true)
    (hresume : rules'.resume g₁ ⟨d.id, answer⟩ = .success g₂ es') :
    ∃ (shares : SortedMap ObjectId Nat) (q : Progress), Question.Divides total targets 1 shares ∧
      work.resume rules' d (.distribution shares) (.resolving g₁ d) = .ok (.done, q) ∧
      ⟨g₂, es'⟩ = q.settled := by
  obtain ⟨q, hrun, rfl, rfl⟩ := Rules.execute_eq_paused hidle hexecute
  obtain ⟨hdone, -⟩ | ⟨request, rfl, hquestion, hasked⟩ := h hrun
  · cases hdone
  · obtain ⟨hasks, hwaits, hposed, -⟩ := waits_of_ask (p := { game := g }) hunsuspended hasked
    have hwaitsWith :=
      hreachable.waitsWith (hpending.trans hasks) (hstack.trans hwaits) hsimple
    obtain ⟨hcheck, q', hcarry, rfl, rfl⟩ := Rules.resume_eq_success hwaitsWith hresume
    obtain ⟨shares, rfl, hdivides⟩ := Question.divides_of_check (hposed.trans hquestion) hcheck
    exact ⟨shares, q', hdivides, hcarry, rfl⟩

end Resolve.SharesOut

/-- What is shared out adds up. Damage that is divided with success, whether as settled beforehand,
to an only target or by an answer, is dealt in parts of the amount, or of 0 if the amount is
negative; and counters that are distributed with success are put on in parts of their number. The
answer may be given in any game that comes up in which the decision is still pending. Amounts fit a
signed word. -/
theorem Game.Reachable.shared (h : g.Reachable) (hidle : g.pending = none) (rules : Rules)
    {ctx : Context} (htargets : ctx.targets ≠ []) (amount : Amount) (kind : CounterKind) :
    let total := max ((rules.view g).evaluate ctx amount) 0
    let number := (rules.view g).evaluateCount ctx amount
    (∀ g' es, rules.execute g (.damage (.divide amount)) ctx = .success g' es →
      ∃ parts, Progress.Damages rules ctx.source ctx.targets total parts { game := g } ⟨g', es⟩) ∧
    (∀ g' d es, total ≤ maxAmount →
      rules.execute g (.damage (.divide amount)) ctx = .paused g' d es →
      ∀ g₁, g₁.Reachable → g₁.pending = g'.pending → g₁.stack = g'.stack →
      ∀ (rules' : Rules) answer g₂ es', rules'.resume g₁ ⟨d.id, answer⟩ = .success g₂ es' →
      ∃ parts, Progress.Damages rules' ctx.source ctx.targets total parts (.resolving g₁ d)
        ⟨g₂, es'⟩) ∧
    (∀ g' es, rules.execute g (.permanent (.distributeCounters kind amount)) ctx =
      .success g' es →
      ∃ parts, Progress.Stocks kind ctx.targets number parts { game := g } ⟨g', es⟩) ∧
    (∀ g' d es, rules.execute g (.permanent (.distributeCounters kind amount)) ctx =
      .paused g' d es →
      ∀ g₁, g₁.Reachable → g₁.pending = g'.pending → g₁.stack = g'.stack →
      ∀ (rules' : Rules) answer g₂ es', rules'.resume g₁ ⟨d.id, answer⟩ = .success g₂ es' →
      ∃ parts, Progress.Stocks kind ctx.targets number parts (.resolving g₁ d) ⟨g₂, es'⟩) := by
  intro total number
  have hstack := h.poised.stack_eq_nil hidle
  have htotal : 0 ≤ total := le_max_right _ _
  have hdivide : SharesOut ((Effect.damage (.divide amount)).resolve rules ctx) { game := g }
      (.divideDamage ctx) total.toNat ctx.targets
      fun q => ∃ parts, Progress.Damages rules ctx.source ctx.targets total parts _ q :=
    DamageEffect.sharesOut_divideAmong htotal htargets h.sound.housed.seated
  have hdistribute : SharesOut
      ((Effect.permanent (.distributeCounters kind amount)).resolve rules ctx) { game := g }
      (.distributeCounters kind ctx) number ctx.targets
      fun q => ∃ parts, Progress.Stocks kind ctx.targets number parts _ q :=
    PermanentEffect.sharesOut_distribute htargets
  refine ⟨fun g' es hexecute => ?_, fun g' d es hfits hexecute g₁ hreachable hpending hsuspended
    rules' answer g₂ es' hresume => ?_, fun g' es hexecute => ?_, fun g' d es hexecute g₁
    hreachable hpending hsuspended rules' answer g₂ es' hresume => ?_⟩
  · obtain ⟨q, ⟨parts, hdamages⟩, hsettled⟩ := hdivide.of_success hidle hexecute
    rw [hsettled, hdamages.settled_eq h.swept]
    exact ⟨parts, hdamages⟩
  · obtain ⟨shares, q, hdivides, hcarry, hsettled⟩ := hdivide.of_answer hidle hstack hexecute
      hreachable hpending hsuspended rfl hresume
    have hparts := hdivides.apportions_damage (by rwa [Int.toNat_of_nonneg htotal])
    rw [Int.toNat_of_nonneg htotal] at hparts
    obtain ⟨-, parts, hdamages⟩ :=
      DamageEffect.damages_of_dealShares hreachable.sound.housed.seated hparts hcarry
    rw [hsettled, hdamages.settled_eq hreachable.swept]
    exact ⟨parts, hdamages⟩
  · obtain ⟨q, ⟨parts, hstocks⟩, hsettled⟩ := hdistribute.of_success hidle hexecute
    rw [hsettled, hstocks.settled_eq h.swept]
    exact ⟨parts, hstocks⟩
  · obtain ⟨shares, q, hdivides, hcarry, hsettled⟩ := hdistribute.of_answer hidle hstack hexecute
      hreachable hpending hsuspended rfl hresume
    obtain ⟨u, q', hplace, hdone⟩ := bind_eq_ok hcarry
    cases hdone
    have hstocks : Progress.Stocks kind ctx.targets number _ (.resolving g₁ d) q :=
      ⟨hdivides.apportions, PermanentEffect.placeShares_eq_ok hplace⟩
    rw [hsettled, hstocks.settled_eq hreachable.swept]
    exact ⟨_, hstocks⟩

/-- Six damage for a creature, a planeswalker with two loyalty and a player, and three counters for
the creature. -/
theorem Game.shared_of_walker : ∃ g₀, start {} = .ok g₀ ∧
    let bear : CardDefinition := .creature ⟨7⟩ "Bear" 2 2
    let walker : CardDefinition := .ofTypes ⟨8⟩ "Walker" [.planeswalker]
    let g := (Move.execute {} (.permanent (.addCounters (.fixed ⟨3⟩) .loyalty (.fixed 2))) {}).apply
      ((Move.spawn walker ⟨1⟩ .battlefield).apply ((Move.spawn bear ⟨1⟩ .battlefield).apply g₀))
    let targets : List ObjectId := [⟨2⟩, ⟨3⟩, ⟨1⟩]
    let d : Decision := ⟨⟨1⟩, ⟨0⟩, "Divide 6 damage", none, .distribution 6 targets 1⟩
    let asked := Rules.execute {} g (.damage (.divide (.fixed 6))) { targets }
    let answered := Rules.resume {} asked.game
      ⟨d.id, .distribution (.ofList [(⟨2⟩, 2), (⟨3⟩, 3), (⟨1⟩, 1)])⟩
    let placed := Rules.execute {} g
      (.permanent (.distributeCounters .plusOnePlusOne (.fixed 3))) { targets := [⟨2⟩] }
    (answered.game.life ⟨1⟩ = 19 ∧ (answered.game.facets ⟨2⟩).damage? = some 2 ∧
      (answered.game.facets ⟨3⟩).count .loyalty = 0 ∧
      (placed.game.facets ⟨2⟩).count .plusOnePlusOne = 3) ∧
    (∃ parts, Progress.Damages {} none targets 6 parts (.resolving asked.game d)
      ⟨answered.game, answered.events⟩) ∧
    ∃ parts, Progress.Stocks .plusOnePlusOne [⟨2⟩] 3 parts { game := g }
      ⟨placed.game, placed.events⟩ := by
  refine ⟨_, rfl, by decide +kernel, ?_⟩
  have hshared (g : Game) (h : g.Reachable) (hidle : g.pending = none) (targets : List ObjectId)
      (htargets : targets ≠ []) (d : Decision) (answer : Answer) (asked answered placed : Result)
      (hasked : Rules.execute {} g (.damage (.divide (.fixed 6))) { targets } = asked)
      (hpaused : asked = .paused asked.game d asked.events)
      (hanswered : Rules.resume {} asked.game ⟨d.id, answer⟩ = answered)
      (hdealt : answered = .success answered.game answered.events)
      (hplaced : Rules.execute {} g (.permanent (.distributeCounters .plusOnePlusOne (.fixed 3)))
        { targets := [⟨2⟩] } = placed)
      (hstocked : placed = .success placed.game placed.events) :
      (∃ parts, Progress.Damages {} none targets 6 parts (.resolving asked.game d)
        ⟨answered.game, answered.events⟩) ∧
      ∃ parts, Progress.Stocks .plusOnePlusOne [⟨2⟩] 3 parts { game := g }
        ⟨placed.game, placed.events⟩ := by
    have hmany : ({ targets } : Context).targets ≠ [] := htargets
    have hone : ({ targets := [⟨2⟩] } : Context).targets ≠ [] := List.cons_ne_nil _ _
    obtain ⟨-, hdamages, -⟩ := h.shared hidle {} hmany (.fixed 6) .loyalty
    obtain ⟨-, -, hstocks, -⟩ := h.shared hidle {} hone (.fixed 3) .plusOnePlusOne
    have hreachable : asked.game.Reachable := by
      have hmoved := Reachable.move
        (.execute {} (.damage (.divide (.fixed 6))) { targets }) h trivial
      rwa [Move.apply, hasked] at hmoved
    have hamount : max ((Rules.view {} g).evaluate { targets } (.fixed 6)) 0 ≤ maxAmount := by
      change max (6 : Int) 0 ≤ maxAmount
      decide
    exact ⟨hdamages _ d _ hamount (hasked.trans hpaused) _ hreachable rfl rfl {} answer _ _
      (hanswered.trans hdealt), hstocks _ _ (hplaced.trans hstocked)⟩
  have hcards := Reachable.move (.spawn (.ofTypes ⟨8⟩ "Walker" [.planeswalker]) ⟨1⟩ .battlefield)
    (Reachable.move (.spawn (.creature ⟨7⟩ "Bear" 2 2) ⟨1⟩ .battlefield)
      (.start (s := {}) rfl) Nat.one_lt_two) Nat.one_lt_two
  exact hshared _ (.move (.execute _ _ _) hcards trivial) (by decide +kernel) _
    (List.cons_ne_nil _ _) _ _ _ _ _ rfl (by decide +kernel) rfl (by decide +kernel) rfl
    (by decide +kernel)

end CardGame
