import CardGame.Proofs.Resolve.GivingUp

/-!
Paying. A cost that can be paid is paid exactly (`Cost.Paid`): the payer loses the life that it
says, or gives up as many different objects as it says, all from what it may be paid with. Whether
it can be paid is judged by the same objects that it is then paid with.
-/

namespace CardGame

open Resolve

variable {g g' : Game}

namespace Resolve

/-- A change of life that stays in range changes the life total of one player by just that. -/
theorem changeLife_eq {s : Seat} {delta : Int} {p : Progress}
    (hplayer : delta ≠ 0 → p.game.isAlive (.ofSeat s) = true)
    (hrange : saturate (p.game.life s + delta) = p.game.life s + delta) :
    ∃ objects es, changeLife s delta p = .ok ((), ⟨{ p.game with objects }, p.events ++ es⟩) ∧
      es.filter Event.isLoss = [] ∧
      ({ p.game with objects } : Game).life s = p.game.life s + delta ∧
      ∀ o, o ≠ .ofSeat s → objects.find? o = p.game.objects.find? o := by
  unfold changeLife
  by_cases hdelta : delta = 0
  · refine ⟨p.game.objects, [], ?_, rfl, ?_, fun _ _ => rfl⟩
    · rw [if_neg (not_not_intro hdelta), List.append_nil]
      rfl
    · rw [hdelta, Int.add_zero]
  · obtain ⟨⟨before, poison⟩, hfound⟩ := Option.isSome_iff_exists.mp (hplayer hdelta)
    have hcontains : p.game.contains (.ofSeat s) = true := by
      refine SortedMap.contains_iff.mpr (Option.ne_none_iff_exists'.mp fun hnone => ?_)
      rw [Game.facets, hnone] at hfound
      cases hfound
    let paid : SortedMap ObjectId Facets := p.game.objects.modify (.ofSeat s)
      (·.insert (.player (p.game.life s + delta) poison))
    have hset : edit (Game.setLife s (saturate (p.game.life s + delta))) p =
        .ok ((), { p with game := { p.game with objects := paid } }) := by
      rw [hrange]
      unfold edit Game.setLife Game.setFacet
      rw [hfound]
      simp only [if_pos hcontains]
      rfl
    refine ⟨paid, [.lifeChanged s (p.game.life s) (saturate (p.game.life s + delta))], ?_, rfl,
      ?_, fun o ho => ?_⟩
    · rw [if_pos hdelta, game_bind]
      simp only
      rw [bind_of_ok hset]
      rfl
    · rw [Game.life, Game.facets_modify_self hcontains]
      simp [Facets.player?, Facets.insert, Facet.kind]
    · simp [paid, ho]

end Resolve

namespace Cost

/-- The choice that the payer of some objects makes. -/
def choice? : Cost → Option PlayerChoice
  | .life _ => none
  | .discard n => some (.discard n)
  | .sacrifice f n => some (.sacrifice f n)

/-- A player has paid a cost with the chosen objects, and nothing else has been lost. -/
inductive Paid (rules : Rules) (ctx : Context) (payer : Seat) (g : Game) :
    Cost → List ObjectId → Game → List Event → Prop
  | life {n : Int} {g' : Game} {es : List Event} (falls : g'.life payer = g.life payer - n)
      (others : ∀ o, o ≠ .ofSeat payer → g'.objects.find? o = g.objects.find? o)
      (zones : g'.zones = g.zones) (told : es.filter Event.isLoss = []) :
      Paid rules ctx payer g (.life n) [] g' es
  | objects {cost : Cost} {choice : PlayerChoice} {chosen : List ObjectId} {g' : Game}
      {es : List Event} (hchoice : cost.choice? = some choice) (once : chosen.Nodup)
      (among : chosen ⊆ choice.options (rules.view g) ctx payer)
      (exactly : chosen.length = choice.number)
      (given : g.GivesUp (choice.fate (rules.view g)) chosen g')
      (told : es.filter Event.isLoss = chosen.map (choice.loss payer)) :
      Paid rules ctx payer g cost chosen g' es

variable {rules : Rules} {ctx : Context} {payer : Seat} {cost : Cost} {choice : PlayerChoice}
  {chosen : List ObjectId} {es : List Event}

/-- It does not matter what is suspended before and after, nor which floating effects are left. -/
theorem Paid.congr {before after : Game} {es' : List Event}
    (h : cost.Paid rules ctx payer g chosen g' es) (hbefore : before.core false = g.core false)
    (hseats : after.seats = g'.seats) (hturn : after.turn = g'.turn)
    (hobjects : after.objects = g'.objects) (hzones : after.zones = g'.zones)
    (htold : es'.filter Event.isLoss = es.filter Event.isLoss) :
    cost.Paid rules ctx payer before chosen after es' := by
  have hlife (s : Seat) : after.life s = g'.life s := by
    rw [Game.life, Game.life, Game.facets, Game.facets, hobjects]
  cases h with
  | life falls others zones told =>
    have hobjects' : before.objects = g.objects := by simpa using congrArg Game.objects hbefore
    refine .life ?_ (fun o ho => ?_) ?_ (htold.trans told)
    · rw [hlife, falls, Game.life, Game.life, Game.facets, Game.facets, hobjects']
    · rw [hobjects, others o ho, hobjects']
    · rw [hzones, zones]
      exact (congrArg Game.zones hbefore).symm
  | @objects cost choice chosen g' es hchoice once among exactly given told =>
    have hoptions := choice.options_congr rules ctx payer hbefore
    refine .objects hchoice once (hoptions ▸ among) exactly ?_ (htold.trans told)
    rw [choice.fate_congr rules hbefore]
    exact given.congr (Game.givesUp_of_core _ hbefore) (.of_eq hseats hturn hobjects hzones)

theorem isPayable_congr (rules : Rules) (ctx : Context) (payer : Seat) (cost : Cost)
    (hcore : g.core false = g'.core false) :
    cost.isPayable (rules.view g) ctx payer = cost.isPayable (rules.view g') ctx payer := by
  rw [← Cost.isPayable_core false, rules.view_core_eq hcore, Cost.isPayable_core]

theorem isPayable_eq (h : cost.choice? = some choice) (v : View) :
    cost.isPayable v ctx payer = decide (choice.number ≤ (choice.options v ctx payer).length) := by
  cases cost with
  | life n => cases h
  | _ =>
    cases h
    rfl

theorem pay_eq (h : cost.choice? = some choice) (p : Progress) :
    cost.pay rules ctx payer p = cost.payFrom rules ctx payer
      (choice.options (rules.view p.game) ctx payer) choice.number p := by
  cases cost with
  | life n => cases h
  | _ =>
    cases h
    rfl

/-- The chosen objects are given up, and nothing else is done. -/
theorem relinquishes_payWith (rules : Rules) (h : cost.choice? = some choice) {p : Progress}
    (hfurnished : p.game.Furnished) (honce : chosen.Nodup)
    (hamong : chosen ⊆ choice.options (rules.view p.game) ctx payer) :
    Relinquishes (choice.fate (rules.view p.game)) chosen (chosen.map (choice.loss payer))
      (cost.payWith rules payer chosen) p := by
  have hplaced := (PlayerChoice.grants_options rules ctx choice payer hfurnished.sound).placed
  have hcommands := PlayerChoice.commands_options rules ctx choice payer p.game
  cases cost with
  | life n => cases h
  | discard n =>
    cases h
    exact relinquishes_discard payer honce hfurnished fun o ho => hplaced _ rfl o (hamong ho)
  | sacrifice f n =>
    cases h
    exact PlayerChoice.relinquishes_sacrificeAll rules honce (fun o ho => hcommands o (hamong ho))
      hfurnished fun o ho => hplaced _ rfl o (hamong ho)

/-- A cost in objects is paid exactly with as many of them as it takes. -/
theorem exists_payWith (rules : Rules) (ctx : Context) (payer : Seat)
    (h : cost.choice? = some choice) {p : Progress}
    (hfurnished : p.game.Furnished) (honce : chosen.Nodup)
    (hamong : chosen ⊆ choice.options (rules.view p.game) ctx payer)
    (hexactly : chosen.length = choice.number) :
    ∃ q es, cost.payWith rules payer chosen p = .ok ((), q) ∧ q.events = p.events ++ es ∧
      p.game.SameControl q.game ∧ cost.Paid rules ctx payer p.game chosen q.game es := by
  obtain ⟨⟨⟩, q, hrun, hgives⟩ := relinquishes_payWith rules h hfurnished honce hamong
  obtain ⟨es, hevents, htold⟩ := hgives.events
  exact ⟨q, es, hrun, hevents, hgives.control,
    .objects h honce hamong hexactly hgives.game htold⟩

/-- Life is paid exactly. -/
theorem exists_payLife {n : Int} {p : Progress} (hn : 0 ≤ n) (henough : n ≤ p.game.life payer)
    (hrange : p.game.life payer ≤ maxAmount) :
    ∃ q es, changeLife payer (-n) p = .ok ((), q) ∧ q.events = p.events ++ es ∧
      p.game.SameControl q.game ∧ (life n).Paid rules ctx payer p.game [] q.game es := by
  have hplayer (hsome : -n ≠ 0) : p.game.isAlive (.ofSeat payer) = true := by
    have hpositive : 0 < p.game.life payer := by omega
    cases hfound : (p.game.facets (.ofSeat payer)).player? with
    | some player => rw [Game.isAlive, hfound, Option.isSome_some]
    | none => simp [Game.life, hfound] at hpositive
  have hfits : saturate (p.game.life payer + -n) = p.game.life payer + -n := by
    refine saturate_of_mem ?_ ?_
    · rw [minAmount]
      omega
    · omega
  obtain ⟨objects, es, hrun, htold, hfalls, hothers⟩ := changeLife_eq hplayer hfits
  exact ⟨_, es, hrun, rfl, ⟨rfl, rfl, rfl⟩, .life hfalls hothers rfl htold⟩

/-- What the payer is asked who has more to pay with than the cost takes. -/
def request (ctx : Context) (payer : Seat) (options : List ObjectId) (count : Nat) (cost : Cost) :
    Request where
  player := payer
  prompt := s!"Choose {count} to pay with"
  question := .cards options count count false
  source := ctx.source
  work := .payCost payer cost

/-- A cost that can be paid is paid, unless the payer has more to pay with and has to choose. -/
theorem pay_cases {p : Progress} (hfurnished : p.game.Furnished)
    (hpayable : cost.isPayable (rules.view p.game) ctx payer = true)
    (hlife : ∀ n, cost = .life n → 0 ≤ n ∧ p.game.life payer ≤ maxAmount) :
    (∃ chosen q es, cost.pay rules ctx payer p = .ok (.done, q) ∧ q.events = p.events ++ es ∧
        p.game.SameControl q.game ∧ cost.Paid rules ctx payer p.game chosen q.game es) ∨
      ∃ choice, cost.choice? = some choice ∧
        choice.number < (choice.options (rules.view p.game) ctx payer).length ∧
        cost.pay rules ctx payer p =
          ask (some (cost.request ctx payer (choice.options (rules.view p.game) ctx payer)
            choice.number)) p := by
  cases hchoice : cost.choice? with
  | none =>
    cases cost with
    | life n =>
      obtain ⟨hn, hrange⟩ := hlife n rfl
      obtain ⟨q, es, hrun, hpaid⟩ := exists_payLife hn (of_decide_eq_true hpayable) hrange
      refine Or.inl ⟨[], q, es, ?_, hpaid⟩
      rw [pay, bind_of_ok hrun]
      rfl
    | _ => cases hchoice
  | some choice =>
    rw [pay_eq hchoice, payFrom]
    by_cases hall : (choice.options (rules.view p.game) ctx payer).length = choice.number
    · have honce := PlayerChoice.nodup_options rules ctx choice payer hfurnished.sound
      obtain ⟨q, es, hrun, hpaid⟩ :=
        exists_payWith rules ctx payer hchoice hfurnished honce (fun _ => id) hall
      refine Or.inl ⟨_, q, es, ?_, hpaid⟩
      rw [if_pos hall, bind_of_ok hrun]
      rfl
    · rw [isPayable_eq hchoice, decide_eq_true_eq] at hpayable
      refine Or.inr ⟨choice, rfl, Nat.lt_of_le_of_ne hpayable (Ne.symm hall), ?_⟩
      rw [if_neg hall]
      rfl

end Cost

end CardGame
