import CardGame.Proofs.Game.Sound
import CardGame.Proofs.Machine.Typed
import CardGame.Proofs.Seat
import Mathlib.Algebra.Order.BigOperators.Group.List
import Mathlib.Algebra.Order.Group.Nat
import Mathlib.Data.List.Perm.Subperm

/-!
Reading a game on a machine. `Checked.players`, `Checked.evaluate` and `Checked.holds` answer what
the view of a game answers, with every seat, sum and remainder worked out within its range. In a
view that can be held they never stop, and come to the same answers.
-/

namespace CardGame

namespace Checked

/-- The seat to the left. -/
def next (s : Seat) (seats : Nat) : Checked Seat := do
  let i ← add maxLong s.index 1
  let i ← rem i seats
  return ⟨← fit maxByte i⟩

/-- A walk of some steps around the table. -/
def walk (seats : Nat) : Nat → Seat → Checked (List Seat)
  | 0, _ => return []
  | steps + 1, s => do
    let left ← next s seats
    return s :: (← walk seats steps left)

/-- Every seat once, the active player first. -/
def turnOrder (active : Seat) (seats : Nat) : Checked (List Seat) := walk seats seats active

/-- Every seat of a table, in seat order. -/
def everySeat (seats : Nat) : Checked (List Seat) := do
  return (List.range (← fit maxByte seats)).map Seat.mk

/-- The player that an identity stands for. -/
def seat? (o : ObjectId) (seats : Nat) : Checked (Option Seat) := do
  if o.val < (← fit maxWord seats) then return some ⟨← fit maxByte o.val⟩ else return none

/-- The players that a selector names. The player to the left stands in for the opponent, and is
worked out in any case. -/
def players (v : View) (ctx : Context) : Selector → Checked (List Seat)
  | .opponent => do
    let left ← if 1 < v.game.seats then some <$> next ctx.controller v.game.seats else pure none
    return (ctx.opponent.or left).toList
  | .eachOpponent => do
    return (← turnOrder v.game.turn.active v.game.seats).filter (· ≠ ctx.controller)
  | .eachPlayer => turnOrder v.game.turn.active v.game.seats
  | sel => return v.players ctx sel

/-- The number of objects accepted by a filter that some players have in the zones of a kind. -/
def countMatching (v : View) (ctx : Context) (players : List Seat) (zone : ZoneKind)
    (f : ObjectFilter) : Checked Nat :=
  total maxLong (fun s => (v.select f ctx.forFilter (v.objectsOf s zone)).length) players 0

/-- The number of cards that some players have in their hands. -/
def countHands (v : View) (players : List Seat) : Checked Nat :=
  total maxLong (fun s => (v.game.hand s).length) players 0

/-- The value of a measure. -/
def measure (v : View) (ctx : Context) : Measure → Checked Int
  | .lifeTotal sel => do
    return (← players v ctx sel).foldl (fun sum s => saturate (sum + v.game.life s)) 0
  | .count sel zone f => do
    return countAsAmount (← countMatching v ctx (← players v ctx sel) zone f)
  | .cardsInHand sel => do return countAsAmount (← countHands v (← players v ctx sel))
  | m => return v.measure ctx m

/-- Whether a fact of the game holds. -/
def gameFactHolds (v : View) (ctx : Context) : GameFact → Checked Bool
  | .lifeAtLeast sel amount => do
    let players ← players v ctx sel
    return !players.isEmpty && players.all fun s => amount ≤ v.game.life s
  | .controlsMatching sel f count => do
    let found ← countMatching v ctx (← players v ctx sel) .battlefield f
    return (count : Int) ≤ countAsAmount found
  | fact => return v.gameFactHolds ctx fact

mutual

/-- The value of an amount. -/
def evaluate (v : View) (ctx : Context) : Amount → Checked Int
  | .measure m => measure v ctx m
  | .join op a b => do
    let x ← evaluate v ctx a
    let y ← evaluate v ctx b
    return View.join op x y
  | .times a factor => do return saturate ((← evaluate v ctx a) * factor)
  | .nonNegative a => do return max (← evaluate v ctx a) 0
  | .cases c a b => do
    if ← holds v ctx c then evaluate v ctx a else evaluate v ctx b

/-- Whether a condition holds. -/
def holds (v : View) (ctx : Context) : Condition → Checked Bool
  | .all cs => holdAll v ctx cs
  | .any cs => holdAny v ctx cs
  | .not c => do return !(← holds v ctx c)
  | .compare a op b => do
    let x ← evaluate v ctx a
    let y ← evaluate v ctx b
    return op.holds x y
  | .fact f => gameFactHolds v ctx f

def holdAll (v : View) (ctx : Context) : List Condition → Checked Bool
  | [] => return true
  | c :: cs => do
    if ← holds v ctx c then holdAll v ctx cs else return false

def holdAny (v : View) (ctx : Context) : List Condition → Checked Bool
  | [] => return false
  | c :: cs => do
    if ← holds v ctx c then return true else holdAny v ctx cs

end

end Checked

namespace Seat

variable {s : Seat} {seats : Nat}

theorem typed_next (s : Seat) (seats : Nat) : (s.next seats).Typed := by
  have hmod : (s.index + 1) % seats % limit < limit := Nat.mod_lt _ (by decide)
  exact Nat.le_of_lt_succ hmod

/-- From a seat of one byte there is a next one at every table of 1 to 255 players. -/
theorem checked_next (hs : s.Typed) (hsome : seats ≠ 0) (hseats : seats ≤ maxByte) :
    Checked.next s seats = .ok (s.next seats) := by
  have hindex : s.index ≤ 255 := hs
  have hbyte : seats ≤ 255 := hseats
  have hadd : s.index + 1 ≤ maxLong := by
    unfold maxLong
    omega
  have hrem : (s.index + 1) % seats < seats := Nat.mod_lt _ (Nat.pos_of_ne_zero hsome)
  have hfit : (s.index + 1) % seats ≤ maxByte := by omega
  simp only [Checked.next, Checked.add_eq hadd, Checked.ok_bind, Checked.rem_eq hsome,
    Checked.fit_eq hfit]
  rw [next_eq (Nat.pos_of_ne_zero hsome) hseats]
  rfl

theorem checked_walk (hs : s.Typed) {steps : Nat} (hsteps : steps ≤ seats)
    (hseats : seats ≤ maxByte) :
    Checked.walk seats steps s = .ok (walk seats steps s) := by
  induction steps generalizing s with
  | zero => rfl
  | succ steps ih =>
    have hnext := checked_next hs (by omega) hseats
    have hrest := ih (typed_next s seats) (by omega)
    simp only [Checked.walk, hnext, Checked.ok_bind, hrest]
    rfl

theorem checked_turnOrder (hs : s.Typed) (hseats : seats ≤ maxByte) :
    Checked.turnOrder s seats = .ok (turnOrder s seats) :=
  checked_walk hs (Nat.le_refl _) hseats

theorem checked_everySeat (hseats : seats ≤ maxByte) :
    Checked.everySeat seats = .ok (all seats) := by
  have hmod : seats % limit = seats := Nat.mod_eq_of_lt (Nat.lt_succ_of_le hseats)
  simp only [Checked.everySeat, Checked.fit_eq hseats, Checked.ok_bind]
  rw [all, hmod]
  rfl

theorem typed_of_mem_walk (hs : s.Typed) {steps : Nat} {t : Seat} (ht : t ∈ walk seats steps s) :
    t.Typed := by
  induction steps generalizing s with
  | zero => cases ht
  | succ steps ih =>
    rcases List.mem_cons.mp ht with rfl | ht
    · exact hs
    · exact ih (typed_next s seats) ht

end Seat

/-- Identities of players are numbers of one byte. -/
theorem ObjectId.checked_seat? (o : ObjectId) {seats : Nat} (hseats : seats ≤ maxByte) :
    Checked.seat? o seats = .ok (o.seat? seats) := by
  have hbyte : seats ≤ 255 := hseats
  have hword : seats ≤ maxWord := Nat.le_trans hseats (by decide)
  have hfirst : firstObject seats = seats := Nat.mod_eq_of_lt (by omega)
  simp only [Checked.seat?, Checked.fit_eq hword, Checked.ok_bind, seat?, isSeat, hfirst,
    decide_eq_true_eq]
  split
  · next hseat =>
    have hmod : o.val % Seat.limit = o.val := Nat.mod_eq_of_lt (by unfold Seat.limit; omega)
    rw [Checked.fit_eq (by unfold maxByte; omega), hmod]
    rfl
  · rfl

namespace Game

variable {g : Game}

/-- Different objects of a game are no more than the identities handed out. -/
theorem Housed.length_le (h : g.Housed) {xs : List ObjectId} (hnodup : xs.Nodup)
    (hthere : ∀ o ∈ xs, ∃ z, g.zone? o = some z) : xs.length ≤ g.nextObject := by
  have hvals : (xs.map ObjectId.val).Nodup := hnodup.map fun a b heq => by
    cases a
    cases b
    exact congrArg ObjectId.mk heq
  have hsubset : xs.map ObjectId.val ⊆ List.range g.nextObject := by
    intro n hn
    obtain ⟨o, ho, rfl⟩ := List.mem_map.mp hn
    obtain ⟨z, hzone⟩ := hthere o ho
    exact List.mem_range.mpr (h.fresh (h.contains_of_zone? hzone))
  have hlength := (hvals.subperm hsubset).length_le
  simpa using hlength

theorem Housed.length_battlefield_le (h : g.Housed) : g.battlefield.length ≤ g.nextObject := by
  apply h.length_le (h.nodup_allOf _)
  intro o ho
  obtain ⟨s, hzone⟩ := h.zone?_of_mem_allOf ho
  exact ⟨_, hzone⟩

theorem Housed.length_zone_le (h : g.Housed) (s : Seat) (kind : ZoneKind) :
    (g.zone s kind).length ≤ g.nextObject := by
  apply h.length_le (h.consistent.nodup_objects _)
  intro o ho
  exact ⟨_, h.consistent.located ho⟩

end Game

/-- The characteristics that arithmetic relies on can be held. -/
structure Characteristics.Typed (c : Characteristics) : Prop where
  power : ∀ n ∈ c.power, IsAmount n
  toughness : ∀ n ∈ c.toughness, IsAmount n
  controller : ∀ s ∈ c.controller, s.Typed

/-- A view of a sound game, all of which can be held. -/
structure View.Typed (v : View) : Prop where
  sound : v.game.Sound
  game : v.game.Typed
  projection : ∀ p, v.projection = some p → ∀ o c, p.find? o = some c → c.Typed
  unrecorded : IsAmount v.unrecorded.amount

namespace Game

variable {g : Game}

theorem Typed.baseController? (h : g.Typed) {o : ObjectId} {s : Seat}
    (hs : g.baseController? o = some s) : s.Typed := by
  rcases Option.or_eq_some_iff.mp hs with hrecorded | ⟨-, howner⟩
  · exact (h.facets o).controller hrecorded
  · exact h.owner? howner

theorem Typed.base? (h : g.Typed) {o : ObjectId} {c : Characteristics}
    (hc : Characteristics.base? g o = some c) : c.Typed := by
  obtain ⟨card, hcard, rfl⟩ := Option.map_eq_some_iff.mp hc
  have hface : card.toFace.Typed := (h.facets o).card hcard
  have hcontroller : ∀ s ∈ g.baseController? o, s.Typed := fun s hs => h.baseController? hs
  split
  · constructor
    · rintro n ⟨⟩
      decide
    · rintro n ⟨⟩
      decide
    · exact hcontroller
  · exact ⟨hface.power, hface.toughness, hcontroller⟩

theorem Typed.seat? (h : g.Typed) {o : ObjectId} {s : Seat} (hs : g.seat? o = some s) :
    s.Typed := by
  have howner : g.owner? o = some s := by rw [Game.owner?, hs, Option.some_or]
  exact h.owner? howner

end Game

namespace View

variable {v : View} {ctx : Context}

theorem Typed.characteristics? (h : v.Typed) {o : ObjectId} {c : Characteristics}
    (hc : v.characteristics? o = some c) : c.Typed := by
  rcases Option.or_eq_some_iff.mp hc with hprojected | ⟨-, hbase⟩
  · obtain ⟨p, hp, hfind⟩ := Option.bind_eq_some_iff.mp hprojected
    exact h.projection p hp o c hfind
  · exact h.game.base? hbase

theorem Typed.controller? (h : v.Typed) {o : ObjectId} {s : Seat}
    (hs : v.controller? o = some s) : s.Typed := by
  unfold View.controller? at hs
  split at hs
  · next hseat =>
    cases hs
    exact h.game.seat? hseat
  · split at hs
    · obtain ⟨c, hc, hcontroller⟩ := Option.bind_eq_some_iff.mp hs
      exact (h.characteristics? hc).controller s hcontroller
    · exact h.game.owner? hs

theorem Typed.seats_le (h : v.Typed) : v.game.seats ≤ maxByte := h.sound.housed.seated

/-- The players that a selector names are worked out without fail. -/
theorem checked_players (h : v.Typed) (hctx : ctx.Typed) (sel : Selector) :
    Checked.players v ctx sel = .ok (v.players ctx sel) := by
  have horder := Seat.checked_turnOrder h.game.active h.seats_le
  cases sel with
  | opponent =>
    by_cases hmany : 1 < v.game.seats
    · have hleft := Seat.checked_next hctx.controller (by omega) h.seats_le
      simp only [Checked.players, players, if_pos hmany, hleft]
      cases ctx.opponent <;> rfl
    · simp only [Checked.players, players, if_neg hmany]
      cases ctx.opponent <;> rfl
  | eachOpponent =>
    simp only [Checked.players, horder, Checked.ok_bind]
    rfl
  | eachPlayer => exact horder
  | _ => rfl

/-- The players that a selector names have numbers of one byte. -/
theorem typed_players (h : v.Typed) (hctx : ctx.Typed) {sel : Selector} {s : Seat}
    (hs : s ∈ v.players ctx sel) : s.Typed := by
  have horder : ∀ t ∈ v.game.turnOrder, t.Typed := fun t ht =>
    Seat.typed_of_mem_walk h.game.active ht
  cases sel with
  | you =>
    rw [List.mem_singleton.mp hs]
    exact hctx.controller
  | opponent =>
    simp only [players] at hs
    split at hs
    · next t hopponent =>
      rw [List.mem_singleton.mp hs]
      exact hctx.opponent t hopponent
    · split at hs
      · rw [List.mem_singleton.mp hs]
        exact Seat.typed_next _ _
      · cases hs
  | eachOpponent => exact horder s (List.mem_of_mem_filter hs)
  | eachPlayer => exact horder s hs
  | activePlayer =>
    rw [List.mem_singleton.mp hs]
    exact h.game.active
  | targetPlayer index =>
    obtain ⟨o, -, hseat⟩ := Option.bind_eq_some_iff.mp (Option.mem_toList.mp hs)
    exact h.game.seat? hseat
  | triggeringPlayer => exact hctx.triggeringPlayer s (Option.mem_toList.mp hs)
  | controllerOf r =>
    obtain ⟨o, -, hcontroller⟩ := Option.bind_eq_some_iff.mp (Option.mem_toList.mp hs)
    exact h.controller? hcontroller
  | ownerOf r =>
    obtain ⟨o, -, howner⟩ := Option.bind_eq_some_iff.mp (Option.mem_toList.mp hs)
    exact h.game.owner? howner
  | specific t =>
    simp only [players] at hs
    split at hs
    · next hseated =>
      rw [List.mem_singleton.mp hs]
      exact Nat.le_trans (Nat.le_of_lt hseated) h.seats_le
    · cases hs

/-- A selector names no more players than one byte can count. -/
theorem Typed.length_players_le (h : v.Typed) (sel : Selector) :
    (v.players ctx sel).length ≤ maxByte := by
  have hone : 1 ≤ maxByte := by decide
  have hoption (s : Option Seat) : s.toList.length ≤ maxByte := by
    cases s with
    | none => exact Nat.zero_le _
    | some s => exact hone
  have horder : v.game.turnOrder.length ≤ maxByte := by
    rw [Game.turnOrder, Seat.turnOrder, Seat.length_walk]
    exact h.seats_le
  cases sel with
  | opponent =>
    simp only [players]
    split
    · exact hone
    · split
      · exact hone
      · exact Nat.zero_le _
  | eachOpponent => exact Nat.le_trans (List.length_filter_le _ _) horder
  | eachPlayer => exact horder
  | specific t =>
    simp only [players]
    split
    · exact hone
    · exact Nat.zero_le _
  | you => exact hone
  | activePlayer => exact hone
  | _ => exact hoption _

/-- As many words as a byte can count add up to less than 64 bits can hold. -/
theorem checked_total (h : v.Typed) {sel : Selector} {size : Seat → Nat}
    (hsize : ∀ s, size s ≤ v.game.nextObject) :
    Checked.total maxLong size (v.players ctx sel) 0 =
      .ok (((v.players ctx sel).map size).sum) := by
  have hplayers : (v.players ctx sel).length ≤ maxByte := h.length_players_le sel
  have hsum : ((v.players ctx sel).map size).sum ≤
      (v.players ctx sel).length * v.game.nextObject := by
    have hall := List.sum_le_card_nsmul ((v.players ctx sel).map size) v.game.nextObject
    rw [List.length_map] at hall
    exact hall (List.forall_mem_map.mpr fun s _ => hsize s)
  have hobjects := h.game.nextObject
  have hbound : ((v.players ctx sel).map size).sum ≤ maxByte * maxWord :=
    Nat.le_trans hsum (Nat.mul_le_mul hplayers hobjects)
  have hlong : maxByte * maxWord ≤ maxLong := by decide
  have hfits : 0 + ((v.players ctx sel).map size).sum ≤ maxLong := by omega
  rw [Checked.total_eq (v.players ctx sel) hfits, Nat.zero_add]

theorem checked_countMatching (h : v.Typed) (sel : Selector) (zone : ZoneKind)
    (f : ObjectFilter) :
    Checked.countMatching v ctx (v.players ctx sel) zone f =
      .ok (v.countMatching ctx (v.players ctx sel) zone f) := by
  have hsize (s : Seat) :
      (v.select f ctx.forFilter (v.objectsOf s zone)).length ≤ v.game.nextObject := by
    refine Nat.le_trans (List.length_filter_le _ _) ?_
    have hhoused := h.sound.housed
    cases zone with
    | battlefield =>
      exact Nat.le_trans (List.length_filter_le _ _) hhoused.length_battlefield_le
    | _ => exact hhoused.length_zone_le s _
  unfold Checked.countMatching countMatching
  rw [checked_total h hsize, List.length_flatMap]

theorem checked_countHands (h : v.Typed) (sel : Selector) :
    Checked.countHands v (v.players ctx sel) =
      .ok ((v.players ctx sel).flatMap v.game.hand).length := by
  have hsize (s : Seat) : (v.game.hand s).length ≤ v.game.nextObject :=
    h.sound.housed.length_zone_le s .hand
  unfold Checked.countHands
  rw [checked_total h hsize, List.length_flatMap]

theorem checked_measure (h : v.Typed) (hctx : ctx.Typed) (m : Measure) :
    Checked.measure v ctx m = .ok (v.measure ctx m) := by
  cases m with
  | lifeTotal sel =>
    simp only [Checked.measure, checked_players h hctx]
    rfl
  | count sel zone f =>
    simp only [Checked.measure, checked_players h hctx, Checked.ok_bind, checked_countMatching h]
    rfl
  | cardsInHand sel =>
    simp only [Checked.measure, checked_players h hctx, Checked.ok_bind, checked_countHands h]
    rfl
  | _ => rfl

theorem checked_gameFactHolds (h : v.Typed) (hctx : ctx.Typed) (f : GameFact) :
    Checked.gameFactHolds v ctx f = .ok (v.gameFactHolds ctx f) := by
  cases f with
  | lifeAtLeast sel amount =>
    simp only [Checked.gameFactHolds, checked_players h hctx]
    rfl
  | controlsMatching sel f count =>
    simp only [Checked.gameFactHolds, checked_players h hctx, Checked.ok_bind,
      checked_countMatching h]
    rfl
  | _ => rfl

mutual

/-- An amount is worked out without fail. -/
theorem checked_evaluate (h : v.Typed) (hctx : ctx.Typed) (a : Amount) :
    Checked.evaluate v ctx a = .ok (v.evaluate ctx a) := by
  cases a with
  | measure m =>
    unfold Checked.evaluate
    rw [checked_measure h hctx, evaluate]
  | join op a b =>
    unfold Checked.evaluate
    rw [checked_evaluate h hctx a, checked_evaluate h hctx b, evaluate]
    rfl
  | times a factor =>
    unfold Checked.evaluate
    rw [checked_evaluate h hctx a, evaluate]
    rfl
  | nonNegative a =>
    unfold Checked.evaluate
    rw [checked_evaluate h hctx a, evaluate]
    rfl
  | cases c a b =>
    unfold Checked.evaluate
    rw [checked_holds h hctx c, checked_evaluate h hctx a, checked_evaluate h hctx b, evaluate]
    cases v.holds ctx c <;> rfl

/-- A condition is decided without fail. -/
theorem checked_holds (h : v.Typed) (hctx : ctx.Typed) (c : Condition) :
    Checked.holds v ctx c = .ok (v.holds ctx c) := by
  cases c with
  | all cs =>
    unfold Checked.holds
    rw [checked_holdAll h hctx cs, holds]
  | any cs =>
    unfold Checked.holds
    rw [checked_holdAny h hctx cs, holds]
  | not c =>
    unfold Checked.holds
    rw [checked_holds h hctx c, holds]
    rfl
  | compare a op b =>
    unfold Checked.holds
    rw [checked_evaluate h hctx a, checked_evaluate h hctx b, holds]
    rfl
  | fact f =>
    unfold Checked.holds
    rw [checked_gameFactHolds h hctx, holds]

theorem checked_holdAll (h : v.Typed) (hctx : ctx.Typed) (cs : List Condition) :
    Checked.holdAll v ctx cs = .ok (v.holdAll ctx cs) := by
  cases cs with
  | nil =>
    unfold Checked.holdAll
    rw [holdAll]
    rfl
  | cons c rest =>
    unfold Checked.holdAll
    rw [checked_holds h hctx c, checked_holdAll h hctx rest, holdAll]
    cases v.holds ctx c <;> rfl

theorem checked_holdAny (h : v.Typed) (hctx : ctx.Typed) (cs : List Condition) :
    Checked.holdAny v ctx cs = .ok (v.holdAny ctx cs) := by
  cases cs with
  | nil =>
    unfold Checked.holdAny
    rw [holdAny]
    rfl
  | cons c rest =>
    unfold Checked.holdAny
    rw [checked_holds h hctx c, checked_holdAny h hctx rest, holdAny]
    cases v.holds ctx c <;> rfl

end

theorem isAmount_foldl_saturate (xs : List Int) {sum : Int} (hsum : IsAmount sum) :
    IsAmount (xs.foldl (fun sum x => saturate (sum + x)) sum) := by
  induction xs generalizing sum with
  | nil => exact hsum
  | cons x rest ih => exact ih (isAmount_saturate _)

theorem isAmount_getD {n : Option Int} (h : ∀ x ∈ n, IsAmount x) : IsAmount (n.getD 0) := by
  cases n with
  | none => exact isAmount_zero
  | some x => exact h x rfl

/-- A measure comes to an amount. -/
theorem isAmount_measure (h : v.Typed) (hctx : ctx.Typed) {m : Measure}
    (hm : (Amount.measure m).Typed) : IsAmount (v.measure ctx m) := by
  have hfound {get : Characteristics → Option Int} {r : Reference}
      (hget : ∀ c : Characteristics, c.Typed → ∀ x ∈ get c, IsAmount x) :
      IsAmount (((object? ctx r).bind v.characteristics?).bind get |>.getD 0) := by
    apply isAmount_getD
    intro x hx
    obtain ⟨c, hc, hget'⟩ := Option.bind_eq_some_iff.mp hx
    obtain ⟨o, -, hc⟩ := Option.bind_eq_some_iff.mp hc
    exact hget c (h.characteristics? hc) x hget'
  have hcount {β : Type} {r : Option β} {size : β → Nat} :
      IsAmount ((r.map fun b => countAsAmount (size b)).getD 0) := by
    apply isAmount_getD
    intro x hx
    obtain ⟨b, -, rfl⟩ := Option.map_eq_some_iff.mp hx
    exact isAmount_countAsAmount _
  cases m with
  | fixed n => exact hm
  | x => exact hctx.x
  | lifeTotal sel =>
    have hfold := isAmount_foldl_saturate ((v.players ctx sel).map v.game.life) isAmount_zero
    rwa [List.foldl_map] at hfold
  | powerOf r => exact hfound fun c hc => hc.power
  | toughnessOf r => exact hfound fun c hc => hc.toughness
  | manaValueOf r => exact hcount
  | countersOn r kind => exact hcount
  | count sel zone f => exact isAmount_countAsAmount _
  | cardsInHand sel => exact isAmount_countAsAmount _
  | damageDealtThisTurn r => exact h.unrecorded

/-- An amount that can be held comes to one. -/
theorem isAmount_evaluate (h : v.Typed) (hctx : ctx.Typed) {a : Amount} (ha : a.Typed) :
    IsAmount (v.evaluate ctx a) := by
  cases a with
  | measure m =>
    rw [evaluate]
    exact isAmount_measure h hctx ha
  | join op a b =>
    have hfirst := isAmount_evaluate h hctx ha.1
    have hsecond := isAmount_evaluate h hctx ha.2
    rw [evaluate]
    cases op with
    | add => exact isAmount_saturate _
    | subtract => exact isAmount_saturate _
    | max => exact hfirst.max hsecond
    | min => exact hfirst.min hsecond
  | times a factor =>
    rw [evaluate]
    exact isAmount_saturate _
  | nonNegative a =>
    have hinner : a.Typed := ha
    rw [evaluate]
    exact (isAmount_evaluate h hctx hinner).max isAmount_zero
  | cases c a b =>
    rw [evaluate]
    split
    · exact isAmount_evaluate h hctx ha.1
    · exact isAmount_evaluate h hctx ha.2

end View

end CardGame
