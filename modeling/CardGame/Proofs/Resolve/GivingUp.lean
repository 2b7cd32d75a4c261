import CardGame.Proofs.Resolve.Carrying

/-!
What becomes of objects that are given up: cards that are discarded, and permanents that are
sacrificed. They come to the graveyards of their owners, or to exile if they are marked for that,
tokens cease to exist, and nothing else is touched (`Game.GivesUp`). A loop over different objects
gives up all of them, and tells so in the order of the loop (`Progress.GivesUp`). What there is to
give up, and where it goes, does not depend on what is suspended.
-/

namespace CardGame

open Resolve

/-- Whether an event tells that a player gives something up. -/
def Event.isLoss : Event → Bool
  | .cardDiscarded _ _ | .sacrificed _ _ => true
  | _ => false

/-- Nobody loses anything when floating effects end. -/
theorem Game.losses_sweep (g : Game) : g.sweep.2.filter Event.isLoss = [] := by
  refine List.filter_eq_nil_iff.mpr fun e he => ?_
  obtain ⟨f, -, rfl⟩ := List.mem_map.mp he
  exact Bool.false_ne_true

namespace Game

variable {g g' g'' : Game} {o : ObjectId} {fate : ObjectId → ZoneKind} {os os' : List ObjectId}

/-- Where an object is once it has been moved to its owner's zone of a kind off the battlefield. A
token that leaves the battlefield is nowhere. -/
def landing? (g : Game) (o : ObjectId) (kind : ZoneKind) : Option Zone :=
  if g.onBattlefield o && g.has o .token then none else (g.owner? o).map (⟨·, kind⟩)

/-- Some objects have been given up, each to the zone that is its fate. The rest of the table is as
it was. -/
structure GivesUp (fate : ObjectId → ZoneKind) (os : List ObjectId) (g g' : Game) : Prop where
  seats : g'.seats = g.seats
  turn : g'.turn = g.turn
  gone : ∀ o ∈ os, g'.zone? o = g.landing? o (fate o)
  zone? : ∀ o, o ∉ os → g'.zone? o = g.zone? o
  contains : ∀ o, o ∉ os → g'.contains o = g.contains o
  facets : ∀ o, o ∉ os → g'.facets o = g.facets o
  life : ∀ s : Seat, s.index < g.seats → g'.life s = g.life s

namespace GivesUp

/-- Nothing is given up where the table stays the same. -/
theorem of_eq (hseats : g'.seats = g.seats) (hturn : g'.turn = g.turn)
    (hobjects : g'.objects = g.objects) (hzones : g'.zones = g.zones) :
    GivesUp fate [] g g' where
  seats := hseats
  turn := hturn
  gone _ ho := by cases ho
  zone? _ _ := by rw [Game.zone?, Game.zone?, hzones]
  contains _ _ := by rw [Game.contains, Game.contains, hobjects]
  facets _ _ := by rw [Game.facets, Game.facets, hobjects]
  life _ _ := by rw [Game.life, Game.life, Game.facets, Game.facets, hobjects]

/-- What is not given up still has the same way to go. -/
theorem landing?_eq (h : GivesUp fate os g g') (ho : o ∉ os) (kind : ZoneKind) :
    g'.landing? o kind = g.landing? o kind := by
  have hzone : g'.zones.zone? o = g.zones.zone? o := h.zone? o ho
  unfold landing? owner? seat? has onBattlefield Zones.isIn
  rw [hzone, h.facets o ho, h.seats]

theorem trans (h : GivesUp fate os g g') (h' : GivesUp fate os' g' g'')
    (hapart : ∀ o ∈ os', o ∉ os) : GivesUp fate (os ++ os') g g'' where
  seats := h'.seats.trans h.seats
  turn := h'.turn.trans h.turn
  gone o ho := by
    by_cases hlater : o ∈ os'
    · rw [h'.gone o hlater, h.landing?_eq (hapart o hlater)]
    · have hfirst : o ∈ os := (List.mem_append.mp ho).resolve_right hlater
      rw [h'.zone? o hlater, h.gone o hfirst]
  zone? o ho := by
    rw [List.mem_append, not_or] at ho
    rw [h'.zone? o ho.2, h.zone? o ho.1]
  contains o ho := by
    rw [List.mem_append, not_or] at ho
    rw [h'.contains o ho.2, h.contains o ho.1]
  facets o ho := by
    rw [List.mem_append, not_or] at ho
    rw [h'.facets o ho.2, h.facets o ho.1]
  life s hs := by
    have hseated : s.index < g'.seats := h.seats ▸ hs
    rw [h'.life s hseated, h.life s hs]

/-- What does not belong to the table may be different before and after. -/
theorem congr {before after : Game} (h : GivesUp fate os g g')
    (hbefore : GivesUp fate [] before g) (hafter : GivesUp fate [] g' after) :
    GivesUp fate os before after := by
  have hboth := (hbefore.trans h (by simp)).trans hafter (by simp)
  rwa [List.append_nil] at hboth

end GivesUp

/-- Moving an object off the battlefield, or from one zone to another elsewhere, gives it up. -/
theorem Housed.givesUp_move {kind kind' : ZoneKind} {s : Seat} (h : g.Housed)
    (hzone : g.zone? o = some ⟨s, kind'⟩) (hkind : kind ≠ .battlefield) (hfate : fate o = kind)
    {origin : Zone} (hmove : move o ⟨s, kind⟩ .top none g = .ok origin g') :
    GivesUp fate [o] g g' := by
  have hother {o' : ObjectId} (ho : o' ∉ [o]) : o ≠ o' := fun heq =>
    ho (List.mem_singleton.mpr heq.symm)
  obtain ⟨zones, hzones, hcases⟩ := move_eq_ok hmove
  obtain rfl : origin = ⟨s, kind'⟩ :=
    Option.some.inj ((Zones.zone?_of_move hzones).symm.trans hzone)
  have hmoved : ({ g with zones } : Game).zone? o = some ⟨s, kind⟩ := by
    rw [Game.zone?, Zones.zone?_move hzones, if_pos rfl]
  have hlanding (htoken : (g.onBattlefield o && g.has o .token) = false) :
      g.landing? o (fate o) = some ⟨s, kind⟩ := by
    rw [landing?, htoken, h.owner?_of_zone? hzone, hfate]
    rfl
  have hseat := h.seat?_of_zone? hzone
  have hlife (hfacets : ∀ o', o' ∉ [o] → g'.facets o' = g.facets o') (s : Seat)
      (hs : s.index < g.seats) : g'.life s = g.life s := by
    rw [Game.life, hfacets, Game.life]
    exact fun hmem => h.ne_ofSeat hseat hs (List.mem_singleton.mp hmem).symm
  rcases hcases with ⟨hfrom, -, rfl⟩ | ⟨hboth, rfl⟩ | ⟨-, hto, -⟩
  · have hthere : g.onBattlefield o = true := by
      have hkind' : kind' = .battlefield := hfrom
      exact onBattlefield_iff.mpr ⟨s, hkind' ▸ hzone⟩
    have hfacets (o' : ObjectId) (ho : o' ∉ [o]) :=
      facets_leaveBattlefield_of_ne (g := { g with zones }) (hother ho)
    refine ⟨?_, ?_, ?_, ?_, ?_, hfacets, hlife hfacets⟩
    · rw [leaveBattlefield_frame]
    · rw [leaveBattlefield_frame]
    · intro o' ho
      rw [List.mem_singleton.mp ho, zone?_leaveBattlefield, hmoved]
      have hhas : ({ g with zones } : Game).has o .token = g.has o .token := rfl
      rw [hhas]
      cases htoken : g.has o .token with
      | true => rw [if_pos ⟨rfl, rfl⟩, landing?, hthere, htoken, Bool.and_self, if_pos rfl]
      | false => rw [if_neg (by simp), hlanding (by rw [htoken, Bool.and_false])]
    · exact fun o' ho => zone?_move_of_ne hmove (hother ho)
    · intro o' ho
      rw [contains_leaveBattlefield, if_neg fun hceased => hother ho hceased.2]
      rfl
  · have haway : g.onBattlefield o = false := by
      rw [Bool.eq_false_iff, ne_eq, onBattlefield_iff]
      rintro ⟨s', hzone'⟩
      obtain ⟨-, rfl⟩ : s = s' ∧ kind' = .battlefield := by
        simpa using hzone.symm.trans hzone'
      exact hkind (hboth.mp rfl)
    refine ⟨rfl, rfl, ?_, ?_, fun _ _ => rfl, fun _ _ => rfl, fun _ _ => rfl⟩
    · intro o' ho
      rw [List.mem_singleton.mp ho, hmoved, hlanding (by rw [haway, Bool.false_and])]
    · exact fun o' ho => zone?_move_of_ne hmove (hother ho)
  · exact absurd hto hkind

end Game

namespace Progress

variable {p q r : Progress} {fate : ObjectId → ZoneKind} {os os' : List ObjectId}
  {losses losses' : List Event}

/-- Some objects have been given up, and that is all the loss that has been told. -/
structure GivesUp (fate : ObjectId → ZoneKind) (os : List ObjectId) (losses : List Event)
    (p q : Progress) : Prop where
  furnished : q.game.Furnished
  control : p.game.SameControl q.game
  game : p.game.GivesUp fate os q.game
  events : ∃ es, q.events = p.events ++ es ∧ es.filter Event.isLoss = losses

namespace GivesUp

theorem trans (h : p.GivesUp fate os losses q) (h' : q.GivesUp fate os' losses' r)
    (hapart : ∀ o ∈ os', o ∉ os) : p.GivesUp fate (os ++ os') (losses ++ losses') r where
  furnished := h'.furnished
  control := h.control.trans h'.control
  game := h.game.trans h'.game hapart
  events := by
    obtain ⟨es, hevents, hlosses⟩ := h.events
    obtain ⟨es', hevents', hlosses'⟩ := h'.events
    refine ⟨es ++ es', ?_, ?_⟩
    · rw [hevents', hevents, List.append_assoc]
    · rw [List.filter_append, hlosses, hlosses']

/-- Where nothing is done, nothing is given up. -/
theorem refl (hfurnished : p.game.Furnished) : p.GivesUp fate [] [] p where
  furnished := hfurnished
  control := .refl _
  game := .of_eq rfl rfl rfl rfl
  events := ⟨[], (List.append_nil _).symm, rfl⟩

/-- What is told makes no difference to the game. -/
theorem tell (hfurnished : p.game.Furnished) (e : Event) :
    p.GivesUp fate [] ([e].filter Event.isLoss) { p with events := p.events ++ [e] } where
  furnished := hfurnished
  control := .refl _
  game := .of_eq rfl rfl rfl rfl
  events := ⟨[e], rfl, rfl⟩

/-- What is not given up is where it was. -/
theorem liesAt (h : p.GivesUp fate os losses q) {o : ObjectId} {place : Place} (ho : o ∉ os)
    (hlies : p.game.LiesAt o place) : q.game.LiesAt o place := by
  obtain ⟨z, hzone, hplace⟩ := hlies
  exact ⟨z, (h.game.zone? o ho).trans hzone, hplace⟩

end GivesUp

end Progress

namespace Resolve

variable {α β : Type} {p : Progress} {fate : ObjectId → ZoneKind} {o : ObjectId}

/-- A part that ends having given up some objects and told some losses. -/
def Relinquishes (fate : ObjectId → ZoneKind) (os : List ObjectId) (losses : List Event)
    (r : Resolve α) (p : Progress) : Prop :=
  ∃ a q, r p = .ok (a, q) ∧ p.GivesUp fate os losses q

namespace Relinquishes

variable {os os' : List ObjectId} {losses losses' : List Event}

theorem bind {m : Resolve β} {k : β → Resolve α} (hm : Relinquishes fate os losses m p)
    (hk : ∀ b q, p.GivesUp fate os losses q → Relinquishes fate os' losses' (k b) q)
    (hapart : ∀ o ∈ os', o ∉ os) :
    Relinquishes fate (os ++ os') (losses ++ losses') (m >>= k) p := by
  obtain ⟨b, q, hfirst, hgives⟩ := hm
  obtain ⟨a, r, hrest, hgives'⟩ := hk b q hgives
  refine ⟨a, r, ?_, hgives.trans hgives' hapart⟩
  rw [bind_of_ok hfirst]
  exact hrest

/-- An event comes last. -/
theorem telling {m : Resolve β} (hm : Relinquishes fate os losses m p) (e : Event) :
    Relinquishes fate os (losses ++ [e].filter Event.isLoss) (m >>= fun _ => emit e) p := by
  have htold : Relinquishes fate (os ++ []) (losses ++ [e].filter Event.isLoss)
      (m >>= fun _ => emit e) p :=
    hm.bind (fun _ q hgives => ⟨(), _, rfl, .tell hgives.furnished e⟩) (by simp)
  rwa [List.append_nil] at htold

end Relinquishes

/-- A loop gives up all the objects of its rounds, if they are different. -/
theorem relinquishes_forM {xs : List β} {body : β → Resolve PUnit} (objects : β → List ObjectId)
    (losses : β → List Event) (place : β → Place) (honce : (xs.flatMap objects).Nodup)
    (hbody : ∀ x ∈ xs, ∀ p : Progress, p.game.Furnished →
      (∀ o ∈ objects x, p.game.LiesAt o (place x)) →
      Relinquishes fate (objects x) (losses x) (body x) p)
    (hfurnished : p.game.Furnished)
    (hplaced : ∀ x ∈ xs, ∀ o ∈ objects x, p.game.LiesAt o (place x)) :
    Relinquishes fate (xs.flatMap objects) (xs.flatMap losses) (xs.forM body) p := by
  induction xs generalizing p with
  | nil => exact ⟨⟨⟩, p, rfl, .refl hfurnished⟩
  | cons x rest ih =>
    rw [List.flatMap_cons] at honce
    obtain ⟨-, hrest, hapart⟩ := List.nodup_append'.mp honce
    have hlater (o : ObjectId) (ho : o ∈ rest.flatMap objects) : o ∉ objects x :=
      fun hfirst => hapart hfirst ho
    have hround := hbody x List.mem_cons_self p hfurnished (hplaced x List.mem_cons_self)
    rw [List.flatMap_cons, List.flatMap_cons]
    refine hround.bind (fun _ q hgives => ?_) hlater
    refine ih hrest (fun y hy => hbody y (List.mem_cons_of_mem _ hy)) hgives.furnished ?_
    intro y hy o ho
    have hlies := hplaced y (List.mem_cons_of_mem _ hy) o ho
    exact hgives.liesAt (hlater o (List.mem_flatMap.mpr ⟨y, hy, ho⟩)) hlies

/-- A loop over different objects at one place. -/
theorem relinquishes_each {os : List ObjectId} {body : ObjectId → Resolve PUnit}
    {loss : ObjectId → Event} (place : Place) (honce : os.Nodup)
    (hbody : ∀ o ∈ os, ∀ p : Progress, p.game.Furnished → p.game.LiesAt o place →
      Relinquishes fate [o] [loss o] (body o) p)
    (hfurnished : p.game.Furnished) (hplaced : ∀ o ∈ os, p.game.LiesAt o place) :
    Relinquishes fate os (os.map loss) (os.forM body) p := by
  have hall : Relinquishes fate (os.flatMap fun o => [o]) (os.flatMap fun o => [loss o])
      (os.forM body) p := by
    refine relinquishes_forM _ _ (fun _ => place) (by simpa using honce) ?_ hfurnished
      (by simpa using hplaced)
    intro o ho p hfurnished hlies
    exact hbody o ho p hfurnished (hlies o (List.mem_singleton_self o))
  rwa [List.flatMap_singleton', ← List.map_eq_flatMap] at hall

theorem owner_of_zone? {s : Seat} {kind : ZoneKind} (hfurnished : p.game.Furnished)
    (hzone : p.game.zone? o = some ⟨s, kind⟩) : owner o p = .ok (s, p) := by
  unfold owner
  rw [game_bind, hfurnished.sound.housed.owner?_of_zone? hzone]
  rfl

theorem requireIn_of_liesAt {kind : ZoneKind} (hfurnished : p.game.Furnished)
    (hlies : p.game.LiesAt o (.anyOf kind)) : requireIn o kind p = .ok ((), p) := by
  obtain ⟨⟨s, kind'⟩, hzone, rfl⟩ := hlies
  have hrequire : require o p = .ok ((), p) := by
    unfold require
    rw [game_bind, if_pos (hfurnished.sound.housed.contains_of_zone? hzone)]
    rfl
  unfold requireIn
  rw [bind_of_ok hrequire, game_bind, if_pos (Zones.isIn_iff.mpr ⟨s, hzone⟩)]
  rfl

theorem relinquishes_moveToOwners {s : Seat} {kind kind' : ZoneKind}
    (hfurnished : p.game.Furnished) (hzone : p.game.zone? o = some ⟨s, kind'⟩)
    (hkind : kind ≠ .battlefield) (hfate : fate o = kind) :
    Relinquishes fate [o] [] (moveToOwners o kind) p := by
  have hhoused := hfurnished.sound.housed
  obtain ⟨g', hmoved⟩ := hfurnished.exists_move hzone kind .top none
  have hgame := hhoused.givesUp_move hzone hkind hfate hmoved
  have howner : (⟨s, kind'⟩ : Zone).owner = (⟨s, kind⟩ : Zone).owner := rfl
  have halter : Game.Alter (fun _ => True) p.game g' := .move howner hmoved
  have hedit : edit (Game.move o ⟨s, kind⟩ .top none) p =
      .ok (⟨s, kind'⟩, { p with game := g' }) := by
    unfold edit
    rw [hmoved]
  have hgives (es : List Event) (hes : es.filter Event.isLoss = []) :
      p.GivesUp fate [o] [] ⟨g', p.events ++ es⟩ :=
    ⟨hfurnished.alter halter, Game.sameControl_move hmoved, hgame, es, rfl, hes⟩
  unfold moveToOwners
  rw [Relinquishes, bind_of_ok (owner_of_zone? hfurnished hzone), moveTo, bind_of_ok hedit]
  cases hceased : g'.contains o with
  | true =>
    refine ⟨⟨s, kind'⟩, _, ?_, hgives [.zoneChanged o ⟨s, kind'⟩ ⟨s, kind⟩] rfl⟩
    change (if !g'.contains o then _ else _ : Resolve Zone) _ = _
    rw [hceased]
    rfl
  | false =>
    refine ⟨⟨s, kind'⟩, _, ?_,
      hgives [.zoneChanged o ⟨s, kind'⟩ ⟨s, kind⟩, .tokenCeased o] rfl⟩
    change (if !g'.contains o then _ else _ : Resolve Zone) _ = _
    rw [hceased]
    change Except.ok (_, (⟨g', (p.events ++ [_]) ++ [_]⟩ : Progress)) = _
    rw [List.append_assoc]
    rfl

/-- A permanent that dies comes to the graveyard or, if it is marked for that, to exile. -/
theorem relinquishes_die {c : Characteristics} {z : Zone} (hfurnished : p.game.Furnished)
    (hzone : p.game.zone? o = some z)
    (hfate : fate o = if c.exileOnDeath then .exile else .graveyard) :
    Relinquishes fate [o] [] (die o c) p := by
  have hkind : (if c.exileOnDeath then ZoneKind.exile else .graveyard) ≠ .battlefield := by
    split <;> decide
  obtain ⟨a, q, hrun, hgives⟩ := relinquishes_moveToOwners hfurnished hzone hkind hfate
  refine ⟨(), q, ?_, hgives⟩
  rw [die, bind_of_ok hrun]
  rfl

/-- Cards that are discarded come to the graveyards. -/
theorem relinquishes_discard (s : Seat) {cards : List ObjectId} (honce : cards.Nodup)
    (hfurnished : p.game.Furnished)
    (hhand : ∀ o ∈ cards, p.game.LiesAt o (.within (.hand s))) :
    Relinquishes (fun _ => .graveyard) cards (cards.map (.cardDiscarded s)) (discard s cards)
      p := by
  unfold discard
  refine relinquishes_each _ honce (fun o _ p hfurnished hlies => ?_) hfurnished hhand
  have hzone := Game.liesAt_within_iff.mp hlies
  have hmoved : Relinquishes (fun _ => .graveyard) [o] [] (moveToOwners o .graveyard) p :=
    relinquishes_moveToOwners hfurnished hzone (by decide) rfl
  obtain ⟨a, q, hrun, hgives⟩ := hmoved.telling (.cardDiscarded s o)
  refine ⟨a, q, ?_, hgives⟩
  rw [game_bind, if_neg (not_not_intro hzone)]
  exact hrun

end Resolve

/-- Where a permanent goes when it dies, as the view shows it. -/
def View.fate (v : View) (o : ObjectId) : ZoneKind :=
  if (v.projection.bind (·.find? o)).any (·.exileOnDeath) then .exile else .graveyard

namespace PlayerChoice

variable {rules : Rules} {g : Game} {s : Seat} {os : List ObjectId} {p : Progress}

/-- Permanents that are sacrificed die. -/
theorem relinquishes_sacrificeAll (rules : Rules) (honce : os.Nodup)
    (hcontrols : ∀ o ∈ os, g.Controls s o) (hfurnished : p.game.Furnished)
    (hthere : ∀ o ∈ os, p.game.LiesAt o (.anyOf .battlefield)) :
    Relinquishes (rules.view g).fate os (os.map (.sacrificed s))
      (sacrificeAll (rules.view g) s os) p := by
  refine relinquishes_each _ honce (fun o ho p hfurnished hlies => ?_) hfurnished hthere
  obtain ⟨c, hshown, hcontrolled, hcharacteristics⟩ :=
    (hcontrols o ho).exists_characteristics rules
  have hrequire := requireIn_of_liesAt hfurnished hlies
  have hfate : (rules.view g).fate o = if c.exileOnDeath then .exile else .graveyard := by
    rw [View.fate, hshown, Option.any_some]
  obtain ⟨z, hzone, -⟩ := hlies
  have htold : Relinquishes (rules.view g).fate [] [.sacrificed s o] (emit (.sacrificed s o)) p :=
    ⟨(), _, rfl, .tell hfurnished (.sacrificed s o)⟩
  have hdies : Relinquishes (rules.view g).fate ([] ++ [o]) ([.sacrificed s o] ++ [])
      (emit (.sacrificed s o) >>= fun _ => die o c) p := by
    refine htold.bind (fun _ q hgives => ?_) (by simp)
    exact relinquishes_die hgives.furnished ((hgives.game.zone? o (by simp)).trans hzone) hfate
  obtain ⟨a, q, hrun, hgives⟩ := hdies
  refine ⟨a, q, ?_, hgives⟩
  rw [hcharacteristics, pure_bind, Resolve.sacrifice, bind_of_ok hrequire,
    if_neg (not_not_intro hcontrolled)]
  exact hrun

variable {choice : PlayerChoice} {picks : List (Seat × Pick)}

/-- Where an object that is picked goes. -/
def fate (v : View) : PlayerChoice → ObjectId → ZoneKind
  | .sacrifice _ _ => v.fate
  | _ => fun _ => .graveyard

/-- The event that tells of an object that is picked. -/
def loss (s : Seat) (o : ObjectId) : PlayerChoice → Event
  | .sacrifice _ _ => .sacrificed s o
  | _ => .cardDiscarded s o

/-- The events that tell of what a player picked. -/
def losses (choice : PlayerChoice) (pick : Seat × Pick) : List Event :=
  pick.2.chosen.map (choice.loss pick.1)

/-- What the players have picked is where the choice looks for it. -/
theorem Picked.chosen_granted {stood : Prop} {g : Game} (h : choice.Picked stood picks g) :
    ∀ pick ∈ picks, choice.Grants pick.1 pick.2.chosen g := by
  rintro ⟨s, pick⟩ hmem
  cases pick with
  | objects os => exact h.grants s os hmem
  | _ => exact ⟨List.nodup_nil, fun _ _ _ ho => by cases ho⟩

theorem nodup_chosen (honce : ∀ pick ∈ picks, pick.2.chosen.Nodup)
    (hapart : picks.Pairwise fun x y => ∀ o ∈ y.2.chosen, o ∉ x.2.chosen) :
    (picks.flatMap (·.2.chosen)).Nodup :=
  List.nodup_flatMap.mpr ⟨honce, hapart.imp fun hxy o hx hy => hxy o hy hx⟩

/-- Every card that a player has picked to discard is discarded. -/
theorem relinquishes_discardPicks {n : Nat} (honce : (picks.map (·.1)).Nodup)
    (hfurnished : p.game.Furnished) (hpicked : (discard n).Picked True picks p.game) :
    Relinquishes (fun _ => .graveyard) (picks.flatMap (·.2.chosen))
      (picks.flatMap (discard n).losses) (picks.forM fun pick => discardPick pick.1 pick.2) p := by
  have hgrants := hpicked.chosen_granted
  have hhands (pick) (hmem : pick ∈ picks) : ∀ o ∈ pick.2.chosen,
      p.game.LiesAt o (.within (.hand pick.1)) := (hgrants pick hmem).placed _ rfl
  have hsole {s s' : Seat} {o : ObjectId} (h : p.game.LiesAt o (.within (.hand s)))
      (h' : p.game.LiesAt o (.within (.hand s'))) : s = s' := by
    cases (Game.liesAt_within_iff.mp h).symm.trans (Game.liesAt_within_iff.mp h')
    rfl
  have hapart := pairwise_apart (fun s o => p.game.LiesAt o (.within (.hand s))) honce hsole
    fun s os hmem => hhands _ hmem
  refine relinquishes_forM _ _ (fun pick => .within (.hand pick.1))
    (nodup_chosen (fun pick hmem => (hgrants pick hmem).once) hapart) ?_ hfurnished hhands
  rintro ⟨s, pick⟩ hmem p hfurnished hplaced
  cases pick with
  | objects os => exact relinquishes_discard s (hgrants _ hmem).once hfurnished hplaced
  | _ => exact ⟨⟨⟩, p, rfl, .refl hfurnished⟩

/-- Every permanent that a player has picked to sacrifice is sacrificed. -/
theorem relinquishes_sacrificePicks (rules : Rules) {f : ObjectFilter} {n : Nat}
    (honce : (picks.map (·.1)).Nodup) (hfurnished : p.game.Furnished)
    (hpicked : (sacrifice f n).Picked True picks p.game) :
    Relinquishes (rules.view p.game).fate (picks.flatMap (·.2.chosen))
      (picks.flatMap (sacrifice f n).losses)
      (picks.forM fun pick => sacrificePick (rules.view p.game) pick.1 pick.2) p := by
  have hgrants := hpicked.chosen_granted
  have hthere (pick) (hmem : pick ∈ picks) : ∀ o ∈ pick.2.chosen,
      p.game.LiesAt o (.anyOf .battlefield) := (hgrants pick hmem).placed _ rfl
  have hcontrols : ∀ s os, (s, .objects os) ∈ picks → ∀ o ∈ os, p.game.Controls s o :=
    hpicked.commands trivial
  have hapart := pairwise_apart p.game.Controls honce
    (fun h h' => Option.some.inj ((h rules).symm.trans (h' rules))) hcontrols
  refine relinquishes_forM _ _ (fun _ => .anyOf .battlefield)
    (nodup_chosen (fun pick hmem => (hgrants pick hmem).once) hapart) ?_ hfurnished hthere
  rintro ⟨s, pick⟩ hmem q hfurnished hplaced
  cases pick with
  | objects os =>
    exact relinquishes_sacrificeAll rules (hgrants _ hmem).once (hcontrols s os hmem) hfurnished
      hplaced
  | _ => exact ⟨⟨⟩, q, rfl, .refl hfurnished⟩

/-- Everything that the players have picked is given up. -/
theorem relinquishes_carryOut (rules : Rules) (hobjects : choice ≠ .creatureType)
    (honce : (picks.map (·.1)).Nodup) (hfurnished : p.game.Furnished)
    (hpicked : choice.Picked True picks p.game) :
    Relinquishes (choice.fate (rules.view p.game)) (picks.flatMap (·.2.chosen))
      (picks.flatMap choice.losses) (choice.carryOut rules picks) p := by
  cases choice with
  | discard n => exact relinquishes_discardPicks honce hfurnished hpicked
  | sacrifice f n =>
    obtain ⟨a, q, hrun, hgives⟩ := relinquishes_sacrificePicks rules honce hfurnished hpicked
    refine ⟨a, q, ?_, hgives⟩
    rw [carryOut, view_bind]
    exact hrun
  | creatureType => exact absurd rfl hobjects

end PlayerChoice

variable {g g' : Game}

/-- Games that differ in nothing but what is suspended look the same. -/
theorem Rules.view_core_eq (rules : Rules) (hcore : g.core false = g'.core false) :
    (rules.view g).core false = (rules.view g').core false := by
  rw [← Rules.view_core, ← Rules.view_core, hcore]

namespace PlayerChoice

/-- How many objects everybody has to pick. -/
def number : PlayerChoice → Nat
  | .discard n | .sacrifice _ n => n
  | .creatureType => 0

theorem options_core (b : Bool) (v : View) (ctx : Context) (s : Seat) (choice : PlayerChoice) :
    choice.options (v.core b) ctx s = choice.options v ctx s := by
  cases choice with
  | sacrifice f n => simp only [options, sacrificeOptions, View.permanents_core]; rfl
  | _ => rfl

theorem fate_core (b : Bool) (v : View) (choice : PlayerChoice) :
    choice.fate (v.core b) = choice.fate v := by
  cases choice <;> rfl

theorem options_congr (rules : Rules) (ctx : Context) (choice : PlayerChoice) (s : Seat)
    (hcore : g.core false = g'.core false) :
    choice.options (rules.view g) ctx s = choice.options (rules.view g') ctx s := by
  rw [← choice.options_core false, rules.view_core_eq hcore, choice.options_core]

theorem fate_congr (rules : Rules) (choice : PlayerChoice) (hcore : g.core false = g'.core false) :
    choice.fate (rules.view g) = choice.fate (rules.view g') := by
  rw [← choice.fate_core false, rules.view_core_eq hcore, choice.fate_core]

end PlayerChoice

namespace Game

theorem floating_core_false (g : Game) : (g.core false).floating = g.floating := by
  simp [core]

/-- Nothing is missing from the table, whatever is suspended. -/
theorem Furnished.of_core (h : g.Furnished) (hcore : g.core false = g'.core false) :
    g'.Furnished := by
  have hseats : g'.seats = g.seats := (congrArg Game.seats hcore).symm
  have hobjects : g'.objects = g.objects := (congrArg Game.objects hcore).symm
  have hzones : g'.zones = g.zones := (congrArg Game.zones hcore).symm
  have hobject : g'.nextObject = g.nextObject := (congrArg Game.nextObject hcore).symm
  have hfloating : g'.floating = g.floating := by
    rw [← floating_core_false, ← hcore, floating_core_false]
  have hnext : g'.nextFloating = g.nextFloating := (congrArg Game.nextFloating hcore).symm
  refine h.congr (.of_eq hseats hobjects hzones) (h.sound.congr
    (.of_eq hseats hobjects hzones hobject) ?_ hfloating hnext)
  exact hzones ▸ h.sound.housed.consistent

/-- Nothing is given up between games that differ in nothing but what is suspended. -/
theorem givesUp_of_core (fate : ObjectId → ZoneKind) (hcore : g.core false = g'.core false) :
    g.GivesUp fate [] g' :=
  .of_eq (congrArg Game.seats hcore).symm (congrArg Game.turn hcore).symm
    (congrArg Game.objects hcore).symm (congrArg Game.zones hcore).symm

end Game

end CardGame
