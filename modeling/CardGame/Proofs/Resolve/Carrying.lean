import CardGame.Proofs.Resolve.Stopping
import CardGame.Proofs.Resolve.Success

/-!
Answers that are always carried out. Work that does no more than an answer says finds everything
where it looks for it, so it does not fail (`Suspension.succeeds_resume`). The exception is a
sacrifice that was picked in an earlier turn of a round: by now somebody else may control the
permanent.
-/

namespace CardGame

open Resolve

variable {rules : Rules} {P : Game → Prop}

/-- What a player controls is shown in the view. -/
theorem Game.Controls.exists_characteristics {g : Game} {s : Seat} {o : ObjectId}
    (h : g.Controls s o) (rules : Rules) :
    ∃ c, (rules.view g).projection.bind (·.find? o) = some c ∧ c.controller = some s ∧
      characteristics (rules.view g) o = pure c := by
  have hcontroller := h rules
  unfold Projection.controller? at hcontroller
  obtain ⟨c, hshown, hcontrolled⟩ := Option.bind_eq_some_iff.mp hcontroller
  have hshown' : (rules.view g).projection.bind (·.find? o) = some c := by
    rw [Rules.view, Option.bind_some, hshown]
  refine ⟨c, hshown', hcontrolled, ?_⟩
  unfold characteristics
  rw [hshown']

/-- The objects that a player picked. -/
def Pick.chosen : Pick → List ObjectId
  | .objects os => os
  | _ => []

namespace PlayerChoice

variable {choice : PlayerChoice} {picks : List (Seat × Pick)} {ctx : Context} {s : Seat}
  {g : Game} {os : List ObjectId}

/-- Different players pick different objects, if nothing belongs to two players. -/
theorem pairwise_apart (belongs : Seat → ObjectId → Prop) (honce : (picks.map (·.1)).Nodup)
    (hsole : ∀ {s s' o}, belongs s o → belongs s' o → s = s')
    (hpicks : ∀ s os, (s, .objects os) ∈ picks → ∀ o ∈ os, belongs s o) :
    picks.Pairwise fun p p' => ∀ o ∈ p'.2.chosen, o ∉ p.2.chosen := by
  have hbelongs : ∀ p ∈ picks, ∀ o ∈ p.2.chosen, belongs p.1 o := by
    rintro ⟨s, pick⟩ hmem o ho
    cases pick with
    | objects os => exact hpicks s os hmem o ho
    | _ => cases ho
  refine (List.pairwise_map.mp honce).imp_of_mem ?_
  intro p p' hp hp' hne o ho' ho
  exact hne (hsole (hbelongs p hp o ho) (hbelongs p' hp' o ho'))

/-- Picks are carried out one after the other, as nothing that is picked belongs to two players. -/
theorem succeeds_forM_picks {belongs : Seat → ObjectId → Prop} (place : Seat → Place)
    {carry : Seat × Pick → Resolve PUnit} (honce : (picks.map (·.1)).Nodup)
    (hsole : ∀ {s s' o}, belongs s o → belongs s' o → s = s')
    (hbelongs : ∀ s os, (s, .objects os) ∈ picks → ∀ o ∈ os, belongs s o)
    (hplaced : ∀ s os, (s, .objects os) ∈ picks → ∀ o ∈ os, g.LiesAt o (place s))
    (hcarry : ∀ s os, (s, .objects os) ∈ picks → ∀ P : Game → Prop, Steady os P →
      Succeeds (fun h => (∀ o ∈ os, h.LiesAt o (place s)) ∧ P h) (carry (s, .objects os))
        fun _ => P)
    (hpass : ∀ s pick, (∀ os, pick ≠ .objects os) → carry (s, pick) = pure ⟨⟩) :
    Succeeds (fun h => h = g) (picks.forM carry) fun _ _ => True := by
  have hapart := pairwise_apart belongs honce hsole hbelongs
  have hloop : Succeeds
      (fun h => (∀ p ∈ picks, ∀ o ∈ p.2.chosen, h.LiesAt o (place p.1)) ∧ True)
      (picks.forM carry) fun _ _ => True := by
    refine .forM_apart hapart ?_ ?_ fun _ _ => steady_true _
    · intro os p _ hout
      exact steady_all fun o ho => steady_liesAt _ (hout o ho)
    · rintro ⟨s, pick⟩ hmem P hsteady
      cases pick with
      | objects os => exact hcarry s os hmem P hsteady
      | _ =>
        rw [hpass _ _ (by nofun)]
        exact .pure _ And.right
  refine hloop.of_pre ?_
  rintro h - rfl
  refine ⟨?_, trivial⟩
  rintro ⟨s, pick⟩ hmem
  cases pick with
  | objects os => exact hplaced s os hmem
  | _ => rintro o ⟨⟩

/-- A player sacrifices permanents that the player controls in the view. -/
theorem succeeds_sacrificeAll (honce : os.Nodup) (hcontrols : ∀ o ∈ os, g.Controls s o)
    (hsteady : Steady os P) :
    Succeeds (fun h => (∀ o ∈ os, h.LiesAt o (.anyOf .battlefield)) ∧ P h)
      (sacrificeAll (rules.view g) s os) fun _ => P := by
  refine .forM_once _ honce (fun o ho P hsteady => ?_) hsteady
  obtain ⟨c, -, hcontrolled, hcharacteristics⟩ := (hcontrols o ho).exists_characteristics rules
  rw [hcharacteristics]
  exact succeeds_sacrifice hcontrolled hsteady

/-- Cards are discarded by the players in whose hands they are. -/
theorem succeeds_discardPicks (honce : (picks.map (·.1)).Nodup) (n : Nat)
    (hpicked : (discard n).Picked True picks g) :
    Succeeds (fun h => h = g) (picks.forM fun p => discardPick p.1 p.2) fun _ _ => True := by
  have hhands (s : Seat) (os : List ObjectId) (hmem : (s, .objects os) ∈ picks) :
      ∀ o ∈ os, g.LiesAt o (.within (.hand s)) := (hpicked.grants s os hmem).placed _ rfl
  refine succeeds_forM_picks (fun s => .within (.hand s)) honce ?_ hhands hhands ?_ ?_
  · intro s s' o h h'
    have hzone := (Game.liesAt_within_iff.mp h).symm.trans (Game.liesAt_within_iff.mp h')
    cases hzone
    rfl
  · intro s os hmem P hsteady
    exact succeeds_discard s (hpicked.grants s os hmem).once hsteady
  · intro s pick hother
    cases pick with
    | objects os => exact absurd rfl (hother os)
    | _ => rfl

/-- Permanents are sacrificed by the players who control them. -/
theorem succeeds_sacrificePicks (honce : (picks.map (·.1)).Nodup) (f : ObjectFilter) (n : Nat)
    (hpicked : (sacrifice f n).Picked True picks g) :
    Succeeds (fun h => h = g) (picks.forM fun p => sacrificePick (rules.view g) p.1 p.2)
      fun _ _ => True := by
  have hcontrols (s : Seat) (os : List ObjectId) (hmem : (s, .objects os) ∈ picks) :
      ∀ o ∈ os, g.Controls s o := hpicked.commands trivial s os hmem
  refine succeeds_forM_picks (fun _ => .anyOf .battlefield) honce ?_ hcontrols ?_ ?_ ?_
  · intro s s' o h h'
    exact Option.some.inj ((h rules).symm.trans (h' rules))
  · intro s os hmem
    exact (hpicked.grants s os hmem).placed _ rfl
  · intro s os hmem P hsteady
    exact succeeds_sacrificeAll (hpicked.grants s os hmem).once (hcontrols s os hmem) hsteady
  · intro s pick hother
    cases pick with
    | objects os => exact absurd rfl (hother os)
    | _ => rfl

theorem succeeds_announcePick (s : Seat) (pick : Pick) :
    Succeeds P (announcePick s pick) fun _ => P := by
  cases pick with
  | creatureType t => exact .emit _
  | _ => exact .pure _ id

/-- Everybody's picks can be carried out at once. -/
theorem succeeds_carryOut (rules : Rules) (choice : PlayerChoice)
    (honce : (picks.map (·.1)).Nodup) :
    Succeeds (choice.Picked True picks) (choice.carryOut rules picks) fun _ _ => True := by
  cases choice with
  | discard n =>
    exact .assuming fun g _ hpicked => succeeds_discardPicks honce n hpicked
  | sacrifice f n =>
    exact .view fun g _ hpicked => succeeds_sacrificePicks honce f n hpicked
  | creatureType =>
    refine .bind (.forM fun p _ => succeeds_announcePick p.1 p.2) fun _ => ?_
    refine .look fun g hfurnished _ => ?_
    have hhoused := hfurnished.sound.housed
    have hnodup := (hhoused.nodup_allOf .graveyard).filter fun o =>
      (g.facets o).card?.any fun c =>
        c.types.contains .creature &&
          c.subtypes.toList.any (SortedSet.ofList (pickedTypes picks)).contains
    refine (Succeeds.forM_once (.anyOf .graveyard) hnodup ?_ (steady_true _)).of_pre ?_
    · intro o _ P hsteady
      refine (succeeds_putOntoBattlefield none false hsteady).of_pre ?_
      rintro h - ⟨⟨z, hzone, -⟩, hp⟩
      exact ⟨⟨z, hzone⟩, hp⟩
    · rintro h - rfl
      refine ⟨fun o ho => ?_, trivial⟩
      obtain ⟨s, hzone⟩ := hhoused.zone?_of_mem_allOf (List.mem_filter.mp ho).1
      exact ⟨_, hzone, rfl⟩

/-- A round goes on with what has been picked. -/
theorem succeeds_goOn (rules : Rules) (ctx : Context) (choice : PlayerChoice)
    {players : List Seat} (honce : (picks.map (·.1) ++ players).Nodup) :
    Succeeds (choice.Picked True picks) (choice.goOn rules ctx players picks)
      fun _ _ => True := by
  refine .view fun g hfurnished hpicked => ?_
  obtain ⟨forced, hforced, ⟨rfl, hround⟩ | ⟨s, rest, prompt, question, -, -, hround⟩⟩ :=
    gather_cases (rules.view g) ctx choice players picks
  · rw [← List.map_append] at honce
    rw [hround]
    refine .bind ((succeeds_carryOut rules choice honce).of_pre ?_) fun _ => .pure _ id
    rintro h - rfl
    exact hpicked.forced hfurnished.sound hforced
  · rw [hround]
    exact .pause _ _ _ _ _

end PlayerChoice

namespace LibraryEffect

variable {player : Seat} {os : List ObjectId}

theorem succeeds_finishSearch (player : Seat) (destination : ZoneKind) (tapped : Bool)
    (honce : os.Nodup) :
    Succeeds (fun g => ∀ o ∈ os, g.LiesAt o (.within (.library player)))
      (finishSearch player destination tapped os) fun _ _ => True := by
  refine .bind ((Succeeds.forM_once _ honce ?_ (steady_true os)).of_pre fun _ h => ⟨h, trivial⟩)
    fun _ => .bind (succeeds_shuffleLibrary player) fun _ => .pure _ id
  intro o _ P hsteady
  have hsomewhere {g : Game} (h : g.LiesAt o (.within (.library player)) ∧ P g) :
      (∃ z, g.zone? o = some z) ∧ P g := by
    obtain ⟨⟨z, hzone, -⟩, hp⟩ := h
    exact ⟨⟨z, hzone⟩, hp⟩
  apply Succeeds.ite
  · intro hbattlefield
    exact (succeeds_putOntoBattlefield _ tapped hsteady).of_pre fun _ => hsomewhere
  · intro helsewhere
    refine .bind ((succeeds_moveToOwners destination hsteady).of_pre fun _ => hsomewhere) ?_
    exact fun _ => .pure _ id

/-- A card of a library can be put on its bottom. -/
theorem succeeds_sink {o : ObjectId} (hsteady : Steady [o] P) :
    Succeeds (fun g => g.LiesAt o (.within (.library player)) ∧ P g)
      (edit (Game.onZones (Zones.move o (.library player) .bottom))) fun _ => P := by
  refine .edit ?_
  rintro g hfurnished ⟨hlies, hp⟩
  have hzone := Game.liesAt_within_iff.mp hlies
  have hknows : g.zones.knows (.library player) = true :=
    hfurnished.sound.housed.known .library (hfurnished.owner_seated hzone)
  obtain ⟨zones, hmoved⟩ := Zones.exists_move hzone hknows .bottom
  have hstands := Game.sameStanding_sink hzone hmoved
  refine ⟨.library player, { g with zones }, ?_, .sink hzone hmoved, ?_⟩
  · rw [Game.onZones, hmoved]
  · exact hsteady g _ rfl (fun o' _ => hstands.zone? o') hp

theorem succeeds_finishScry (player : Seat) (honce : os.Nodup) :
    Succeeds (fun g => ∀ o ∈ os, g.LiesAt o (.within (.library player)))
      (finishScry player os) fun _ _ => True := by
  refine .bind ((Succeeds.forM_once _ honce ?_ (steady_true os)).of_pre fun _ h => ⟨h, trivial⟩)
    fun _ => .bind (.emit _) fun _ => .pure _ id
  intro o _ P hsteady
  exact .bind (succeeds_sink hsteady) fun _ => .pure _ id

/-- Putting some listed objects last lists the same objects. -/
theorem perm_filter_append {listed : List ObjectId} (hnodup : listed.Nodup) (honce : os.Nodup)
    (hamong : os ⊆ listed) : listed.Perm (listed.filter (!os.contains ·) ++ os) := by
  have hnodup' : (listed.filter (!os.contains ·) ++ os).Nodup := by
    refine List.nodup_append'.mpr ⟨hnodup.filter _, honce, ?_⟩
    intro o hkept hput
    have hapart := (List.mem_filter.mp hkept).2
    simp [hput] at hapart
  refine (List.perm_ext_iff_of_nodup hnodup hnodup').mpr fun o => ?_
  by_cases ho : o ∈ os
  · simp [ho, hamong ho]
  · simp [ho]

theorem perm_filter_append_reverse {listed : List ObjectId} (hnodup : listed.Nodup)
    (honce : os.Nodup) (hamong : os ⊆ listed) :
    listed.Perm (listed.filter (!os.contains ·) ++ os.reverse) :=
  (perm_filter_append hnodup honce hamong).trans (.append_left _ os.reverse_perm.symm)

theorem succeeds_finishReorder (player : Seat) (hsome : os ≠ []) (honce : os.Nodup) :
    Succeeds (fun g => ∀ o ∈ os, g.LiesAt o (.within (.library player)))
      (finishReorder player os) fun _ _ => True := by
  refine .look fun g hfurnished hlies => ?_
  have hconsistent := hfurnished.sound.housed.consistent
  have hzone (o : ObjectId) (ho : o ∈ os) : g.zone? o = some (.library player) :=
    Game.liesAt_within_iff.mp (hlies o ho)
  have hamong : os ⊆ g.zones.objects (.library player) := fun o ho =>
    hconsistent.mem_objects_iff.mpr (hzone o ho)
  have hknows : g.zones.knows (.library player) = true := by
    obtain ⟨o, ho⟩ := List.exists_mem_of_ne_nil os hsome
    exact hfurnished.sound.housed.known .library (hfurnished.owner_seated (hzone o ho))
  have hreordered := Zones.exists_reorder hknows
    (perm_filter_append_reverse (hconsistent.nodup_objects _) honce hamong)
  simp only [hreordered]
  refine .bind (.update ?_) fun _ => .bind (.emit _) fun _ => .pure _ id
  rintro h - rfl
  exact ⟨.reorder hreordered, trivial⟩

theorem succeeds_moveAllToOwners (kind : ZoneKind) {z : Zone} (honce : os.Nodup)
    (hsteady : Steady os P) :
    Succeeds (fun g => (∀ o ∈ os, g.LiesAt o (.within z)) ∧ P g)
      (os.forM fun o => do let _ ← Resolve.moveToOwners o kind) fun _ => P := by
  refine .forM_once _ honce (fun o _ P hsteady => ?_) hsteady
  refine .bind ((succeeds_moveToOwners kind hsteady).of_pre ?_) fun _ => .pure _ id
  rintro g - ⟨⟨z, hzone, -⟩, hp⟩
  exact ⟨⟨z, hzone⟩, hp⟩

theorem succeeds_announceOption (player : Seat) (q : Question) (index : Nat) :
    Succeeds P (announceOption player q index) fun _ => P := by
  unfold announceOption
  split
  · split
    · exact .emit _
    · exact .pure _ id
  · exact .pure _ id

/-- Of two piles without a common card one can be put into the hand and the other one into the
graveyard. -/
theorem succeeds_takePile (player : Seat) {first second : List ObjectId} (q : Question)
    {index : Nat} (hindex : index < 2) (honce : (first ++ second).Nodup) :
    Succeeds (fun g => ∀ o ∈ first ++ second, g.LiesAt o (.within (.library player)))
      (takePile player first second q index) fun _ _ => True := by
  have htake (index : Nat) {kept rest : List ObjectId} (hkept : kept.Nodup) (hrest : rest.Nodup)
      (hapart : ∀ o ∈ rest, o ∉ kept) :
      Succeeds (fun g => (∀ o ∈ kept, g.LiesAt o (.within (.library player))) ∧
          ∀ o ∈ rest, g.LiesAt o (.within (.library player)))
        (do announceOption player q index
            kept.forM fun o => do let _ ← Resolve.moveToOwners o .hand
            rest.forM fun o => do let _ ← Resolve.moveToOwners o .graveyard
            return Outcome.done) fun _ _ => True := by
    refine .bind (succeeds_announceOption player q index) fun _ => ?_
    have hsteady : Steady kept fun g => ∀ o ∈ rest, g.LiesAt o (.within (.library player)) :=
      steady_all fun o ho => steady_liesAt _ (hapart o ho)
    refine .bind (succeeds_moveAllToOwners .hand hkept hsteady) fun _ => ?_
    have hgraveyard := succeeds_moveAllToOwners .graveyard (z := .library player) hrest
      (steady_true rest)
    exact .bind (hgraveyard.of_pre fun _ h => ⟨h, trivial⟩) fun _ => .pure _ id
  obtain ⟨hfirst, hsecond, hdisjoint⟩ := List.nodup_append'.mp honce
  match index with
  | 0 =>
    refine (htake 0 hfirst hsecond fun o ho ho' => hdisjoint ho' ho).of_pre fun _ h => ?_
    exact List.forall_mem_append.mp h
  | 1 =>
    refine (htake 1 hsecond hfirst fun o ho ho' => hdisjoint ho ho').of_pre fun _ h => ?_
    exact (List.forall_mem_append.mp h).symm

end LibraryEffect

/-- A cost can be paid with what the payer has. -/
theorem Cost.succeeds_payWith (rules : Rules) (payer : Seat) {cost : Cost} {q : Question}
    {chosen : List ObjectId} (honce : chosen.Nodup) (hamong : chosen ⊆ q.objects) :
    Succeeds (fun g => (Suspension.payCost payer cost).Holds q g ∧
        (Suspension.payCost payer cost).Commands q g)
      (cost.payWith rules payer chosen) fun _ _ => True := by
  cases cost with
  | life n =>
    refine .assuming fun g _ h => ?_
    exact h.1.keeps.elim
  | discard n =>
    refine (succeeds_discard payer honce (steady_true _)).of_pre ?_
    rintro g - ⟨hholds, -⟩
    exact ⟨fun o ho => hholds.placed _ rfl o (hamong ho), trivial⟩
  | sacrifice f n =>
    refine .view fun g _ h => ?_
    have hcontrols : ∀ o ∈ chosen, g.Controls payer o := fun o ho => h.2 o (hamong ho)
    refine (PlayerChoice.succeeds_sacrificeAll honce hcontrols (steady_true _)).of_pre ?_
    rintro g' - rfl
    exact ⟨fun o ho => h.1.placed _ rfl o (hamong ho), trivial⟩

/-- A permanent is protected if it is still there. -/
theorem ContinuousEffect.succeeds_protect (player : Seat) (target : ObjectId)
    (duration : Duration) (ctx : Context) (color : Color) :
    Succeeds P (protect player target duration ctx color) fun _ _ => True := by
  refine .bind (.emit _) fun _ => .look fun g _ _ => .ite ?_ ?_
  · intro hthere
    refine .bind ((succeeds_addFloating duration ctx rfl (by simp)).of_pre ?_) fun _ => .pure _ id
    rintro h - rfl o ho
    rw [SortedSet.contains_singleton, decide_eq_true_eq] at ho
    exact ho ▸ hthere
  · intro hgone
    exact .pure _ fun _ => trivial

/-- Counters can be put on permanents. -/
theorem PermanentEffect.succeeds_placeShares (kind : CounterKind)
    (shares : SortedMap ObjectId Nat) :
    Succeeds (fun g => ∀ o ∈ shares.keys, g.LiesAt o (.anyOf .battlefield))
      (placeShares kind shares) fun _ _ => True := by
  have hapart : shares.entries.Pairwise fun p p' => ∀ o ∈ [p'.1], o ∉ [p.1] :=
    shares.entries_keys_ne.imp fun {p p'} hne o ho => by
      rw [List.mem_singleton.mp ho, List.mem_singleton]
      exact Ne.symm hne
  refine (Succeeds.forM_apart hapart (S := fun p g => g.LiesAt p.1 (.anyOf .battlefield))
    (P := fun _ => True) ?_ ?_ fun _ _ => steady_true _).of_pre ?_
  · intro os p _ hout
    exact steady_liesAt _ (hout p.1 (List.mem_singleton_self _))
  · intro p _ P hsteady
    exact succeeds_addCounters kind p.2 (hsteady.subset (List.nil_subset _))
  · intro g _ h
    exact ⟨fun p hp => h p.1 (List.mem_map_of_mem hp), trivial⟩

namespace Suspension

/-- Whether work does no more than the answer says: it resolves no effect, and deals no damage. -/
def isLeaf : Suspension → Bool
  | .effects _ _ | .may _ _ | .modal _ _ | .payOrSuffer _ _ _ _ | .chooseTargets _ _
  | .divideDamage _ => false
  | _ => true

theorem isSimple_of_isLeaf {work : Suspension} (h : work.isLeaf = true) :
    work.isSimple = true := by
  cases work with
  | may | modal | payOrSuffer | chooseTargets => cases h
  | _ => rfl

/-- What has to be true of the game for an answer to be carried out. -/
structure Carries (work : Suspension) (q : Question) (g : Game) : Prop where
  holds : work.Holds q g
  commands : work.Commands q g
  stand : work.PicksStand g

theorem Carries.congr {work : Suspension} {q : Question} {g g' : Game} (h : work.Carries q g)
    (hstays : g.Stays g') (hcontrol : ∀ o s, g.Controls s o → g'.Controls s o) :
    work.Carries q g' :=
  ⟨h.holds.stays hstays, h.commands.congr hcontrol, h.stand.congr hcontrol⟩

/-- A player's answer joins the picks of the others. -/
private theorem Carries.picked {choice : PlayerChoice} {current : Seat} {remaining : List Seat}
    {picks : List (Seat × Pick)} {ctx : Context} {q : Question} {g : Game} {pick : Pick}
    (h : (eachPlayerChooses choice current remaining picks ctx).Carries q g)
    (hpick : ∀ os, pick = .objects os → os.Nodup ∧ os ⊆ q.objects) :
    choice.Picked True (picks ++ [(current, pick)]) g :=
  picked_current ⟨h.holds, fun _ _ => ⟨h.commands, h.stand⟩⟩ hpick

/-- An answer that fits is carried out by work that does no more than the answer says. -/
theorem succeeds_resume (rules : Rules) {d : Decision} {work : Suspension} {q : Question}
    {answer : Answer} (hleaf : work.isLeaf = true) (hquestion : d.question = q) (hfair : q.Fair)
    (h : work.Receives q answer) :
    Succeeds (work.Carries q) (work.resume rules d answer) fun _ _ => True := by
  cases h with
  | search h =>
    refine (LibraryEffect.succeeds_finishSearch _ _ _ h.once).of_pre fun _ hcarries o ho => ?_
    exact hcarries.holds.placed _ rfl o (h.among ho)
  | scry h =>
    refine (LibraryEffect.succeeds_finishScry _ h.once).of_pre fun _ hcarries o ho => ?_
    exact hcarries.holds.placed _ rfl o (h.among ho)
  | reorder h =>
    have hsome := List.ne_nil_of_length_pos
      (Nat.lt_of_lt_of_le (List.length_pos_iff.mpr hfair.1) h.enough)
    refine (LibraryEffect.succeeds_finishReorder _ hsome h.once).of_pre fun _ hcarries o ho => ?_
    exact hcarries.holds.placed _ rfl o (h.among ho)
  | separatePiles => exact .pause _ _ _ _ _
  | choosePile hindex =>
    refine .assuming fun g _ hcarries => ?_
    obtain ⟨honce, hpiles⟩ := hcarries.holds.keeps
    refine (LibraryEffect.succeeds_takePile _ _ hindex honce).of_pre ?_
    rintro g' - rfl o ho
    exact Game.liesAt_within_iff.mpr (hpiles o ho)
  | payCost h =>
    refine .bind (.of_pre (Cost.succeeds_payWith rules _ h.once ?_)
      fun _ hcarries => ⟨hcarries.holds, hcarries.commands⟩) fun _ => .pure _ id
    exact h.among
  | chooseColor => exact ContinuousEffect.succeeds_protect _ _ _ _ _
  | distributeCounters h =>
    refine .bind ((PermanentEffect.succeeds_placeShares _ _).of_pre ?_) fun _ => .pure _ id
    exact fun _ hcarries o ho => hcarries.holds.placed _ rfl o (h.among ho)
  | pickObjects h =>
    refine .assuming fun g _ hcarries => ?_
    have honce := hcarries.holds.keeps.1
    simp only [resume, PlayerChoice.pickOf]
    refine (PlayerChoice.succeeds_goOn rules _ _ ?_).of_pre ?_
    · simpa using honce
    · rintro g' - rfl
      refine hcarries.picked ?_
      rintro os ⟨⟩
      exact ⟨h.once, h.among⟩
  | pickType hindex =>
    refine .assuming fun g _ hcarries => ?_
    have honce := hcarries.holds.keeps.1
    simp only [resume, hquestion, PlayerChoice.pickOf, List.getElem?_eq_getElem hindex]
    refine (PlayerChoice.succeeds_goOn rules _ _ ?_).of_pre ?_
    · simpa using honce
    · rintro g' - rfl
      refine hcarries.picked ?_
      rintro os ⟨⟩
  | _ => cases hleaf

end Suspension

end CardGame
