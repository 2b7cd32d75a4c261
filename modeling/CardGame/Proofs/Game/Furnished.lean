import CardGame.Proofs.Game.Alter

/-!
Tables at which nothing is missing. There are zones for the players only, and every player has a
life total (`Game.Furnished`). Resolving leaves the table as it is, so whatever is in a zone can be
moved to the other zones of its owner.
-/

namespace CardGame

namespace Game

variable {g g' g'' : Game} {o : ObjectId} {target origin : Zone}

/-- Whether an object has a life total. -/
def isAlive (g : Game) (o : ObjectId) : Bool := (g.facets o).player?.isSome

/-- The same players sit at the same table. -/
structure SameTable (g g' : Game) : Prop where
  seats : g'.seats = g.seats
  owners : g'.zones.seats = g.zones.seats
  knows : ∀ z, g'.zones.knows z = g.zones.knows z
  alive : ∀ s, s.index < g.seats → g.isAlive (.ofSeat s) = true → g'.isAlive (.ofSeat s) = true

theorem SameTable.of_eq (hseats : g'.seats = g.seats) (hobjects : g'.objects = g.objects)
    (hzones : g'.zones = g.zones) : SameTable g g' where
  seats := hseats
  owners := by rw [hzones]
  knows _ := by rw [hzones]
  alive _ _ halive := by rwa [isAlive, facets, hobjects]

theorem SameTable.trans (h : SameTable g g') (h' : SameTable g' g'') : SameTable g g'' where
  seats := h'.seats.trans h.seats
  owners := h'.owners.trans h.owners
  knows z := (h'.knows z).trans (h.knows z)
  alive s hs halive := h'.alive s (h.seats ▸ hs) (h.alive s hs halive)

theorem sameTable_modify {F : Facets → Facets}
    (hF : ∀ fs, fs.player?.isSome = true → (F fs).player?.isSome = true) (o : ObjectId) :
    SameTable g { g with objects := g.objects.modify o F } where
  seats := rfl
  owners := rfl
  knows _ := rfl
  alive s _ halive := by
    rcases facets_modify_cases (g := g) F o (.ofSeat s) with hsame | hchanged
    · rwa [isAlive, hsame]
    · rw [isAlive, hchanged]
      exact hF _ halive

theorem sameTable_insert {f : Facet} (hkind : f.kind ≠ .player) (o : ObjectId) :
    SameTable g { g with objects := g.objects.modify o (·.insert f) } :=
  sameTable_modify (fun fs halive => by rwa [Facets.player?_insert hkind]) o

theorem sameTable_eraseFacets {kinds : List FacetKind}
    (hkinds : ∀ kind ∈ kinds, kind ∈ permanentFacets) (o : ObjectId) :
    SameTable g (g.eraseFacets o kinds) := by
  induction kinds generalizing g with
  | nil => exact .of_eq rfl rfl rfl
  | cons kind rest ih =>
    have hkind : kind ≠ .player := by
      rintro rfl
      have hnot := hkinds .player List.mem_cons_self
      simp [permanentFacets] at hnot
    have hfirst : SameTable g (g.eraseFacet o kind) :=
      sameTable_modify (fun fs halive => by rwa [Facets.player?_erase hkind]) o
    exact hfirst.trans (ih fun kind hkind => hkinds kind (List.mem_cons_of_mem _ hkind))

theorem sameTable_enterBattlefield {controller : Seat} {u : Unit}
    (h : enterBattlefield o controller g = .ok u g') : SameTable g g' := by
  rw [enterBattlefield_eq_ok h]
  have hentered : SameTable g { g with
      objects := g.objects.modify o (·.insert (.entered g.turn.number g.nextTimestamp)) } :=
    sameTable_insert (by simp [Facet.kind]) o
  have hcontroller := hentered.trans
    (sameTable_insert (f := .controller controller) (by simp [Facet.kind]) o)
  exact hcontroller.trans (.of_eq rfl rfl rfl)

theorem Housed.sameTable_move {p : Position} {controller : Option Seat} (h : g.Housed)
    (hmove : Game.move o target p controller g = .ok origin g') : SameTable g g' := by
  obtain ⟨zones, hzones, hcases⟩ := move_eq_ok hmove
  have hseat := h.seat?_of_zone? (Zones.zone?_of_move hzones)
  have hmoved : SameTable g { g with zones } :=
    ⟨rfl, Zones.seats_move hzones, Zones.knows_move hzones, fun _ _ => id⟩
  refine hmoved.trans ?_
  rcases hcases with ⟨-, -, rfl⟩ | ⟨-, rfl⟩ | ⟨-, -, henter⟩
  · constructor
    · rw [leaveBattlefield_frame]
    · rcases zones_leaveBattlefield (g := { g with zones }) (o := o) with hkept | hremoved
      · rw [hkept]
      · rw [hremoved, Zones.seats_remove_eq]
    · intro z
      rcases zones_leaveBattlefield (g := { g with zones }) (o := o) with hkept | hremoved
      · rw [hkept]
      · rw [hremoved, Zones.knows_remove_eq]
    · intro s hs halive
      rw [isAlive, facets_leaveBattlefield_of_ne (h.ne_ofSeat hseat hs)]
      exact halive
  · exact .of_eq rfl rfl rfl
  · exact sameTable_enterBattlefield henter

theorem Housed.sameTable_spawn {card : Card} {owner : Seat} {kind : ZoneKind} {token : Bool}
    (h : g.Housed) (hspawn : spawn card owner kind token g = .ok o g') : SameTable g g' := by
  obtain ⟨-, zones, hadd, hcases⟩ := spawn_eq_ok hspawn
  have harrival : SameTable g (g.arrival card owner token zones) := by
    refine ⟨rfl, Zones.seats_add hadd, Zones.knows_add hadd, fun s hs halive => ?_⟩
    have hseat : g.seat? ⟨g.nextObject⟩ = none :=
      (ObjectId.seat?_eq_none_iff _ _).mpr h.reserved
    rw [isAlive, facets_arrival, if_neg (h.ne_ofSeat hseat hs)]
    exact halive
  rcases hcases with ⟨-, rfl⟩ | ⟨-, henter⟩
  · exact harrival
  · exact harrival.trans (sameTable_enterBattlefield henter)

/-- Resolving changes nothing about the table. -/
theorem Alter.sameTable {lasting : Duration → Prop} (h : Alter lasting g g') (hsound : g.Sound) :
    SameTable g g' := by
  cases h with
  | move howner h => exact hsound.housed.sameTable_move h
  | sink hzone h =>
    exact ⟨rfl, Zones.seats_move h, (sameStanding_sink hzone h).knows, fun _ _ => id⟩
  | reorder h =>
    obtain ⟨hknows, hperm, rfl⟩ := Zones.reorder_eq_ok h
    exact ⟨rfl, rfl, (sameStanding_rearrange hknows).knows, fun _ _ => id⟩
  | shuffle s =>
    have hknows := (hsound.housed.shuffleLibrary s).1.knows
    exact ⟨rfl, Zones.seats_shuffle _ _ _, hknows, fun _ _ => id⟩
  | mark hrecords hthere h =>
    obtain ⟨-, rfl⟩ := setFacet_eq_ok h
    refine sameTable_insert ?_ _
    intro hplayer
    have hkind := hrecords.kind_mem
    rw [hplayer] at hkind
    simp [permanentFacets] at hkind
  | unmark o kinds hkinds =>
    have hpermanent := fun kind hkind => mem_permanentFacets_of_status (hkinds kind hkind)
    exact sameTable_eraseFacets hpermanent o
  | life h =>
    obtain ⟨poison, rfl⟩ := setLife_eq_ok h
    refine sameTable_modify (fun fs _ => ?_) _
    simp [Facets.player?, Facets.insert, Facet.kind]
  | create h => exact hsound.housed.sameTable_spawn h
  | _ => exact .of_eq rfl rfl rfl

/-- A sound game with zones for the players only and a life total for every player. -/
structure Furnished (g : Game) : Prop where
  sound : g.Sound
  zoned : ∀ z, g.zones.knows z = true → z.owner.index < g.seats
  alive : ∀ s, s.index < g.seats → g.isAlive (.ofSeat s) = true

theorem Furnished.congr (h : g.Furnished) (htable : SameTable g g') (hsound : g'.Sound) :
    g'.Furnished where
  sound := hsound
  zoned z hz := by
    rw [htable.knows] at hz
    rw [htable.seats]
    exact h.zoned z hz
  alive s hs := by
    rw [htable.seats] at hs
    exact htable.alive s hs (h.alive s hs)

theorem Furnished.alter {lasting : Duration → Prop} (h : g.Furnished)
    (halter : Alter lasting g g') : g'.Furnished :=
  h.congr (halter.sameTable h.sound) (halter.sound h.sound)

/-- Nothing is missing from the table when work is suspended. -/
theorem Furnished.suspend (h : g.Furnished) (stack : List Frame) (pending : Option Decision)
    (nextDecision : Nat) : Furnished { g with stack, pending, nextDecision } :=
  h.congr (.of_eq rfl rfl rfl)
    (h.sound.congr (.of_eq rfl rfl rfl rfl) h.sound.housed.consistent rfl rfl)

/-- What is in a zone is a card of one of the players. -/
theorem Furnished.owner_seated (h : g.Furnished) (hzone : g.zone? o = some origin) :
    origin.owner.index < g.seats := by
  have hlisted : o ∈ g.zones.objects origin :=
    h.sound.housed.consistent.mem_objects_iff.mpr hzone
  refine h.zoned origin (SortedMap.contains_iff.mpr ?_)
  cases hfind : g.zones.contents.find? origin with
  | some xs => exact ⟨xs, rfl⟩
  | none =>
    rw [Zones.objects, hfind] at hlisted
    cases hlisted

/-- An object that stands for a player is one seated at the table. -/
theorem Housed.seat?_eq_some {s : Seat} (h : g.Housed) (hseat : g.seat? o = some s) :
    s.index < g.seats ∧ o = .ofSeat s := by
  have hseated := h.seated
  unfold seat? ObjectId.seat? at hseat
  split at hseat
  · next hbelow =>
    cases hseat
    have hlt : o.val < ObjectId.firstObject g.seats := of_decide_eq_true hbelow
    rw [ObjectId.firstObject_eq hseated] at hlt
    have hsmall : o.val % Seat.limit = o.val := Nat.mod_eq_of_lt (by simp only [Seat.limit]; omega)
    exact ⟨by simpa only [hsmall] using hlt, by simp only [hsmall, ObjectId.ofSeat]⟩
  · cases hseat

theorem Housed.seated_of_seat? {s : Seat} (h : g.Housed) (hseat : g.seat? o = some s) :
    s.index < g.seats :=
  (h.seat?_eq_some hseat).1

/-- Only what exists has an owner. -/
theorem Housed.contains_of_owner? {s : Seat} (h : g.Housed) (howner : g.owner? o = some s) :
    g.contains o = true := by
  cases hseat : g.seat? o with
  | some s' =>
    obtain ⟨hs, rfl⟩ := h.seat?_eq_some hseat
    exact h.players hs
  | none =>
    rw [owner?, hseat, Option.none_or] at howner
    cases hfind : g.objects.find? o with
    | some fs => exact SortedMap.contains_iff.mpr ⟨fs, hfind⟩
    | none =>
      rw [facets, hfind] at howner
      cases howner

/-- Whoever owns something sits at the table. -/
theorem Furnished.seated_of_owner? {s : Seat} (h : g.Furnished) (howner : g.owner? o = some s) :
    s.index < g.seats := by
  have hhoused := h.sound.housed
  have hcontains := hhoused.contains_of_owner? howner
  unfold owner? at howner
  cases hseat : g.seat? o with
  | some s' =>
    rw [hseat, Option.some_or] at howner
    exact hhoused.seated_of_seat? (hseat.trans howner)
  | none =>
    rw [hseat, Option.none_or] at howner
    obtain ⟨z, hzone⟩ := hhoused.located.mpr ⟨hcontains, hseat⟩
    cases (hhoused.owned hzone).symm.trans howner
    exact h.owner_seated hzone

/-- An object can be moved to all the zones of its owner. -/
theorem Furnished.exists_move (h : g.Furnished) (hzone : g.zone? o = some origin)
    (kind : ZoneKind) (p : Position) (controller : Option Seat) :
    ∃ g', move o ⟨origin.owner, kind⟩ p controller g = .ok origin g' := by
  have hknows := h.sound.housed.known kind (h.owner_seated hzone)
  exact h.sound.housed.exists_move hzone hknows p controller

end Game

end CardGame
