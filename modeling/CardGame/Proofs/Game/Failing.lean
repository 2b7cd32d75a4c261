import CardGame.Proofs.Game.Alter

/-!
What moves and arrivals leave behind when they fail. A move that fails puts the object back on top
of the zone it was in, and not where it was in that zone; a new object that fails to arrive exists
nevertheless, and is in no zone. The failures are described exactly, each with the game after it.
-/

namespace CardGame

namespace Zones

variable {zs after : Zones} {o : ObjectId} {z origin : Zone} {p : Position} {failure : Failure}

/-- Why an object cannot be put into a zone: it is in one already, or there is no such zone. -/
inductive NoRoom (zs : Zones) (o : ObjectId) (z : Zone) : Failure → Prop
  | taken {existing : Zone} (h : zs.zone? o = some existing) :
      NoRoom zs o z (.alreadyInZone o existing)
  | unknown (hnone : zs.zone? o = none) (h : zs.knows z = false) : NoRoom zs o z (.unknownZone z)

theorem add_eq_error_iff : zs.add o z p = .error failure ↔ zs.NoRoom o z failure := by
  have hknows : zs.knows z = (zs.contents.find? z).isSome := rfl
  constructor
  · intro h
    unfold add at h
    split at h
    · next existing hfind =>
      cases h
      exact .taken hfind
    · next hlocation hcontents =>
      cases h
      exact .unknown hlocation (by rw [hknows, hcontents, Option.isSome_none])
    · cases h
  · intro h
    cases h with
    | taken h =>
      have hlocation : zs.location.find? o = some _ := h
      simp only [add, hlocation]
    | unknown hnone h =>
      have hlocation : zs.location.find? o = none := hnone
      have hcontents : zs.contents.find? z = none := by
        rwa [hknows, Option.isSome_eq_false_iff, Option.isNone_iff_eq_none] at h
      simp only [add, hlocation, hcontents]

/-- The zones with an object on top of the zone that lists it. -/
def lifted (zs : Zones) (o : ObjectId) (z : Zone) : Zones :=
  zs.rearrange z ((zs.objects z).filter (· ≠ o) ++ [o])

/-- The zone of an object has a list of its own. -/
theorem Consistent.find?_contents (h : zs.Consistent) (hzone : zs.zone? o = some z) :
    zs.contents.find? z = some (zs.objects z) := by
  have hmem := h.mem_objects_iff.mpr hzone
  cases hfind : zs.contents.find? z with
  | none => simp [objects, hfind] at hmem
  | some xs => rw [objects, hfind, Option.getD_some]

/-- An object that is taken out and put back ends on top of its zone. -/
theorem Consistent.add_rest {rest : Zones} (h : zs.Consistent)
    (hremove : zs.remove? o = some (origin, rest)) :
    rest.add o origin .top = .ok (zs.lifted o origin) := by
  obtain ⟨hzone, rfl⟩ := remove?_eq_some hremove
  have hlocation : zs.location.find? o = some origin := hzone
  have hlisted := h.find?_contents hzone
  have hback : (zs.location.erase o).insert o origin = zs.location := by
    refine SortedMap.ext_find? fun o' => ?_
    rw [SortedMap.find?_insert, SortedMap.find?_erase]
    by_cases ho : o = o'
    · rw [if_pos ho, ← ho, hlocation]
    · rw [if_neg ho, if_neg ho]
  have hcontents : (zs.contents.modify origin (·.filter (· ≠ o))).insert origin
      ((zs.objects origin).filter (· ≠ o) ++ [o]) =
        zs.contents.insert origin ((zs.objects origin).filter (· ≠ o) ++ [o]) := by
    refine SortedMap.ext_find? fun z' => ?_
    rw [SortedMap.find?_insert, SortedMap.find?_insert, SortedMap.find?_modify]
    by_cases hz : origin = z'
    · rw [if_pos hz, if_pos hz]
    · rw [if_neg hz, if_neg hz, if_neg (Ne.symm hz)]
  simp only [Zones.add, SortedMap.find?_erase, SortedMap.find?_modify, hlisted, if_true,
    Option.map_some, insertAt, hback, hcontents, lifted, Zones.rearrange]

/-- An object that was on top is where it was, and any other has changed its place. -/
theorem Consistent.lifted_eq_iff (h : zs.Consistent) (hzone : zs.zone? o = some z) :
    zs.lifted o z = zs ↔ (zs.objects z).getLast? = some o := by
  constructor
  · intro heq
    have hobjects : (zs.lifted o z).objects z = (zs.objects z).filter (· ≠ o) ++ [o] := by
      simp [lifted, Zones.rearrange, objects]
    rw [heq] at hobjects
    rw [hobjects, List.getLast?_concat]
  · intro hlast
    obtain ⟨below, hbelow⟩ := List.getLast?_eq_some_iff.mp hlast
    have hnodup := h.nodup_objects z
    rw [hbelow, List.nodup_append] at hnodup
    have hothers : (zs.objects z).filter (· ≠ o) = below := by
      have hkept : below.filter (· ≠ o) = below := by
        refine List.filter_eq_self.mpr fun o' ho' => ?_
        simpa using hnodup.2.2 o' ho' o (List.mem_singleton_self o)
      rw [hbelow, List.filter_append, hkept]
      simp
    have hsame : zs.contents.insert z (zs.objects z) = zs.contents := by
      refine SortedMap.ext_find? fun z' => ?_
      rw [SortedMap.find?_insert]
      by_cases hz : z = z'
      · rw [if_pos hz, ← hz, h.find?_contents hzone]
      · rw [if_neg hz]
    rw [lifted, Zones.rearrange, hothers, ← hbelow, hsame]

/-- The failures of a move, each with the zones that it leaves. -/
inductive Refused (zs : Zones) (o : ObjectId) (z : Zone) : Failure → Zones → Prop
  | nowhere (h : zs.zone? o = none) : Refused zs o z (.objectNotFound o) zs
  | unknown {origin : Zone} (hzone : zs.zone? o = some origin) (h : zs.knows z = false) :
      Refused zs o z (.unknownZone z) (zs.lifted o origin)

theorem Consistent.move_eq_error_iff (h : zs.Consistent) :
    Zones.move o z p zs = .error failure after ↔ zs.Refused o z failure after := by
  cases hremove : zs.remove? o with
  | none =>
    have hnone : zs.zone? o = none := by simpa [remove?, zone?] using hremove
    have hmove : Zones.move o z p zs = .error (.objectNotFound o) zs := by
      rw [Zones.move, hremove]
    rw [hmove]
    constructor
    · intro heq
      cases heq
      exact .nowhere hnone
    · intro hrefused
      cases hrefused with
      | nowhere => rfl
      | unknown hzone => exact absurd (hnone.symm.trans hzone) (by simp)
  | some q =>
    obtain ⟨origin, rest⟩ := q
    have hzone : zs.zone? o = some origin := (remove?_eq_some hremove).1
    have hout : rest.zone? o = none := by rw [zone?_remove hremove, if_pos rfl]
    cases hadd : rest.add o z p with
    | ok moved =>
      have hmove : Zones.move o z p zs = .ok origin moved := by
        simp only [Zones.move, hremove, hadd]
      rw [hmove]
      constructor
      · intro heq
        cases heq
      · intro hrefused
        cases hrefused with
        | nowhere hnone => exact absurd (hnone.symm.trans hzone) (by simp)
        | unknown _ hunknown =>
          have hrest := (knows_remove hremove z).trans hunknown
          exact absurd (hadd.symm.trans (add_eq_error_iff.mpr (.unknown hout hrest))) (by simp)
    | error cause =>
      have hmove : Zones.move o z p zs = .error cause (zs.lifted o origin) := by
        simp only [Zones.move, hremove, hadd, h.add_rest hremove]
      rw [hmove]
      cases add_eq_error_iff.mp hadd with
      | taken htaken => exact absurd (hout.symm.trans htaken) (by simp)
      | unknown _ hrest =>
        have hunknown : zs.knows z = false := (knows_remove hremove z).symm.trans hrest
        constructor
        · intro heq
          cases heq
          exact .unknown hzone hunknown
        · intro hrefused
          cases hrefused with
          | nowhere hnone => exact absurd (hnone.symm.trans hzone) (by simp)
          | unknown hzone' _ => rw [Option.some.inj (hzone.symm.trans hzone')]

/-- Whether an object is on top of its zone, if it is in any. -/
def IsTopmost (zs : Zones) (o : ObjectId) : Prop :=
  ∀ z, zs.zone? o = some z → (zs.objects z).getLast? = some o

theorem Consistent.perm_lifted (h : zs.Consistent) (hzone : zs.zone? o = some z) :
    (zs.objects z).Perm ((zs.objects z).filter (· ≠ o) ++ [o]) := by
  have hmem : o ∈ zs.objects z := h.mem_objects_iff.mpr hzone
  have herase : (zs.objects z).erase o = (zs.objects z).filter (· ≠ o) := by
    rw [(h.nodup_objects z).erase_eq_filter]
    exact List.filter_congr fun o' _ => by by_cases ho : o' = o <;> simp [ho]
  rw [← herase]
  exact (List.perm_cons_erase hmem).trans (List.perm_append_singleton o _).symm

/-- A failed move keeps every object in its zone. -/
theorem Refused.consistent (h : zs.Consistent) (hrefused : zs.Refused o z failure after) :
    after.Consistent := by
  cases hrefused with
  | nowhere => exact h
  | unknown hzone => exact h.rearrange (h.perm_lifted hzone)

theorem Refused.location (hrefused : zs.Refused o z failure after) :
    after.location = zs.location := by
  cases hrefused <;> rfl

/-- A failed move leaves the zones alone if the object was nowhere, or on top of its zone. -/
theorem Refused.eq_iff (h : zs.Consistent) (hrefused : zs.Refused o z failure after) :
    after = zs ↔ zs.IsTopmost o := by
  unfold IsTopmost
  cases hrefused with
  | nowhere hnone => simp [hnone]
  | unknown hzone =>
    rw [h.lifted_eq_iff hzone, hzone]
    simp

end Zones

namespace Game

variable {g g' : Game} {o : ObjectId} {target origin : Zone} {p : Position} {failure : Failure}

/-- Only what does not exist fails to enter the battlefield, and a timestamp is gone then. -/
theorem enterBattlefield_eq_error_iff {controller : Seat} :
    enterBattlefield o controller g = .error failure g' ↔
      g.contains o = false ∧ failure = .objectNotFound o ∧
        g' = { g with nextTimestamp := g.nextTimestamp + 1 } := by
  cases hcontains : g.contains o with
  | true =>
    obtain ⟨entered, henter⟩ := exists_enterBattlefield controller hcontains
    rw [henter]
    simp
  | false =>
    have henter : enterBattlefield o controller g =
        .error (.objectNotFound o) { g with nextTimestamp := g.nextTimestamp + 1 } := by
      have hobjects : g.objects.contains o = false := hcontains
      change EStateM.bind (setFacet o _) _ { g with nextTimestamp := g.nextTimestamp + 1 } = _
      simp [EStateM.bind, setFacet, contains, hobjects]
    rw [henter]
    constructor
    · intro heq
      cases heq
      exact ⟨rfl, rfl, rfl⟩
    · rintro ⟨-, rfl, rfl⟩
      rfl

/-- A move is one of the zones, and then the object may leave or enter the battlefield. -/
theorem move_eq (o : ObjectId) (target : Zone) (p : Position) (controller : Option Seat)
    (g : Game) :
    Game.move o target p controller g =
      match Zones.move o target p g.zones with
      | .error failure zones => .error failure { g with zones }
      | .ok origin zones =>
        if origin.kind = .battlefield then
          .ok origin (if target.kind ≠ .battlefield then
            ({ g with zones } : Game).leaveBattlefield o else { g with zones })
        else if target.kind = .battlefield then
          (enterBattlefield o (controller.getD target.owner) >>= fun _ => pure origin)
            { g with zones }
        else .ok origin { g with zones } := by
  have hget (k : Game → Edit Game Zone) : (get >>= k) g = k g g := rfl
  unfold Game.move
  rw [hget]
  cases hzone : g.zone? o with
  | none =>
    have hmove : Zones.move o target p g.zones = .error (.objectNotFound o) g.zones := by
      have hlocation : g.zones.location.find? o = none := hzone
      rw [Zones.move, Zones.remove?, hlocation]
      rfl
    rw [hmove]
    rfl
  | some origin =>
    have hthen (k : Zone → Edit Game Zone) : (onZones (Zones.move o target p) >>= k) g =
        match Zones.move o target p g.zones with
        | .error failure zones => .error failure { g with zones }
        | .ok origin zones => k origin { g with zones } := by
      change EStateM.bind _ _ _ = _
      rw [EStateM.bind, onZones]
      cases Zones.move o target p g.zones <;> rfl
    simp only []
    rw [hthen]
    cases hmove : Zones.move o target p g.zones with
    | error failure zones => rfl
    | ok origin' zones =>
      have hsame : origin = origin' :=
        Option.some.inj (hzone.symm.trans (Zones.zone?_of_move hmove))
      subst hsame
      simp only []
      split
      · split <;> rfl
      · split <;> rfl

/-- The failures of a move, each with the game that it leaves: the zones refuse it, or the object is
listed in a zone, does not exist and would enter the battlefield. -/
inductive Refused (g : Game) (o : ObjectId) (target : Zone) (p : Position) : Failure → Game → Prop
  | zones {failure : Failure} {zones : Zones} (h : g.zones.Refused o target failure zones) :
      Refused g o target p failure { g with zones }
  | absent {origin : Zone} {zones : Zones}
      (hmove : Zones.move o target p g.zones = .ok origin zones)
      (hfrom : origin.kind ≠ .battlefield) (hto : target.kind = .battlefield)
      (habsent : g.contains o = false) :
      Refused g o target p (.objectNotFound o)
        { g with zones, nextTimestamp := g.nextTimestamp + 1 }

theorem move_eq_error_iff {controller : Option Seat} (h : g.zones.Consistent) :
    Game.move o target p controller g = .error failure g' ↔ g.Refused o target p failure g' := by
  rw [move_eq]
  constructor
  · intro heq
    cases hmove : Zones.move o target p g.zones with
    | error cause zones =>
      rw [hmove] at heq
      cases heq
      exact .zones (h.move_eq_error_iff.mp hmove)
    | ok origin zones =>
      rw [hmove] at heq
      simp only [] at heq
      split at heq
      · cases heq
      · next hfrom =>
        split at heq
        · next hto =>
          change EStateM.bind _ _ _ = _ at heq
          unfold EStateM.bind at heq
          split at heq
          · cases heq
          · next cause entered henter =>
            cases heq
            obtain ⟨habsent, rfl, rfl⟩ := enterBattlefield_eq_error_iff.mp henter
            exact .absent hmove hfrom hto habsent
        · cases heq
  · intro hrefused
    cases hrefused with
    | zones hzones =>
      rw [h.move_eq_error_iff.mpr hzones]
    | @absent origin zones hmove hfrom hto habsent =>
      have henter : enterBattlefield o (controller.getD target.owner) { g with zones } =
          .error (.objectNotFound o) { g with zones, nextTimestamp := g.nextTimestamp + 1 } :=
        enterBattlefield_eq_error_iff.mpr ⟨habsent, rfl, rfl⟩
      rw [hmove]
      simp only [if_neg hfrom, if_pos hto]
      change EStateM.bind _ _ _ = _
      rw [EStateM.bind, henter]

/-- A failed move changes nothing if the object was nowhere, or on top of its zone and refused for
its destination. -/
theorem Refused.eq_iff (h : g.zones.Consistent) (hrefused : g.Refused o target p failure g') :
    g' = g ↔
      g.zones.IsTopmost o ∧ (g.zone? o ≠ none → g.zones.knows target = false) := by
  cases hrefused with
  | @zones _ zones hzones =>
    have hsame : ({ g with zones } : Game) = g ↔ zones = g.zones :=
      ⟨congrArg Game.zones, fun heq => by rw [heq]⟩
    rw [hsame, hzones.eq_iff h]
    refine (and_iff_left ?_).symm
    intro hsome
    cases hzones with
    | nowhere hnone => exact absurd hnone hsome
    | unknown _ hunknown => exact hunknown
  | absent hmove =>
    constructor
    · intro heq
      -- whatever the zones are now, a timestamp is used up
      have htimestamp : g.nextTimestamp + 1 = g.nextTimestamp := congrArg Game.nextTimestamp heq
      omega
    · rintro ⟨-, hunknown⟩
      have hsome : g.zone? o ≠ none := by
        rw [Game.zone?, Zones.zone?_of_move hmove]
        simp
      rw [Zones.knows_of_move hmove] at hunknown
      exact absurd (hunknown hsome) (by simp)

/-- How moves fail, for zones that pass the check and for games with such zones. All objects stay in
their zones when the zones refuse a move, but the one that was to be moved ends on top. -/
theorem failed_move {zs : Zones} (hcheck : zs.check = .ok ()) (o : ObjectId) (target : Zone)
    (p : Position) (failure : Failure) :
    (∀ after, Zones.move o target p zs = .error failure after ↔
      zs.Refused o target failure after) ∧
    (∀ after, zs.Refused o target failure after →
      after.check = .ok () ∧ after.location = zs.location ∧ (after = zs ↔ zs.IsTopmost o)) ∧
    ∀ (g : Game) (controller : Option Seat) (g' : Game), g.zones = zs →
      (Game.move o target p controller g = .error failure g' ↔
        g.Refused o target p failure g') ∧
      (g.Refused o target p failure g' →
        (g' = g ↔ zs.IsTopmost o ∧ (zs.zone? o ≠ none → zs.knows target = false))) := by
  have hconsistent := Zones.consistent_of_check hcheck
  refine ⟨fun after => hconsistent.move_eq_error_iff, fun after hrefused => ?_, ?_⟩
  · exact ⟨(hrefused.consistent hconsistent).check_eq_ok, hrefused.location,
      hrefused.eq_iff hconsistent⟩
  · rintro g controller g' rfl
    exact ⟨move_eq_error_iff hconsistent, fun hrefused => hrefused.eq_iff hconsistent⟩

/-- The lower of two cards in a library is on top once it has not been put into the hand of a player
who is not there. -/
theorem failed_move_of_two_cards : ∃ g₀ g₁ g g' : Game, start {} = .ok g₀ ∧
    spawnCard (.creature ⟨7⟩ "Bear" 2 2) ⟨0⟩ .library g₀ = .ok ⟨2⟩ g₁ ∧
    spawnCard (.creature ⟨7⟩ "Bear" 2 2) ⟨0⟩ .library g₁ = .ok ⟨3⟩ g ∧
    g.zones.check = .ok () ∧ g.library ⟨0⟩ = [⟨2⟩, ⟨3⟩] ∧
    Game.move ⟨2⟩ (.hand ⟨7⟩) .top none g = .error (.unknownZone (.hand ⟨7⟩)) g' ∧
    g'.library ⟨0⟩ = [⟨3⟩, ⟨2⟩] ∧ g' ≠ g := by
  refine ⟨_, _, _, _, rfl, rfl, rfl, by decide +kernel, by decide +kernel,
    ((failed_move (by decide +kernel) ⟨2⟩ (.hand ⟨7⟩) .top _).2.2 _ none _ rfl).1.mpr
      (.zones (.unknown (show _ = some (Zone.library ⟨0⟩) from rfl) (by decide +kernel))), ?_⟩
  decide +kernel

/-- A failed move may change the zones by themselves, and those of a game. -/
theorem not_unchanged_of_failed_move :
    (¬ ∀ (zs : Zones) (o : ObjectId) (z : Zone) (p : Position) (failure : Failure) (after : Zones),
      zs.check = .ok () → Zones.move o z p zs = .error failure after → after = zs) ∧
    ¬ ∀ (g : Game) (o : ObjectId) (z : Zone) (p : Position) (controller : Option Seat)
      (failure : Failure) (g' : Game), g.zones.check = .ok () →
      Game.move o z p controller g = .error failure g' → g' = g := by
  have hfails : ∃ g₀ g₁ g g' : Game, start {} = .ok g₀ ∧
      spawnCard (.creature ⟨7⟩ "Bear" 2 2) ⟨0⟩ .library g₀ = .ok ⟨2⟩ g₁ ∧
      spawnCard (.creature ⟨7⟩ "Bear" 2 2) ⟨0⟩ .library g₁ = .ok ⟨3⟩ g ∧
      g.zones.check = .ok () ∧
      Game.move ⟨2⟩ (.hand ⟨7⟩) .top none g = .error (.unknownZone (.hand ⟨7⟩)) g' ∧
      Zones.move ⟨2⟩ (.hand ⟨7⟩) .top g.zones = .error (.unknownZone (.hand ⟨7⟩)) g'.zones ∧
      g'.zones ≠ g.zones :=
    ⟨_, _, _, _, rfl, rfl, rfl, by decide +kernel, rfl, rfl, by decide +kernel⟩
  obtain ⟨-, -, g, g', -, -, -, hcheck, hgame, hzones, hdiffer⟩ := hfails
  constructor
  · intro h
    exact hdiffer (h _ _ _ _ _ _ hcheck hzones)
  · intro h
    exact hdiffer (congrArg Game.zones (h _ _ _ _ _ _ _ hcheck hgame))

variable {card : Card} {owner : Seat} {kind : ZoneKind} {token : Bool}

/-- A new object fails to arrive just when there is no room for it. It exists nevertheless. -/
theorem spawn_eq_error_iff :
    spawn card owner kind token g = .error failure g' ↔
      g.zones.NoRoom ⟨g.nextObject⟩ ⟨owner, kind⟩ failure ∧
        g' = g.arrival card owner token g.zones := by
  rw [spawn_eq]
  cases hadd : g.zones.add ⟨g.nextObject⟩ ⟨owner, kind⟩ .top with
  | error cause =>
    have hroom := Zones.add_eq_error_iff.mp hadd
    constructor
    · intro heq
      cases heq
      exact ⟨hroom, rfl⟩
    · rintro ⟨hroom', rfl⟩
      have hcause := hadd.symm.trans (Zones.add_eq_error_iff.mpr hroom')
      cases hcause
      rfl
  | ok zones =>
    have harrives : ∀ cause, ¬ g.zones.NoRoom ⟨g.nextObject⟩ ⟨owner, kind⟩ cause := by
      intro cause hroom
      cases hadd.symm.trans (Zones.add_eq_error_iff.mpr hroom)
    refine iff_of_false ?_ fun h => harrives _ h.1
    intro heq
    simp only [] at heq
    split at heq
    · have hcontains : (g.arrival card owner token zones).contains ⟨g.nextObject⟩ = true := by
        simp [contains_arrival]
      obtain ⟨entered, henter⟩ := exists_enterBattlefield owner hcontains
      change EStateM.bind _ _ _ = _ at heq
      rw [EStateM.bind, henter] at heq
      cases heq
    · cases heq

/-- How new objects fail to arrive. A card that is not in the catalog leaves everything as it was.
In every other case the new object exists afterwards and has used up an identity, and the zones are
as they were. -/
theorem failed_spawn (g : Game) (owner : Seat) (kind : ZoneKind) (failure : Failure) (g' : Game) :
    (∀ card token, spawn card owner kind token g = .error failure g' ↔
      g.zones.NoRoom ⟨g.nextObject⟩ ⟨owner, kind⟩ failure ∧
        g' = g.arrival card owner token g.zones) ∧
    (∀ d, spawnCard d owner kind g = .error failure g' ↔
      g.zones.NoRoom ⟨g.nextObject⟩ ⟨owner, kind⟩ failure ∧
        g' = g.arrival d.toCard owner false g.zones) ∧
    (∀ c id, spawnFrom c id owner kind g = .error failure g' ↔
      (c.require id = .error failure ∧ g' = g) ∨
        ∃ d, c.require id = .ok d ∧ g.zones.NoRoom ⟨g.nextObject⟩ ⟨owner, kind⟩ failure ∧
          g' = g.arrival d.toCard owner false g.zones) ∧
    ∀ card token, (g.arrival card owner token g.zones).contains ⟨g.nextObject⟩ = true ∧
      ((g.arrival card owner token g.zones).facets ⟨g.nextObject⟩).card? = some card ∧
      (g.arrival card owner token g.zones).zones = g.zones ∧
      (g.arrival card owner token g.zones).nextTimestamp = g.nextTimestamp ∧
      g.arrival card owner token g.zones ≠ g := by
  refine ⟨fun card token => spawn_eq_error_iff, fun d => spawn_eq_error_iff, fun c id => ?_,
    fun card token => ⟨?_, ?_, rfl, rfl, ?_⟩⟩
  · unfold spawnFrom
    cases hrequire : c.require id with
    | error cause =>
      constructor
      · intro heq
        cases heq
        exact Or.inl ⟨rfl, rfl⟩
      · rintro (⟨heq, rfl⟩ | ⟨d, heq, -⟩)
        · cases heq
          rfl
        · cases heq
    | ok d =>
      simp [spawnCard, spawn_eq_error_iff]
  · simp [contains_arrival]
  · rw [facets_arrival, if_pos rfl]
    cases token <;> simp [newFacets, Facets.card?, Facets.insert, Facet.kind]
  · intro heq
    have hnext : g.nextObject + 1 = g.nextObject := congrArg Game.nextObject heq
    omega

/-- A new object that fails to arrive changes the game, and may leave a card that is in no zone
although every card was in one. -/
theorem not_unchanged_of_failed_spawn :
    (¬ ∀ (g : Game) (d : CardDefinition) (owner : Seat) (kind : ZoneKind) (failure : Failure)
      (g' : Game), spawnCard d owner kind g = .error failure g' → g' = g) ∧
    ¬ ∀ (g : Game) (d : CardDefinition) (owner : Seat) (kind : ZoneKind) (failure : Failure)
      (g' : Game), spawnCard d owner kind g = .error failure g' →
      (∀ o, g.has o .card = true → g.zone? o ≠ none) →
        ∀ o, g'.has o .card = true → g'.zone? o ≠ none := by
  have hfails : ∃ g g' : Game, start {} = .ok g ∧
      spawnCard (.creature ⟨7⟩ "Bear" 2 2) ⟨7⟩ .hand g = .error (.unknownZone (.hand ⟨7⟩)) g' ∧
      g' ≠ g ∧
      (∀ q ∈ g.objects.entries, q.2.has .card = false) ∧
      g'.has ⟨2⟩ .card = true ∧ g'.zone? ⟨2⟩ = none :=
    ⟨_, _, rfl, rfl, by decide +kernel, by decide +kernel, by decide +kernel, by decide +kernel⟩
  obtain ⟨g, g', -, hspawn, hdiffer, hcardless, hcard, hnowhere⟩ := hfails
  constructor
  · intro h
    exact hdiffer (h _ _ _ _ _ _ hspawn)
  · intro h
    refine h _ _ _ _ _ _ hspawn (fun o ho => ?_) ⟨2⟩ hcard hnowhere
    have hnone : g.has o .card = false := by
      unfold has facets
      cases hfind : g.objects.find? o with
      | none => rfl
      | some fs => exact hcardless (o, fs) (SortedMap.mem_entries_iff.mpr hfind)
    rw [hnone] at ho
    cases ho

end Game

end CardGame
