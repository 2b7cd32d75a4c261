import CardGame.Proofs.Resolve.Carrying

/-!
Where cards end up in the order in which they are put down. Objects that are put on top of a zone
one after the other end above what was there, the last one topmost (`Zones.Stacks`); objects that
are put on the bottom end below it, the last one undermost (`Zones.Sinks`). What else is in any zone
keeps its order. From this follows what the answers about a library make of the zones.
-/

namespace CardGame

namespace Zones

variable {zs zs' moved : Zones} {o : ObjectId} {z origin : Zone} {os : List ObjectId}

/-- Some objects, wherever they were, have been put on top of a zone in turn. -/
def Stacks (z : Zone) (os : List ObjectId) (zs zs' : Zones) : Prop :=
  ∀ z', zs'.objects z' = (zs.objects z').filter (!os.contains ·) ++ if z' = z then os else []

/-- Some objects, wherever they were, have been put on the bottom of a zone in turn. -/
def Sinks (z : Zone) (os : List ObjectId) (zs zs' : Zones) : Prop :=
  ∀ z', zs'.objects z' =
    (if z' = z then os.reverse else []) ++ (zs.objects z').filter (!os.contains ·)

theorem stacks_nil (z : Zone) (zs : Zones) : Stacks z [] zs zs := by
  intro z'
  simp

theorem sinks_nil (z : Zone) (zs : Zones) : Sinks z [] zs zs := by
  intro z'
  simp

/-- Only what is listed in a zone is missed when it has been taken out. -/
theorem Consistent.filter_of_elsewhere (h : zs.Consistent) {z' : Zone} (hne : z' ≠ z)
    (hos : ∀ o ∈ os, zs.zone? o = some z) :
    (zs.objects z').filter (!os.contains ·) = zs.objects z' := by
  refine List.filter_eq_self.mpr fun o ho => ?_
  have hzone := h.located ho
  by_contra hcontains
  have hmem : o ∈ os := by simpa using hcontains
  exact hne (Option.some.inj (hzone.symm.trans (hos o hmem)))

/-- What has not been put elsewhere is still where it was. -/
theorem Stacks.mem_objects (h : Stacks z os zs zs') {z' : Zone} (hmem : o ∈ zs.objects z')
    (ho : o ∉ os) : o ∈ zs'.objects z' := by
  rw [h z']
  exact List.mem_append_left _ (List.mem_filter.mpr ⟨hmem, by simpa using ho⟩)

/-- Other zones than the one that objects are taken from lose nothing. -/
theorem Stacks.objects_of_elsewhere (h : Stacks z os zs zs') (hcons : zs.Consistent)
    (hos : ∀ o ∈ os, o ∈ zs.objects origin) {z' : Zone} (hne : z' ≠ origin) :
    zs'.objects z' = zs.objects z' ++ if z' = z then os else [] := by
  rw [h z', hcons.filter_of_elsewhere hne fun o ho => hcons.located (hos o ho)]

theorem Sinks.objects_of_elsewhere (h : Sinks z os zs zs') (hcons : zs.Consistent)
    (hos : ∀ o ∈ os, o ∈ zs.objects origin) {z' : Zone} (hne : z' ≠ origin) :
    zs'.objects z' = (if z' = z then os.reverse else []) ++ zs.objects z' := by
  rw [h z', hcons.filter_of_elsewhere hne fun o ho => hcons.located (hos o ho)]

theorem Sinks.mem_objects (h : Sinks z os zs zs') {z' : Zone} (hmem : o ∈ zs.objects z')
    (ho : o ∉ os) : o ∈ zs'.objects z' := by
  rw [h z']
  exact List.mem_append_right _ (List.mem_filter.mpr ⟨hmem, by simpa using ho⟩)

/-- Wherever an object is, a move takes it out of every list and puts it into one. -/
theorem Consistent.objects_move {p : Position} (h : zs.Consistent)
    (hmove : Zones.move o z p zs = .ok origin moved) (z' : Zone) :
    moved.objects z' = if z' = z then insertAt ((zs.objects z').filter (· ≠ o)) o p
      else (zs.objects z').filter (· ≠ o) := by
  obtain ⟨rest, hremove, hadd⟩ := move_eq_ok hmove
  have hzone := (remove?_eq_some hremove).1
  have hrest (z' : Zone) : rest.objects z' = (zs.objects z').filter (· ≠ o) := by
    rw [objects_remove hremove]
    split
    · rfl
    · next hne =>
      refine (List.filter_eq_self.mpr fun o' ho' => ?_).symm
      have hapart : o' ≠ o := by
        rintro rfl
        exact hne (Option.some.inj ((h.located ho').symm.trans hzone))
      simpa using hapart
  rw [objects_add hadd]
  by_cases hz : z' = z
  · rw [if_pos hz, if_pos hz.symm, hz, hrest]
  · rw [if_neg hz, if_neg (Ne.symm hz), hrest]

theorem objects_rearrange (zs : Zones) (z : Zone) (order : List ObjectId) (z' : Zone) :
    (zs.rearrange z order).objects z' = if z' = z then order else zs.objects z' := by
  by_cases hz : z' = z
  · simp [hz, objects, rearrange]
  · simp [hz, Ne.symm hz, objects, rearrange]

/-- Shuffling rearranges one zone. -/
theorem objects_shuffle (zs : Zones) (z : Zone) (r : Random) :
    ((zs.shuffle z r).1.objects z).Perm (zs.objects z) ∧
      ∀ z', z' ≠ z → (zs.shuffle z r).1.objects z' = zs.objects z' := by
  rcases zs.shuffle_cases z r with heq | ⟨order, r', -, hperm, heq⟩
  · rw [heq]
    exact ⟨.refl _, fun _ _ => rfl⟩
  · rw [heq]
    refine ⟨?_, fun z' hne => ?_⟩
    · rw [objects_rearrange, if_pos rfl]
      exact hperm.symm
    · rw [objects_rearrange, if_neg hne]

private theorem filter_snoc (xs os : List ObjectId) (o : ObjectId) :
    xs.filter (!(os ++ [o]).contains ·) = (xs.filter (!os.contains ·)).filter (· ≠ o) := by
  rw [List.filter_filter]
  refine List.filter_congr fun x _ => ?_
  by_cases hx : x = o <;> simp [hx]

/-- One more object is put on top. -/
theorem Stacks.snoc (h : Stacks z os zs zs') (hcons : zs'.Consistent) (ho : o ∉ os)
    (hmove : Zones.move o z .top zs' = .ok origin moved) : Stacks z (os ++ [o]) zs moved := by
  intro z'
  have hother : ∀ o' ∈ os, o' ≠ o := fun o' ho' heq => ho (heq ▸ ho')
  rw [hcons.objects_move hmove, h z', filter_snoc]
  split
  · simpa [insertAt] using hother
  · simp

/-- One more object is put on the bottom. -/
theorem Sinks.snoc (h : Sinks z os zs zs') (hcons : zs'.Consistent) (ho : o ∉ os)
    (hmove : Zones.move o z .bottom zs' = .ok origin moved) : Sinks z (os ++ [o]) zs moved := by
  intro z'
  have hother : ∀ o' ∈ os, o' ≠ o := fun o' ho' heq => ho (heq ▸ ho')
  rw [hcons.objects_move hmove, h z', filter_snoc]
  split
  · simpa [insertAt] using hother
  · simp

end Zones

open Resolve

variable {g : Game} {zs : Zones} {s : Seat} {o : ObjectId} {os : List ObjectId}

/-- A loop builds up what is true once its rounds so far are over. -/
theorem Resolve.Succeeds.forM_building {β : Type} {xs : List β} {body : β → Resolve PUnit}
    {S : List β → Game → Prop}
    (hbody : ∀ before x after, xs = before ++ x :: after →
      Succeeds (S before) (body x) fun _ => S (before ++ [x])) :
    Succeeds (S []) (xs.forM body) fun _ => S xs := by
  have hloop (before after : List β) (hxs : xs = before ++ after) :
      Succeeds (S before) (after.forM body) fun _ => S xs := by
    induction after generalizing before with
    | nil =>
      rw [List.append_nil] at hxs
      exact .pure _ fun h => hxs ▸ h
    | cons x rest ih =>
      change Succeeds _ (body x >>= fun _ => rest.forM body) _
      exact .bind (hbody before x rest hxs) fun _ => ih (before ++ [x]) (by simp [hxs])
  exact hloop [] xs rfl

namespace Resolve

variable {origin : ZoneKind}

/-- A card from a zone off the battlefield is put on top of another zone of its owner, or goes to
the top of its own. -/
theorem succeeds_moveTo_stacks (kind : ZoneKind) (controller : Option Seat)
    (horigin : origin ≠ .battlefield) (hmem : o ∈ zs.objects ⟨s, origin⟩) (ho : o ∉ os) :
    Succeeds (fun g => zs.Stacks ⟨s, kind⟩ os g.zones) (moveTo o ⟨s, kind⟩ .top controller)
      fun _ g => zs.Stacks ⟨s, kind⟩ (os ++ [o]) g.zones := by
  have hmove : Succeeds (fun g => zs.Stacks ⟨s, kind⟩ os g.zones)
      (edit (Game.move o ⟨s, kind⟩ .top controller))
      fun _ g => zs.Stacks ⟨s, kind⟩ (os ++ [o]) g.zones := by
    refine .edit fun g hfurnished hstacks => ?_
    have hconsistent := hfurnished.sound.housed.consistent
    have hzone : g.zone? o = some ⟨s, origin⟩ :=
      hconsistent.located (hstacks.mem_objects hmem ho)
    obtain ⟨g', hmoved⟩ := hfurnished.exists_move hzone kind .top controller
    have howner : (⟨s, origin⟩ : Zone).owner = (⟨s, kind⟩ : Zone).owner := rfl
    refine ⟨_, g', hmoved, .move howner hmoved, ?_⟩
    obtain ⟨zones, hzones, hcases⟩ := Game.move_eq_ok hmoved
    have hafter := hstacks.snoc hconsistent ho hzones
    rcases hcases with ⟨hfrom, -, -⟩ | ⟨-, rfl⟩ | ⟨-, -, henter⟩
    · exact absurd hfrom horigin
    · exact hafter
    · rw [Game.enterBattlefield_eq_ok henter]
      exact hafter
  refine .bind hmove fun _ => .bind (.emit _) fun _ => .look fun g _ hstacks => .ite ?_ ?_
  · intro hceased
    refine .bind (.emit _) fun _ => .pure _ ?_
    rintro h rfl
    exact hstacks
  · intro hexists
    refine .pure _ ?_
    rintro h rfl
    exact hstacks

/-- The owner of a card is the player in whose zone it was. -/
theorem succeeds_owner_stacks {z : Zone} (hmem : o ∈ zs.objects ⟨s, origin⟩) (ho : o ∉ os) :
    Succeeds (fun g => zs.Stacks z os g.zones) (owner o)
      fun s' g => s' = s ∧ zs.Stacks z os g.zones := by
  refine .look fun g hfurnished hstacks => ?_
  have hhoused := hfurnished.sound.housed
  have hzone : g.zone? o = some ⟨s, origin⟩ :=
    hhoused.consistent.located (hstacks.mem_objects hmem ho)
  rw [hhoused.owner?_of_zone? hzone]
  refine .pure _ ?_
  rintro h rfl
  exact ⟨rfl, hstacks⟩

theorem succeeds_moveToOwners_stacks (kind : ZoneKind) (horigin : origin ≠ .battlefield)
    (hmem : o ∈ zs.objects ⟨s, origin⟩) (ho : o ∉ os) :
    Succeeds (fun g => zs.Stacks ⟨s, kind⟩ os g.zones) (moveToOwners o kind)
      fun _ g => zs.Stacks ⟨s, kind⟩ (os ++ [o]) g.zones := by
  refine .bind (succeeds_owner_stacks hmem ho) fun s' => .assuming ?_
  rintro g - ⟨rfl, hstacks⟩
  refine (succeeds_moveTo_stacks kind none horigin hmem ho).of_pre ?_
  rintro h - rfl
  exact hstacks

theorem succeeds_putOntoBattlefield_stacks (controller : Option Seat) (tapped : Bool)
    (horigin : origin ≠ .battlefield) (hmem : o ∈ zs.objects ⟨s, origin⟩) (ho : o ∉ os) :
    Succeeds (fun g => zs.Stacks (.battlefield s) os g.zones)
      (putOntoBattlefield o controller tapped)
      fun _ g => zs.Stacks (.battlefield s) (os ++ [o]) g.zones := by
  refine .bind (succeeds_owner_stacks hmem ho) fun s' => .assuming ?_
  rintro g - ⟨rfl, hstacks⟩
  have hmove : Succeeds (fun h => h = g) (moveTo o (.battlefield s') .top controller)
      fun _ g => zs.Stacks (.battlefield s') (os ++ [o]) g.zones :=
    (succeeds_moveTo_stacks .battlefield controller horigin hmem ho).of_pre
      fun _ heq => heq ▸ hstacks
  refine .bind hmove fun _ => .ite ?_ ?_
  · intro htapped
    refine (succeeds_tap fun _ _ => id).of_pre fun {h} hfurnished hstacks => ⟨?_, hstacks⟩
    have hthere : o ∈ h.zones.objects (.battlefield s') := by
      rw [hstacks (.battlefield s')]
      simp [Zone.battlefield]
    exact ⟨_, hfurnished.sound.housed.consistent.located hthere, rfl⟩
  · intro huntapped
    exact .pure _ id

/-- Cards of a zone are put on top of another zone of its owner, one after the other. -/
theorem succeeds_forM_stacks {body : ObjectId → Resolve PUnit} {z : Zone} (honce : os.Nodup)
    (hmem : ∀ o ∈ os, o ∈ zs.objects ⟨s, origin⟩)
    (hbody : ∀ before o, o ∈ zs.objects ⟨s, origin⟩ → o ∉ before →
      Succeeds (fun g => zs.Stacks z before g.zones) (body o)
        fun _ g => zs.Stacks z (before ++ [o]) g.zones) :
    Succeeds (fun g => g.zones = zs) (os.forM body) fun _ g => zs.Stacks z os g.zones := by
  refine (Succeeds.forM_building (S := fun before g => zs.Stacks z before g.zones) ?_).of_pre ?_
  · rintro before o after rfl
    refine hbody before o (hmem o (by simp)) fun hbefore => ?_
    exact (List.nodup_append'.mp honce).2.2 hbefore List.mem_cons_self
  · rintro g - rfl
    exact Zones.stacks_nil z g.zones

end Resolve

namespace LibraryEffect

/-- The cards that are chosen end up undermost, the last of them on the bottom. -/
theorem succeeds_finishScry_sinks (honce : os.Nodup)
    (hmem : ∀ o ∈ os, o ∈ zs.objects (.library s)) :
    Succeeds (fun g => g.zones = zs) (finishScry s os)
      fun outcome g => outcome = .done ∧ zs.Sinks (.library s) os g.zones := by
  have hsink (before : List ObjectId) (o : ObjectId) (hmem : o ∈ zs.objects (.library s))
      (ho : o ∉ before) : Succeeds (fun g => zs.Sinks (.library s) before g.zones)
        (edit (Game.onZones (Zones.move o (.library s) .bottom)))
        fun _ g => zs.Sinks (.library s) (before ++ [o]) g.zones := by
    refine .edit fun g hfurnished hsinks => ?_
    have hhoused := hfurnished.sound.housed
    have hzone : g.zone? o = some (.library s) :=
      hhoused.consistent.located (hsinks.mem_objects hmem ho)
    have hknows : g.zones.knows (.library s) = true :=
      hhoused.known .library (hfurnished.owner_seated hzone)
    obtain ⟨zones, hmoved⟩ := Zones.exists_move hzone hknows .bottom
    refine ⟨.library s, { g with zones }, ?_, .sink hzone hmoved, ?_⟩
    · rw [Game.onZones, hmoved]
    · exact hsinks.snoc hhoused.consistent ho hmoved
  have hloop : Succeeds (fun g => g.zones = zs)
      (os.forM fun o => do
        let _ ← edit (Game.onZones (Zones.move o (.library s) .bottom)))
      fun _ g => zs.Sinks (.library s) os g.zones := by
    refine (Succeeds.forM_building (S := fun before g => zs.Sinks (.library s) before g.zones)
      ?_).of_pre ?_
    · rintro before o after rfl
      refine .bind (hsink before o (hmem o (by simp)) fun hbefore => ?_) fun _ => .pure _ id
      exact (List.nodup_append'.mp honce).2.2 hbefore List.mem_cons_self
    · rintro g - rfl
      exact Zones.sinks_nil _ g.zones
  exact .bind hloop fun _ => .bind (.emit _) fun _ => .pure _ fun hsinks => ⟨rfl, hsinks⟩

/-- The cards that are put in order end up topmost, the first of them on top. -/
theorem succeeds_finishReorder_zones (hsome : os ≠ []) (honce : os.Nodup)
    (hmem : ∀ o ∈ os, o ∈ zs.objects (.library s)) :
    Succeeds (fun g => g.zones = zs) (finishReorder s os)
      fun outcome g => outcome = .done ∧ g.zones = zs.rearrange (.library s)
        ((zs.objects (.library s)).filter (!os.contains ·) ++ os.reverse) := by
  refine .look ?_
  rintro g hfurnished rfl
  have hhoused := hfurnished.sound.housed
  have hknows : g.zones.knows (.library s) = true := by
    obtain ⟨o, ho⟩ := List.exists_mem_of_ne_nil os hsome
    have hzone : g.zone? o = some (.library s) := hhoused.consistent.located (hmem o ho)
    exact hhoused.known .library (hfurnished.owner_seated hzone)
  have hreordered := Zones.exists_reorder hknows
    (perm_filter_append_reverse (hhoused.consistent.nodup_objects _) honce hmem)
  simp only [hreordered]
  refine .bind (R := fun _ h => h.zones = _) (.update ?_) fun _ =>
    .bind (.emit _) fun _ => .pure _ fun hzones => ⟨rfl, hzones⟩
  rintro h - rfl
  exact ⟨.reorder hreordered, rfl⟩

/-- The cards that are chosen end up on top of their zone before the library is shuffled. -/
theorem succeeds_finishSearch_stacks (destination : ZoneKind) (tapped : Bool) (honce : os.Nodup)
    (hmem : ∀ o ∈ os, o ∈ zs.objects (.library s)) :
    Succeeds (fun g => g.zones = zs) (finishSearch s destination tapped os)
      fun outcome g => outcome = .done ∧ ∃ moved : Zones, zs.Stacks ⟨s, destination⟩ os moved ∧
        (g.zones.objects (.library s)).Perm (moved.objects (.library s)) ∧
        ∀ z, z ≠ .library s → g.zones.objects z = moved.objects z := by
  have hmoves : Succeeds (fun g => g.zones = zs) (os.forM fun o => do
      if destination = .battlefield then putOntoBattlefield o (some s) tapped
      else
        let _ ← moveToOwners o destination)
      fun _ g => zs.Stacks ⟨s, destination⟩ os g.zones := by
    refine succeeds_forM_stacks honce hmem fun before o hmem ho => .ite ?_ ?_
    · rintro rfl
      exact succeeds_putOntoBattlefield_stacks _ tapped (by decide) hmem ho
    · intro hother
      exact .bind (succeeds_moveToOwners_stacks destination (by decide) hmem ho) fun _ => .pure _ id
  have hshuffle : Succeeds (fun g => zs.Stacks ⟨s, destination⟩ os g.zones)
      (update (·.shuffleLibrary s)) fun _ g => ∃ moved : Zones,
        zs.Stacks ⟨s, destination⟩ os moved ∧
        (g.zones.objects (.library s)).Perm (moved.objects (.library s)) ∧
        ∀ z, z ≠ .library s → g.zones.objects z = moved.objects z :=
    .update fun g _ hstacks =>
      ⟨.shuffle g s, g.zones, hstacks, g.zones.objects_shuffle (.library s) g.random⟩
  exact .bind hmoves fun _ => .bind (.bind hshuffle fun _ => .emit _) fun _ =>
    .pure _ fun hshuffled => ⟨rfl, hshuffled⟩

/-- One pile ends up on top of the hand and the other one on top of the graveyard. -/
theorem succeeds_takePile_stacks {first second : List ObjectId} (q : Question) {index : Nat}
    (hindex : index < 2) (honce : (first ++ second).Nodup)
    (hmem : ∀ o ∈ first ++ second, o ∈ zs.objects (.library s)) :
    Succeeds (fun g => g.zones = zs) (takePile s first second q index)
      fun outcome g => outcome = .done ∧ ∃ moved : Zones, moved.Consistent ∧
        zs.Stacks (.hand s) (if index = 0 then first else second) moved ∧
        moved.Stacks (.graveyard s) (if index = 0 then second else first) g.zones := by
  have htake (index : Nat) {kept rest : List ObjectId} (honce : (kept ++ rest).Nodup)
      (hmem : ∀ o ∈ kept ++ rest, o ∈ zs.objects (.library s)) :
      Succeeds (fun g => g.zones = zs)
        (do announceOption s q index
            kept.forM fun o => do let _ ← moveToOwners o .hand
            rest.forM fun o => do let _ ← moveToOwners o .graveyard
            return Outcome.done)
        fun outcome g => outcome = .done ∧ ∃ moved : Zones, moved.Consistent ∧
          zs.Stacks (.hand s) kept moved ∧ moved.Stacks (.graveyard s) rest g.zones := by
    obtain ⟨hkept, hrest, hapart⟩ := List.nodup_append'.mp honce
    obtain ⟨hkeptMem, hrestMem⟩ := List.forall_mem_append.mp hmem
    have hhand : Succeeds (fun g => g.zones = zs)
        (kept.forM fun o => do let _ ← moveToOwners o .hand)
        fun _ g => zs.Stacks (.hand s) kept g.zones :=
      succeeds_forM_stacks hkept hkeptMem fun before o hmem ho =>
        .bind (succeeds_moveToOwners_stacks .hand (by decide) hmem ho) fun _ => .pure _ id
    refine .bind (succeeds_announceOption s q index) fun _ => .bind hhand fun _ => ?_
    refine .assuming fun g hfurnished hstacks => ?_
    have hgraveyard : Succeeds (fun h => h.zones = g.zones)
        (rest.forM fun o => do let _ ← moveToOwners o .graveyard)
        fun _ h => g.zones.Stacks (.graveyard s) rest h.zones := by
      have hstill : ∀ o ∈ rest, o ∈ g.zones.objects (.library s) := fun o ho =>
        hstacks.mem_objects (hrestMem o ho) fun ho' => hapart ho' ho
      exact succeeds_forM_stacks hrest hstill fun before o hmem ho =>
        .bind (succeeds_moveToOwners_stacks .graveyard (by decide) hmem ho) fun _ => .pure _ id
    refine .bind (hgraveyard.of_pre fun _ heq => congrArg Game.zones heq) fun _ => ?_
    exact .pure _ fun hrest => ⟨rfl, g.zones, hfurnished.sound.housed.consistent, hstacks, hrest⟩
  match index with
  | 0 => exact htake 0 honce hmem
  | 1 =>
    have hswapped : (second ++ first).Nodup := List.perm_append_comm.nodup_iff.mp honce
    exact htake 1 hswapped fun o ho => hmem o (List.perm_append_comm.mem_iff.mp ho)

end LibraryEffect

end CardGame
