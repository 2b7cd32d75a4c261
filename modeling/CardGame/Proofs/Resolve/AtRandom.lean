import CardGame.Proofs.Resolve.Shelving

/-!
What is done at random to the zones. Shuffling rearranges libraries (`Zones.Shuffled`). A player who
discards at random puts different cards of the hand on top of the graveyard, as many as have to be
discarded or all of them (`Zones.Discards`), and players who do so one after the other draw from one
stream but touch no zone of each other (`Zones.DiscardedBy`).
-/

namespace CardGame

namespace Zones

variable {n : Nat} {s : Seat} {players later : List Seat} {cards : List ObjectId}
  {zs zs' zs'' : Zones}

/-- The libraries of some players may have been rearranged, and everything else is as it was. -/
structure Shuffled (players : List Seat) (zs zs' : Zones) : Prop where
  libraries : ∀ s, (zs'.objects (.library s)).Perm (zs.objects (.library s))
  others : ∀ z, z ∉ players.map Zone.library → zs'.objects z = zs.objects z

namespace Shuffled

theorem refl (zs : Zones) : Shuffled [] zs zs :=
  ⟨fun _ => .refl _, fun _ _ => rfl⟩

theorem append (h : Shuffled players zs zs') (h' : Shuffled later zs' zs'') :
    Shuffled (players ++ later) zs zs'' where
  libraries s := (h'.libraries s).trans (h.libraries s)
  others z hz := by
    rw [List.map_append, List.mem_append, not_or] at hz
    rw [h'.others z hz.2, h.others z hz.1]

end Shuffled

theorem shuffled_shuffle (zs : Zones) (s : Seat) (r : Random) :
    zs.Shuffled [s] (zs.shuffle (.library s) r).1 := by
  obtain ⟨hperm, hothers⟩ := zs.objects_shuffle (.library s) r
  constructor
  · intro s'
    by_cases hs : s' = s
    · exact hs ▸ hperm
    · rw [hothers _ fun heq => hs (congrArg Zone.owner heq)]
  · intro z hz
    exact hothers z fun heq => hz (List.mem_singleton.mpr heq)

/-- A player has discarded different cards, as many as have to be or all cards of the hand. They are
on top of the graveyard, and the rest of the hand is in order. -/
structure Discards (n : Nat) (s : Seat) (cards : List ObjectId) (zs zs' : Zones) : Prop where
  once : cards.Nodup
  among : cards ⊆ zs.objects (.hand s)
  exactly : cards.length = min n (zs.objects (.hand s)).length
  hand : zs'.objects (.hand s) = (zs.objects (.hand s)).filter (!cards.contains ·)
  graveyard : zs'.objects (.graveyard s) = zs.objects (.graveyard s) ++ cards

/-- Discarding is a matter of one hand and one graveyard. -/
theorem Discards.congr {before after : Zones} (h : Discards n s cards zs zs')
    (hbefore : zs.objects (.hand s) = before.objects (.hand s) ∧
      zs.objects (.graveyard s) = before.objects (.graveyard s))
    (hafter : after.objects (.hand s) = zs'.objects (.hand s) ∧
      after.objects (.graveyard s) = zs'.objects (.graveyard s)) :
    Discards n s cards before after := by
  obtain ⟨honce, hamong, hexactly, hrest, htop⟩ := h
  rw [hbefore.1] at hamong hexactly hrest
  rw [hbefore.2] at htop
  exact ⟨honce, hamong, hexactly, hafter.1.trans hrest, hafter.2.trans htop⟩

/-- Each of some players has discarded, and everything else is as it was. -/
structure DiscardedBy (n : Nat) (players : List Seat) (zs zs' : Zones) : Prop where
  discards : ∀ s ∈ players, ∃ cards, Discards n s cards zs zs'
  others : ∀ z, z ∉ players.flatMap (fun s => [Zone.hand s, .graveyard s]) →
    zs'.objects z = zs.objects z

namespace DiscardedBy

theorem refl (n : Nat) (zs : Zones) : DiscardedBy n [] zs zs :=
  ⟨fun _ hs => absurd hs List.not_mem_nil, fun _ _ => rfl⟩

/-- Whoever does not discard keeps hand and graveyard. -/
theorem kept (h : DiscardedBy n players zs zs') (hs : s ∉ players) :
    zs'.objects (.hand s) = zs.objects (.hand s) ∧
      zs'.objects (.graveyard s) = zs.objects (.graveyard s) := by
  have hnone {z : Zone} (hz : z.owner = s) :
      z ∉ players.flatMap fun s => [Zone.hand s, .graveyard s] := by
    intro hmem
    obtain ⟨s', hs', hz'⟩ := List.mem_flatMap.mp hmem
    rcases List.mem_pair.mp hz' with rfl | rfl
    all_goals exact hs (hz ▸ hs')
  exact ⟨h.others _ (hnone rfl), h.others _ (hnone rfl)⟩

/-- Different players discard one after the other. -/
theorem append (h : DiscardedBy n players zs zs') (h' : DiscardedBy n later zs' zs'')
    (hapart : ∀ s ∈ later, s ∉ players) : DiscardedBy n (players ++ later) zs zs'' where
  discards s hs := by
    by_cases hlater : s ∈ later
    · obtain ⟨cards, hcards⟩ := h'.discards s hlater
      exact ⟨cards, hcards.congr (h.kept (hapart s hlater)) ⟨rfl, rfl⟩⟩
    · obtain ⟨cards, hcards⟩ := h.discards s ((List.mem_append.mp hs).resolve_right hlater)
      exact ⟨cards, hcards.congr ⟨rfl, rfl⟩ (h'.kept hlater)⟩
  others z hz := by
    rw [List.flatMap_append, List.mem_append, not_or] at hz
    rw [h'.others z hz.2, h.others z hz.1]

end DiscardedBy

/-- Cards of a hand that have been put on top of the graveyard have been discarded. -/
theorem Stacks.discardedBy (h : zs.Stacks (.graveyard s) cards zs') (hcons : zs.Consistent)
    (honce : cards.Nodup) (hamong : cards ⊆ zs.objects (.hand s))
    (hexactly : cards.length = min n (zs.objects (.hand s)).length) :
    zs.DiscardedBy n [s] zs' := by
  have hhand : Zone.hand s ≠ .graveyard s := by simp [Zone.hand, Zone.graveyard]
  constructor
  · intro s' hs'
    obtain rfl := List.mem_singleton.mp hs'
    refine ⟨cards, honce, hamong, hexactly, ?_, ?_⟩
    · rw [h, if_neg hhand, List.append_nil]
    · rw [h.objects_of_elsewhere hcons hamong hhand.symm, if_pos rfl]
  · intro z hz
    obtain ⟨hnot, hnot'⟩ : z ≠ .hand s ∧ z ≠ .graveyard s := by simpa using hz
    rw [h.objects_of_elsewhere hcons hamong hnot, if_neg hnot', List.append_nil]

end Zones

open Resolve

variable {n : Nat} {s : Seat} {players : List Seat} {cards : List ObjectId} {zs : Zones}

namespace Resolve

theorem succeeds_shuffleLibrary_zones (s : Seat) :
    Succeeds (fun g => zs.Shuffled players g.zones) (shuffleLibrary s)
      fun _ g => zs.Shuffled (players ++ [s]) g.zones := by
  have hshuffle : Succeeds (fun g => zs.Shuffled players g.zones) (update (·.shuffleLibrary s))
      fun _ g => zs.Shuffled (players ++ [s]) g.zones :=
    .update fun g _ hshuffled =>
      ⟨.shuffle g s, hshuffled.append (g.zones.shuffled_shuffle s g.random)⟩
  exact .bind hshuffle fun _ => .emit _

/-- Cards of a hand are discarded to the top of the graveyard. -/
theorem succeeds_discard_stacks (honce : cards.Nodup) (hhand : cards ⊆ zs.objects (.hand s)) :
    Succeeds (fun g => g.zones = zs) (discard s cards)
      fun _ g => zs.Stacks (.graveyard s) cards g.zones := by
  refine succeeds_forM_stacks honce hhand fun before o hmem ho => ?_
  refine .look fun g hfurnished hstacks => ?_
  have hzone : g.zone? o = some (.hand s) :=
    hfurnished.sound.housed.consistent.located (hstacks.mem_objects hmem ho)
  refine .guard (fun hnot => hnot hzone) ?_
  refine .bind ((succeeds_moveToOwners_stacks .graveyard (by decide) hmem ho).of_pre ?_)
    fun _ => .emit _
  rintro h - rfl
  exact hstacks

end Resolve

namespace LibraryEffect

/-- Cards at different places of the hand are discarded. -/
theorem succeeds_discardRandom_zones (s : Seat) (n : Nat) :
    Succeeds (fun g => g.zones = zs) (discardRandom s n)
      fun _ g => zs.DiscardedBy n [s] g.zones := by
  refine .look ?_
  rintro g hfurnished rfl
  have hconsistent := hfurnished.sound.housed.consistent
  have hsamples := g.random.samples_sample (g.hand s).length n
  obtain ⟨indices, random, hsample⟩ : ∃ indices random,
      g.random.sample (g.hand s).length n = (indices, random) := ⟨_, _, rfl⟩
  rw [hsample] at hsamples
  have honce := hsamples.nodup_items (hconsistent.nodup_objects (.hand s))
  have hamong : indices.filterMap ((g.hand s)[·]?) ⊆ g.hand s := Random.Samples.items_subset
  simp only [hsample]
  have hdraw : Succeeds (fun h => h = g) (update fun g => { g with random })
      fun _ h => h.zones = g.zones := by
    refine .update ?_
    rintro h - rfl
    exact ⟨.random h random, rfl⟩
  refine .bind hdraw fun _ => (succeeds_discard_stacks honce hamong).mono (fun _ => id) ?_
  exact fun hstacks => hstacks.discardedBy hconsistent honce hamong hsamples.length_items

end LibraryEffect

/-- Players whose libraries are shuffled in turn. -/
theorem succeeds_shuffleEach (players : List Seat) :
    Succeeds (fun g => g.zones = zs) (players.forM shuffleLibrary)
      fun _ g => zs.Shuffled players g.zones := by
  refine (Succeeds.forM_building (S := fun before g => zs.Shuffled before g.zones) ?_).of_pre ?_
  · rintro before s after -
    exact succeeds_shuffleLibrary_zones s
  · rintro g - rfl
    exact .refl g.zones

/-- Players who discard at random in turn, each of them once. -/
theorem succeeds_discardEach (honce : players.Nodup) (n : Nat) :
    Succeeds (fun g => g.zones = zs) (players.forM fun s => LibraryEffect.discardRandom s n)
      fun _ g => zs.DiscardedBy n players g.zones := by
  refine (Succeeds.forM_building
    (S := fun before g => zs.DiscardedBy n before g.zones) ?_).of_pre ?_
  · rintro before s after rfl
    have hnew : ∀ s' ∈ [s], s' ∉ before := by
      intro s' hs' hbefore
      rw [List.mem_singleton.mp hs'] at hbefore
      exact (List.nodup_append'.mp honce).2.2 hbefore List.mem_cons_self
    refine .assuming fun g _ hbefore => ?_
    exact (LibraryEffect.succeeds_discardRandom_zones s n).mono (fun _ => congrArg Game.zones)
      fun hdiscarded => hbefore.append hdiscarded hnew
  · rintro g - rfl
    exact .refl n g.zones

end CardGame
