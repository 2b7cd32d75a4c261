import CardGame.Proofs.Play.Answering
import CardGame.Proofs.Play.Cards
import CardGame.Proofs.Play.Timestamps
import CardGame.Proofs.Play.Untouched

/-!
Games in which the scheduler has marked objects for combat, as attached or as face down. Such marks
are no part of the table, of the cards or of the timestamps, so that these are what they are in the
games that come up without marks.
-/

namespace CardGame

namespace Game

variable {g : Game}

theorem Reachable.arranged (h : g.Reachable) : g.Arranged := by
  induction h with
  | start hset => exact .start hset
  | move m _ hseated ih => exact .move m ih hseated

theorem Arranged.sound (h : g.Arranged) : g.Sound := h.sound_poised.1

theorem Arranged.poised (h : g.Arranged) : g.Poised := h.sound_poised.2

/-- The facets by which the scheduler marks objects. -/
def schedulerFacets : List FacetKind := .faceDown :: combatFacets

theorem ne_of_mem_schedulerFacets {kind : FacetKind} (hkind : kind ∈ schedulerFacets) :
    kind ≠ .card ∧ kind ≠ .entered ∧ kind ≠ .player := by
  refine ⟨?_, ?_, ?_⟩ <;>
    rintro rfl <;> simp [schedulerFacets, combatFacets] at hkind

/-- A kept property that holds at a new table and does not depend on marks of the scheduler holds in
every game with such marks. -/
theorem Kept.arranged {I : Game → Prop} (h : Kept I)
    (hstart : ∀ {s : TableSettings} {g : Game}, Game.start s = .ok g → I g)
    (hmark : ∀ {g : Game} (o : ObjectId) {f : Facet}, f.kind ∈ schedulerFacets → I g →
      I { g with objects := g.objects.modify o (·.insert f) })
    (hclear : ∀ {g : Game} (o : ObjectId) {kind : FacetKind}, kind ∈ schedulerFacets → I g →
      I (g.eraseFacet o kind))
    (harranged : g.Arranged) : I g := by
  induction harranged with
  | start hset => exact hstart hset
  | move m hbefore hseated ih => exact h.apply hbefore.sound hbefore.poised ih m hseated
  | mark _ hkind hset ih =>
    obtain ⟨-, rfl⟩ := setFacet_eq_ok hset
    exact hmark _ (List.mem_cons.mpr hkind) ih
  | clear o _ hkind ih => exact hclear o (List.mem_cons.mpr hkind) ih

theorem Arranged.dated (h : g.Arranged) : g.Dated := by
  refine kept_dated.arranged dated_start (fun o f hkind hdated => ?_) (fun o kind _ hdated => ?_) h
  · exact hdated.undated (undated_insert (ne_of_mem_schedulerFacets hkind).2.1 o)
  · exact hdated.undated (undated_eraseFacet o kind)

theorem Arranged.carded (h : g.Arranged) : g.Carded := by
  refine kept_carded.arranged carded_start (fun o f hkind hcarded => ?_)
    (fun o kind hkind hcarded => ?_) h
  · exact hcarded.sameCards (sameCards_insert (ne_of_mem_schedulerFacets hkind).1 o)
  · have hcard : kind ≠ .card := (ne_of_mem_schedulerFacets hkind).1
    exact hcarded.sameCards (sameCards_modify (fun _ => Facets.card?_erase hcard) o)

/-- Nothing is missing from the table. -/
theorem Arranged.furnished (h : g.Arranged) : g.Furnished := by
  have htable : ∃ s g₀, Game.start s = .ok g₀ ∧ SameTable g₀ g := by
    refine kept_sameTable.arranged (fun hstart => ⟨_, _, hstart, .of_eq rfl rfl rfl⟩) ?_ ?_ h
    · rintro g o f hkind ⟨s, g₀, hstart, hsame⟩
      have hplayer := (ne_of_mem_schedulerFacets hkind).2.2
      exact ⟨s, g₀, hstart, hsame.trans (sameTable_insert hplayer o)⟩
    · rintro g o kind hkind ⟨s, g₀, hstart, hsame⟩
      have hplayer := (ne_of_mem_schedulerFacets hkind).2.2
      refine ⟨s, g₀, hstart, hsame.trans (sameTable_modify (fun fs halive => ?_) o)⟩
      rwa [Facets.player?_erase hplayer]
  obtain ⟨s, g₀, hstart, hsame⟩ := htable
  exact (furnished_start hstart).congr hsame h.sound

end Game

end CardGame
