import CardGame.Proofs.Play.Status
import CardGame.Proofs.Projection.Stages

/-!
Objects and their cards. Apart from the players, everything in a game is a card or a token and stays
one (`Game.Carded`), so whatever is on the battlefield has characteristics.
-/

namespace CardGame

namespace Game

variable {g g' g'' : Game} {o : ObjectId}

/-- Every object that is no player is a card or a token. -/
def Carded (g : Game) : Prop :=
  ∀ o, g.contains o = true → g.seat? o = none → (g.facets o).card?.isSome = true

/-- The objects that there still are have the same cards. -/
structure SameCards (g g' : Game) : Prop where
  seats : g'.seats = g.seats
  contains : ∀ o, g'.contains o = true → g.contains o = true
  card : ∀ o, g'.contains o = true → (g'.facets o).card? = (g.facets o).card?

theorem SameCards.of_eq (hseats : g'.seats = g.seats) (hobjects : g'.objects = g.objects) :
    SameCards g g' where
  seats := hseats
  contains o ho := by rwa [Game.contains, hobjects] at ho
  card o _ := by rw [facets, hobjects, facets]

theorem SameCards.trans (h : SameCards g g') (h' : SameCards g' g'') : SameCards g g'' where
  seats := h'.seats.trans h.seats
  contains o ho := h.contains o (h'.contains o ho)
  card o ho := (h'.card o ho).trans (h.card o (h'.contains o ho))

theorem Carded.sameCards (h : g.Carded) (hsame : SameCards g g') : g'.Carded := by
  intro o ho hseat
  rw [hsame.card o ho]
  refine h o (hsame.contains o ho) ?_
  rw [seat?, hsame.seats] at hseat
  exact hseat

/-- A change to the facets of one object, other than its card. -/
theorem sameCards_modify {F : Facets → Facets} (hF : ∀ fs, (F fs).card? = fs.card?)
    (o : ObjectId) : SameCards g { g with objects := g.objects.modify o F } where
  seats := rfl
  contains o' ho' := by
    rwa [Game.contains, SortedMap.contains_modify] at ho'
  card o' ho' := by
    by_cases ho : o = o'
    · subst ho
      rw [Game.contains, SortedMap.contains_modify] at ho'
      rw [facets_modify_self ho', hF]
    · rw [facets_modify_of_ne ho]

theorem sameCards_insert {f : Facet} (hkind : f.kind ≠ .card) (o : ObjectId) :
    SameCards g { g with objects := g.objects.modify o (·.insert f) } :=
  sameCards_modify (fun _ => Facets.card?_insert hkind) o

theorem sameCards_eraseFacets {kinds : List FacetKind} (hkinds : FacetKind.card ∉ kinds)
    (o : ObjectId) : SameCards g (g.eraseFacets o kinds) := by
  induction kinds generalizing g with
  | nil => exact .of_eq rfl rfl
  | cons kind rest ih =>
    obtain ⟨hkind, hrest⟩ : FacetKind.card ≠ kind ∧ FacetKind.card ∉ rest := by simpa using hkinds
    have hfirst : SameCards g (g.eraseFacet o kind) :=
      sameCards_modify (fun _ => Facets.card?_erase (Ne.symm hkind)) o
    exact hfirst.trans (ih hrest)

theorem sameCards_leaveBattlefield (o : ObjectId) : SameCards g (g.leaveBattlefield o) where
  seats := by rw [leaveBattlefield_frame]
  contains o' ho' := by
    rw [contains_leaveBattlefield] at ho'
    split at ho'
    · cases ho'
    · exact ho'
  card o' ho' := by
    rw [contains_leaveBattlefield] at ho'
    split at ho'
    · cases ho'
    · next hstays =>
      by_cases ho : o = o'
      · subst ho
        have herased : SameCards g (g.eraseFacets o permanentFacets) :=
          sameCards_eraseFacets (by simp [permanentFacets]) o
        rw [facets_leaveBattlefield_self, if_neg fun htoken => hstays ⟨htoken, rfl⟩]
        refine herased.card o ?_
        have hkept := (sameStanding_eraseFacets (g := g) (fun _ => id) o).contains o
        exact hkept.trans ho'
      · rw [facets_leaveBattlefield_of_ne ho]

theorem sameCards_enterBattlefield {controller : Seat} {u : Unit}
    (h : enterBattlefield o controller g = .ok u g') : SameCards g g' := by
  rw [enterBattlefield_eq_ok h]
  have hentered : SameCards g { g with
      objects := g.objects.modify o (·.insert (.entered g.turn.number g.nextTimestamp)) } :=
    sameCards_insert (by simp [Facet.kind]) o
  have hcontrolled := hentered.trans
    (sameCards_insert (f := .controller controller) (by simp [Facet.kind]) o)
  exact hcontrolled.trans (.of_eq rfl rfl)

theorem sameCards_move {target origin : Zone} {p : Position} {controller : Option Seat}
    (h : Game.move o target p controller g = .ok origin g') : SameCards g g' := by
  obtain ⟨zones, -, hcases⟩ := move_eq_ok h
  have hmoved : SameCards g { g with zones } := .of_eq rfl rfl
  rcases hcases with ⟨-, -, rfl⟩ | ⟨-, rfl⟩ | ⟨-, -, henter⟩
  · exact hmoved.trans (sameCards_leaveBattlefield o)
  · exact hmoved
  · exact hmoved.trans (sameCards_enterBattlefield henter)

theorem card?_newFacets (card : Card) (owner : Seat) (token : Bool) :
    (newFacets card owner token).card? = some card := by
  unfold newFacets Facets.card?
  cases token <;> simp [Facets.insert, Facet.kind]

theorem Carded.spawn {card : Card} {owner : Seat} {kind : ZoneKind} {token : Bool} (h : g.Carded)
    (hspawn : Game.spawn card owner kind token g = .ok o g') : g'.Carded := by
  obtain ⟨-, zones, -, hcases⟩ := spawn_eq_ok hspawn
  have harrived : (g.arrival card owner token zones).Carded := by
    intro o' ho' hseat
    rw [facets_arrival]
    split
    · rw [card?_newFacets]
      rfl
    · next hold =>
      rw [contains_arrival, decide_eq_false hold, Bool.false_or] at ho'
      exact h o' ho' hseat
  rcases hcases with ⟨-, rfl⟩ | ⟨-, henter⟩
  · exact harrived
  · exact harrived.sameCards (sameCards_enterBattlefield henter)

theorem Carded.alter {lasting : Duration → Prop} (h : g.Carded) (halter : Alter lasting g g') :
    g'.Carded := by
  cases halter with
  | move howner hmove => exact h.sameCards (sameCards_move hmove)
  | mark hrecords hthere hset =>
    obtain ⟨-, rfl⟩ := setFacet_eq_ok hset
    refine h.sameCards (sameCards_insert ?_ _)
    cases hrecords <;> simp [Facet.kind]
  | unmark o kinds hkinds =>
    refine h.sameCards (sameCards_eraseFacets (fun hcard => ?_) o)
    have hstatus := hkinds .card hcard
    simp [statusFacets] at hstatus
  | life hset =>
    obtain ⟨poison, rfl⟩ := setLife_eq_ok hset
    exact h.sameCards (sameCards_insert (by simp [Facet.kind]) _)
  | create hspawn => exact h.spawn hspawn
  | _ => exact h.sameCards (.of_eq rfl rfl)

theorem kept_carded : Kept Carded where
  alter _ h halter := h.alter halter
  suspend _ _ _ h := h.sameCards (.of_eq rfl rfl)
  thin _ h := h.sameCards (.of_eq rfl rfl)
  countDown h := h.sameCards (.of_eq rfl rfl)
  schedule _ h := h.sameCards (.of_eq rfl rfl)
  arrive _ h hspawn := h.spawn hspawn

/-- At a new table there is nothing but the players. -/
theorem carded_start {s : TableSettings} (h : start s = .ok g) : g.Carded := by
  obtain ⟨hplayers, rfl⟩ := start_eq_ok h
  intro o ho hseat
  have hlt := (contains_ofSeats_iff hplayers
    (fun _ => Facets.empty.insert (.player s.startingLife 0)) o).mp ho
  have hle := (ObjectId.seat?_eq_none_iff _ _).mp hseat
  rw [ObjectId.firstObject_eq hplayers] at hle
  omega

theorem Reachable.carded (h : g.Reachable) : g.Carded := kept_carded.reachable carded_start h

/-- Whatever is in a zone has characteristics. -/
theorem Carded.exists_base? (h : g.Carded) (hhoused : g.Housed) {z : Zone}
    (hzone : g.zone? o = some z) : ∃ c, Characteristics.base? g o = some c := by
  have hcard := h o (hhoused.contains_of_zone? hzone) (hhoused.seat?_of_zone? hzone)
  obtain ⟨c, hc⟩ := Option.isSome_iff_exists.mp hcard
  exact ⟨_, by rw [Characteristics.base?, hc, Option.map_some]⟩

/-- A projection shows whatever is in a zone. -/
theorem Carded.exists_shown (h : g.Carded) (hhoused : g.Housed) (rules : Rules) {z : Zone}
    (hzone : g.zone? o = some z) : ∃ c, SortedMap.find? (rules.project g) o = some c := by
  obtain ⟨b, hb⟩ := h.exists_base? hhoused hzone
  have hshown := rules.isSome_find?_project g o
  rw [hb] at hshown
  exact Option.isSome_iff_exists.mp hshown

end Game

end CardGame
