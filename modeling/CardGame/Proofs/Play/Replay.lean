import CardGame.Proofs.Play.Account
import CardGame.Proofs.Play.Status
import Mathlib.Logic.Function.Basic

/-!
The events as an audit trail. From what was known of the objects (`Board`), the events alone tell
which object is where afterwards, which are tapped, under counters or gone, what the life totals are
and which decision is pending (`Board.replay`). Every event fits what was known: an object moves
from the zone where it was, and life changes from what it was.
-/

namespace CardGame

/-- What is known of an object to one who listens to the events. -/
@[ext] structure Piece where
  present : Bool
  zone : Option Zone
  life : Option Int
  tapped : Bool
  counters : CounterKind → Nat

theorem Facets.Sorted.isSome_get? {fs : Facets} (h : fs.Sorted) (kind : FacetKind) :
    (fs.get? kind).isSome = fs.has kind := by
  unfold Facets.get? Facets.has SortedMap.contains
  cases hfind : fs.byKind.find? kind with
  | none => rfl
  | some f => simp [h kind f hfind]

namespace Piece

/-- What is known of an object, given its facets. -/
def ofFacets (present : Bool) (zone : Option Zone) (fs : Facets) : Piece where
  present := present
  zone := zone
  life := fs.player?.map (·.1)
  tapped := fs.has .tapped
  counters kind := (fs.counters?.getD {}).count kind

/-- An object that does not exist. -/
def absent : Piece := ofFacets false none .empty

/-- A new token on its controller's battlefield. -/
def newToken (controller : Seat) : Piece := ofFacets true (some (.battlefield controller)) .empty

/-- What leaves the battlefield is neither tapped nor under counters. -/
def moved (p : Piece) (origin target : Zone) : Piece :=
  if origin.kind = .battlefield ∧ target.kind ≠ .battlefield then
    { p with zone := some target, tapped := false, counters := fun _ => 0 }
  else { p with zone := some target }

theorem present_moved (p : Piece) (origin target : Zone) :
    (p.moved origin target).present = p.present := by
  unfold moved
  split <;> rfl

section

variable {present : Bool} {zone : Option Zone} {fs : Facets}

theorem ofFacets_insert {f : Facet} (hlife : f.kind ≠ .player) (htapped : f.kind ≠ .tapped)
    (hcounters : f.kind ≠ .counters) :
    ofFacets present zone (fs.insert f) = ofFacets present zone fs := by
  simp [ofFacets, Facets.player?, Facets.counters?, Facets.has, Facets.insert, hlife, htapped,
    hcounters]

theorem ofFacets_erase {kind : FacetKind} (hlife : kind ≠ .player) (htapped : kind ≠ .tapped)
    (hcounters : kind ≠ .counters) :
    ofFacets present zone (fs.erase kind) = ofFacets present zone fs := by
  simp [ofFacets, Facets.player?, Facets.counters?, Facets.has, Facets.erase, hlife, htapped,
    hcounters]

theorem ofFacets_tap : ofFacets present zone (fs.insert .tapped) =
    { ofFacets present zone fs with tapped := true } := by
  simp [ofFacets, Facets.player?, Facets.counters?, Facets.has, Facets.insert, Facet.kind]

theorem ofFacets_untap : ofFacets present zone (fs.erase .tapped) =
    { ofFacets present zone fs with tapped := false } := by
  simp [ofFacets, Facets.player?, Facets.counters?, Facets.has, Facets.erase]

theorem ofFacets_life (life : Int) (poison : Nat) :
    ofFacets present zone (fs.insert (.player life poison)) =
      { ofFacets present zone fs with life := some life } := by
  simp [ofFacets, Facets.player?, Facets.counters?, Facets.has, Facets.insert, Facet.kind]

theorem ofFacets_counters (c : Counters) : ofFacets present zone (fs.insert (.counters c)) =
    { ofFacets present zone fs with counters := c.count } := by
  simp [ofFacets, Facets.player?, Facets.counters?, Facets.has, Facets.insert, Facet.kind]

theorem ofFacets_noCounters : ofFacets present zone (fs.erase .counters) =
    { ofFacets present zone fs with counters := fun _ => 0 } := by
  simp [ofFacets, Facets.player?, Facets.counters?, Facets.has, Facets.erase]
  rfl

end

end Piece

/-- What one who listens to the events knows of a game. -/
@[ext] structure Board where
  piece : ObjectId → Piece
  pending : Option DecisionId

namespace Board

/-- The board after something has become known of an object. -/
def change (b : Board) (o : ObjectId) (p : Piece) : Board :=
  { b with piece := Function.update b.piece o p }

theorem piece_change (b : Board) (o : ObjectId) (p : Piece) : (b.change o p).piece o = p :=
  Function.update_self _ _ _

theorem change_change (b : Board) (o : ObjectId) (p q : Piece) :
    (b.change o p).change o q = b.change o q := by
  unfold change
  rw [Function.update_idem]

/-- The board after an event, if the event fits what was known. -/
def after (b : Board) : Event → Option Board
  | .zoneChanged o origin target =>
    if (b.piece o).zone = some origin then some (b.change o ((b.piece o).moved origin target))
    else none
  | .tokenCreated o s => if (b.piece o).present then none else some (b.change o (.newToken s))
  | .tokenCeased o => if (b.piece o).present then some (b.change o .absent) else none
  | .tapped o =>
    if (b.piece o).tapped then none else some (b.change o { b.piece o with tapped := true })
  | .untapped o =>
    if (b.piece o).tapped then some (b.change o { b.piece o with tapped := false }) else none
  | .countersAdded o kind n =>
    let counters := (b.piece o).counters
    some (b.change o { b.piece o with
      counters := Function.update counters kind (counters kind + n) })
  | .countersRemoved o kind n =>
    let counters := (b.piece o).counters
    if n ≤ counters kind then
      some (b.change o { b.piece o with
        counters := Function.update counters kind (counters kind - n) })
    else none
  | .lifeChanged s before after =>
    if (b.piece (.ofSeat s)).life = some before then
      some (b.change (.ofSeat s) { b.piece (.ofSeat s) with life := some after })
    else none
  | .decisionRequested id _ => some { b with pending := some id }
  | .decisionResolved id _ => if b.pending = some id then some { b with pending := none } else none
  | _ => some b

/-- The board after some events, if every one of them fits. -/
def replay (b : Board) (es : List Event) : Option Board := es.foldlM after b

theorem replay_singleton (b : Board) (e : Event) : b.replay [e] = b.after e := by
  change (b.after e).bind some = _
  exact Option.bind_fun_some _

theorem replay_cons (b : Board) (e : Event) (es : List Event) :
    b.replay (e :: es) = (b.after e).bind fun b' => b'.replay es :=
  List.foldlM_cons

theorem replay_of_forall {b : Board} {es : List Event} (h : ∀ e ∈ es, b.after e = some b) :
    b.replay es = some b := by
  induction es with
  | nil => rfl
  | cons e rest ih =>
    rw [replay_cons, h e List.mem_cons_self, Option.bind_some]
    exact ih fun e' he' => h e' (List.mem_cons_of_mem _ he')

theorem after_notice {e : Event} (h : e.isNotice = true) (b : Board) : b.after e = some b := by
  cases e <;> first | rfl | cases h

end Board

namespace Game

variable {g g' g'' : Game} {o : ObjectId}

/-- What is to be known of an object. -/
def piece (g : Game) (o : ObjectId) : Piece := .ofFacets (g.contains o) (g.zone? o) (g.facets o)

/-- What is to be known of a game. -/
def board (g : Game) : Board where
  piece := g.piece
  pending := g.pending.map (·.id)

theorem piece_congr (hcontains : g'.contains o = g.contains o) (hzone : g'.zone? o = g.zone? o)
    (hfacets : g'.facets o = g.facets o) : g'.piece o = g.piece o := by
  rw [piece, piece, hcontains, hzone, hfacets]

/-- Nothing new is to be known if nothing has changed of what can be. -/
theorem board_congr (hpiece : ∀ o, g'.piece o = g.piece o) (hpending : g'.pending = g.pending) :
    g'.board = g.board := by
  rw [board, board, hpending, funext hpiece]

/-- Where only one object has changed, something new is to be known of this object only. -/
theorem board_change {p : Piece} (hself : g'.piece o = p)
    (hothers : ∀ o', o ≠ o' → g'.piece o' = g.piece o') (hpending : g'.pending = g.pending) :
    g'.board = g.board.change o p := by
  unfold board Board.change
  rw [hpending, Board.mk.injEq]
  refine ⟨funext fun o' => ?_, rfl⟩
  by_cases ho : o = o'
  · subst ho
    rw [Function.update_self]
    exact hself
  · rw [Function.update_of_ne (Ne.symm ho)]
    exact hothers o' ho

/-- Objects are on file: the existing ones have identities that have been handed out, whatever is in
a zone exists, and every facet is kept under its own kind. -/
structure Filed (g : Game) : Prop where
  issued : ∀ o, g.contains o = true → o.val < g.nextObject
  present : ∀ o z, g.zone? o = some z → g.contains o = true
  sorted : ∀ o, (g.facets o).Sorted

theorem Filed.congr (h : g.Filed) (hobjects : g'.objects = g.objects)
    (hzone : ∀ o, g'.zone? o = g.zone? o) (hnext : g'.nextObject = g.nextObject) : g'.Filed := by
  have hcontains (o : ObjectId) : g'.contains o = g.contains o := by
    rw [contains, hobjects, contains]
  constructor
  · intro o ho
    rw [hnext]
    exact h.issued o (hcontains o ▸ ho)
  · intro o z hz
    rw [hcontains]
    exact h.present o z (hzone o ▸ hz)
  · intro o
    rw [facets, hobjects]
    exact h.sorted o

/-- A change to the facets of one object keeps it on file, if the facets stay sorted. -/
theorem Filed.modify (h : g.Filed) (o : ObjectId) {F : Facets → Facets}
    (hF : ∀ fs : Facets, fs.Sorted → (F fs).Sorted) :
    ({ g with objects := g.objects.modify o F } : Game).Filed := by
  have hcontains (o' : ObjectId) :
      ({ g with objects := g.objects.modify o F } : Game).contains o' = g.contains o' :=
    SortedMap.contains_modify _ _ _ _
  constructor
  · intro o' ho'
    exact h.issued o' (hcontains o' ▸ ho')
  · intro o' z hz
    rw [hcontains]
    exact h.present o' z hz
  · intro o'
    simp only [facets, SortedMap.find?_modify]
    split
    · cases hfind : g.objects.find? o' with
      | none => exact Facets.bare_empty.sorted
      | some fs =>
        have hfacets : g.facets o' = fs := by rw [facets, hfind, Option.getD_some]
        exact hF fs (hfacets ▸ h.sorted o')
    · exact h.sorted o'

theorem Filed.setFacet {f : Facet} {u : Unit} (h : g.Filed)
    (hset : Game.setFacet o f g = .ok u g') : g'.Filed := by
  obtain ⟨-, rfl⟩ := setFacet_eq_ok hset
  exact h.modify o fun _ hfs => hfs.insert f

theorem Filed.eraseFacets (h : g.Filed) (o : ObjectId) (kinds : List FacetKind) :
    (g.eraseFacets o kinds).Filed := by
  induction kinds generalizing g with
  | nil => exact h
  | cons kind rest ih => exact ih (h.modify o fun _ hfs => hfs.erase kind)

theorem Filed.enterBattlefield {controller : Seat} {u : Unit} (h : g.Filed)
    (henter : Game.enterBattlefield o controller g = .ok u g') : g'.Filed := by
  rw [enterBattlefield_eq_ok henter]
  exact ((h.modify o fun _ hfs => hfs.insert (.entered g.turn.number g.nextTimestamp)).modify o
    fun _ hfs => hfs.insert (.controller controller)).congr rfl (fun _ => rfl) rfl

theorem Filed.leaveBattlefield (h : g.Filed) (o : ObjectId) : (g.leaveBattlefield o).Filed := by
  constructor
  · intro o' ho'
    rw [leaveBattlefield_frame]
    rw [contains_leaveBattlefield] at ho'
    split at ho'
    · cases ho'
    · exact h.issued o' ho'
  · intro o' z hz
    rw [zone?_leaveBattlefield] at hz
    rw [contains_leaveBattlefield]
    split at hz
    · cases hz
    · next hstays =>
      rw [if_neg hstays]
      exact h.present o' z hz
  · intro o'
    by_cases ho : o = o'
    · subst ho
      rw [facets_leaveBattlefield_self]
      split
      · exact Facets.bare_empty.sorted
      · exact (h.eraseFacets o permanentFacets).sorted o
    · rw [facets_leaveBattlefield_of_ne ho]
      exact h.sorted o'

theorem Filed.move {target origin : Zone} {p : Position} {controller : Option Seat} (h : g.Filed)
    (hmove : Game.move o target p controller g = .ok origin g') : g'.Filed := by
  obtain ⟨zones, hzones, hcases⟩ := move_eq_ok hmove
  have horigin : g.zone? o = some origin := Zones.zone?_of_move hzones
  have hmoved : ({ g with zones } : Game).Filed := by
    refine ⟨h.issued, fun o' z hz => ?_, h.sorted⟩
    have hrule : ({ g with zones } : Game).zone? o' = if o = o' then some target else g.zone? o' :=
      Zones.zone?_move hzones o'
    rw [hrule] at hz
    split at hz
    · next ho => exact ho ▸ h.present o origin horigin
    · exact h.present o' z hz
  rcases hcases with ⟨-, -, rfl⟩ | ⟨-, rfl⟩ | ⟨-, -, henter⟩
  · exact hmoved.leaveBattlefield o
  · exact hmoved
  · exact hmoved.enterBattlefield henter

theorem Filed.spawn {card : Card} {owner : Seat} {kind : ZoneKind} {token : Bool} (h : g.Filed)
    (hspawn : Game.spawn card owner kind token g = .ok o g') : g'.Filed := by
  obtain ⟨-, zones, hadd, hcases⟩ := spawn_eq_ok hspawn
  have harrived : (g.arrival card owner token zones).Filed := by
    constructor
    · intro o' ho'
      change o'.val < g.nextObject + 1
      rw [contains_arrival, Bool.or_eq_true, decide_eq_true_eq] at ho'
      rcases ho' with rfl | hold
      · exact Nat.lt_succ_self _
      · exact Nat.lt_succ_of_lt (h.issued o' hold)
    · intro o' z hz
      have hrule : (g.arrival card owner token zones).zone? o' =
          if (⟨g.nextObject⟩ : ObjectId) = o' then some ⟨owner, kind⟩ else g.zone? o' :=
        Zones.zone?_add hadd o'
      rw [hrule] at hz
      rw [contains_arrival, Bool.or_eq_true, decide_eq_true_eq]
      split at hz
      · next ho => exact Or.inl ho
      · exact Or.inr (h.present o' z hz)
    · intro o'
      rw [facets_arrival]
      split
      · exact (bare_newFacets card owner token).sorted
      · exact h.sorted o'
  rcases hcases with ⟨-, rfl⟩ | ⟨-, henter⟩
  · exact harrived
  · exact harrived.enterBattlefield henter

theorem zone?_shuffleLibrary (s : Seat) (o : ObjectId) :
    (g.shuffleLibrary s).zone? o = g.zone? o := by
  rw [zone?, zones_shuffleLibrary]
  rcases Zones.shuffle_cases g.zones (.library s) g.random with hsame | ⟨order, r, -, -, hshuffle⟩
  · rw [hsame, zone?]
  · rw [hshuffle]
    rfl

/-- Every deed keeps objects on file. -/
theorem Deed.filed {es : List Event} (h : Deed g es g') (hfiled : g.Filed) : g'.Filed := by
  cases h with
  | move h => exact hfiled.move h
  | sink hzone h => exact hfiled.congr rfl (sameStanding_sink hzone h).zone? rfl
  | reorder h =>
    obtain ⟨hknows, -, rfl⟩ := Zones.reorder_eq_ok h
    exact hfiled.congr rfl (fun _ => rfl) rfl
  | shuffle s => exact hfiled.congr rfl (zone?_shuffleLibrary s) rfl
  | tap huntapped h => exact hfiled.setFacet h
  | untap o => exact hfiled.eraseFacets o [.tapped]
  | heal o => exact hfiled.eraseFacets o _
  | mark h => exact hfiled.setFacet h
  | addCounters h => exact hfiled.setFacet h
  | @removeCounters g' o c u kind n hbefore h =>
    split at h
    · rw [h]
      exact hfiled.eraseFacets o [.counters]
    · exact hfiled.setFacet h
  | life h =>
    obtain ⟨poison, rfl⟩ := setLife_eq_ok h
    exact hfiled.modify _ fun _ hfs => hfs.insert _
  | create hspawn h => exact (hfiled.spawn hspawn).setFacet h
  | _ => exact hfiled.congr rfl (fun _ => rfl) rfl

theorem board_piece (o : ObjectId) :
    g.board.piece o = .ofFacets (g.contains o) (g.zone? o) (g.facets o) := rfl

theorem board_change_self (o : ObjectId) : g.board.change o (g.piece o) = g.board := by
  unfold Board.change
  rw [board, Function.update_eq_self]

/-- What is to be known once the facets of one object have changed. -/
theorem board_modify {F : Facets → Facets}
    (hself : ({ g with objects := g.objects.modify o F } : Game).facets o = F (g.facets o)) :
    ({ g with objects := g.objects.modify o F } : Game).board =
      g.board.change o (.ofFacets (g.contains o) (g.zone? o) (F (g.facets o))) := by
  have hcontains (o' : ObjectId) :
      ({ g with objects := g.objects.modify o F } : Game).contains o' = g.contains o' :=
    SortedMap.contains_modify _ _ _ _
  refine board_change ?_ (fun o' ho => ?_) rfl
  · rw [piece, hself, hcontains]
    rfl
  · exact piece_congr (hcontains o') rfl (facets_modify_of_ne ho)

theorem board_setFacet {f : Facet} {u : Unit} (h : setFacet o f g = .ok u g') :
    g'.board = g.board.change o (.ofFacets (g.contains o) (g.zone? o) ((g.facets o).insert f)) := by
  obtain ⟨hcontains, rfl⟩ := setFacet_eq_ok h
  exact board_modify (facets_modify_self hcontains)

theorem board_eraseFacet (o : ObjectId) (kind : FacetKind) : (g.eraseFacet o kind).board =
    g.board.change o (.ofFacets (g.contains o) (g.zone? o) ((g.facets o).erase kind)) :=
  board_modify (facets_eraseFacet_self kind)

/-- A question about facets that has the same answer without each of some kinds has the same answer
without all of them. -/
theorem apply_facets_eraseFacets {β : Type} (get : Facets → β) (kinds : List FacetKind)
    (hget : ∀ kind ∈ kinds, ∀ fs : Facets, get (fs.erase kind) = get fs) (o o' : ObjectId) :
    get ((g.eraseFacets o kinds).facets o') = get (g.facets o') := by
  induction kinds generalizing g with
  | nil => rfl
  | cons kind rest ih =>
    have hrest := ih (g := g.eraseFacet o kind) fun kind hkind =>
      hget kind (List.mem_cons_of_mem _ hkind)
    exact hrest.trans (apply_facets_modify get (hget kind List.mem_cons_self) o o')

/-- Nothing is to be known of damage and combat. -/
theorem board_heal (o : ObjectId) :
    (g.eraseFacets o [.damage, .attacking, .blocking, .blocked]).board = g.board := by
  have hsame : SameStanding g (g.eraseFacets o [.damage, .attacking, .blocking, .blocked]) :=
    sameStanding_eraseFacets (by simp [permanentFacets]) o
  refine board_congr (fun o' => ?_) (by rw [eraseFacets_frame])
  have hfacets := apply_facets_eraseFacets (g := g)
    (Piece.ofFacets (g.contains o') (g.zone? o')) [.damage, .attacking, .blocking, .blocked] ?_ o o'
  · rw [piece, hsame.contains, hsame.zone?, hfacets, piece]
  · intro kind hkind fs
    apply Piece.ofFacets_erase <;> rintro rfl <;> simp at hkind

/-- What has lost the facets of a permanent is neither tapped nor under counters. -/
theorem ofFacets_eraseFacets (hsorted : (g.facets o).Sorted) (present : Bool)
    (zone : Option Zone) :
    Piece.ofFacets present zone ((g.eraseFacets o permanentFacets).facets o) =
      { Piece.ofFacets present zone (g.facets o) with
        tapped := false
        counters := fun _ => 0 } := by
  have hbare := bare_eraseFacets hsorted
  have hlife := apply_facets_eraseFacets (g := g) Facets.player? permanentFacets ?_ o o
  · unfold Piece.ofFacets
    rw [hlife, hbare.counters?, hbare.lacks .tapped (by simp [permanentFacets])]
    rfl
  · intro kind hkind fs
    have hne : kind ≠ .player := by
      rintro rfl
      simp [permanentFacets] at hkind
    simp [Facets.player?, Facets.erase, hne]

/-- What leaves the battlefield is gone or has no status left. -/
theorem piece_leaveBattlefield_self (hsorted : (g.facets o).Sorted)
    (hcontains : g.contains o = true) : (g.leaveBattlefield o).piece o =
      if (g.leaveBattlefield o).contains o then
        { g.piece o with tapped := false, counters := fun _ => 0 }
      else .absent := by
  rw [piece, contains_leaveBattlefield, zone?_leaveBattlefield, facets_leaveBattlefield_self]
  by_cases htoken : g.has o .token = true
  · rw [if_pos ⟨htoken, rfl⟩, if_pos ⟨htoken, rfl⟩, if_pos htoken, if_neg Bool.false_ne_true]
    rfl
  · have hstays : ¬(g.has o .token = true ∧ o = o) := fun h => htoken h.1
    rw [if_neg hstays, if_neg hstays, if_neg htoken, ofFacets_eraseFacets hsorted, hcontains,
      if_pos rfl, piece, hcontains]

theorem piece_leaveBattlefield_of_ne {o' : ObjectId} (hne : o ≠ o') :
    (g.leaveBattlefield o).piece o' = g.piece o' := by
  have hstays : ¬(g.has o .token = true ∧ o = o') := fun h => hne h.2
  apply piece_congr
  · rw [contains_leaveBattlefield, if_neg hstays]
  · rw [zone?_leaveBattlefield, if_neg hstays]
  · exact facets_leaveBattlefield_of_ne hne

/-- Nobody needs to be told when a permanent entered, and under whose control. -/
theorem piece_enterBattlefield {controller : Seat} {u : Unit} (hcontains : g.contains o = true)
    (h : enterBattlefield o controller g = .ok u g') (o' : ObjectId) :
    g'.piece o' = g.piece o' := by
  have hsame := sameStanding_enterBattlefield h
  by_cases ho : o = o'
  · subst ho
    rw [piece, hsame.contains, hsame.zone?, facets_enterBattlefield_self hcontains h,
      Piece.ofFacets_insert, Piece.ofFacets_insert, piece] <;> simp [Facet.kind]
  · exact piece_congr (hsame.contains o') (hsame.zone? o') (facets_enterBattlefield_of_ne h ho)

section

variable {target origin : Zone} {p : Position} {controller : Option Seat} {zones : Zones}

theorem piece_relocate (h : Zones.move o target p g.zones = .ok origin zones) (o' : ObjectId) :
    ({ g with zones } : Game).piece o' =
      if o = o' then { g.piece o with zone := some target } else g.piece o' := by
  have hzone : ({ g with zones } : Game).zone? o' = if o = o' then some target else g.zone? o' :=
    Zones.zone?_move h o'
  rw [piece, hzone]
  split
  · next ho =>
    subst ho
    rfl
  · rfl

theorem piece_move_of_ne {o' : ObjectId} (hfiled : g.Filed)
    (h : Game.move o target p controller g = .ok origin g') (hne : o ≠ o') :
    g'.piece o' = g.piece o' := by
  obtain ⟨zones, hzones, hcases⟩ := move_eq_ok h
  have hmoved : ({ g with zones } : Game).piece o' = g.piece o' := by
    rw [piece_relocate hzones, if_neg hne]
  rw [← hmoved]
  rcases hcases with ⟨-, -, rfl⟩ | ⟨-, rfl⟩ | ⟨-, -, henter⟩
  · exact piece_leaveBattlefield_of_ne hne
  · rfl
  · have hcontains : g.contains o = true := hfiled.present o origin (Zones.zone?_of_move hzones)
    exact piece_enterBattlefield (g := { g with zones }) hcontains henter o'

/-- After a move an object is known to be where it was moved, unless it was a token that exists no
longer. -/
theorem piece_move_self (hfiled : g.Filed)
    (h : Game.move o target p controller g = .ok origin g') :
    g'.piece o = if g'.contains o then (g.piece o).moved origin target else .absent := by
  obtain ⟨zones, hzones, hcases⟩ := move_eq_ok h
  have hcontains : g.contains o = true := hfiled.present o origin (Zones.zone?_of_move hzones)
  have hmoved : ({ g with zones } : Game).piece o = { g.piece o with zone := some target } := by
    rw [piece_relocate hzones, if_pos rfl]
  rcases hcases with ⟨hfrom, hto, rfl⟩ | ⟨hiff, rfl⟩ | ⟨hfrom, hto, henter⟩
  · have hleaves : (g.piece o).moved origin target =
        { g.piece o with zone := some target, tapped := false, counters := fun _ => 0 } :=
      if_pos ⟨hfrom, hto⟩
    rw [piece_leaveBattlefield_self (g := { g with zones }) (hfiled.sorted o) hcontains, hmoved,
      hleaves]
  · have hkept : ({ g with zones } : Game).contains o = true := hcontains
    rw [hmoved, hkept, if_pos rfl, Piece.moved, if_neg fun h => h.2 (hiff.mp h.1)]
  · have hkept : g'.contains o = true :=
      ((sameStanding_enterBattlefield henter).contains o).trans hcontains
    rw [piece_enterBattlefield (g := { g with zones }) hcontains henter, hmoved, hkept, if_pos rfl,
      Piece.moved, if_neg fun h => hfrom h.1]

/-- A move is known from its events. -/
theorem replay_move (hfiled : g.Filed)
    (h : Game.move o target p controller g = .ok origin g') :
    g.board.replay (.zoneChanged o origin target ::
      if g'.contains o then [] else [.tokenCeased o]) = some g'.board := by
  have hboard := board_change (piece_move_self hfiled h)
    (fun o' hne => piece_move_of_ne hfiled h hne) (sameControl_move h).pending
  obtain ⟨zones, hzones, -⟩ := move_eq_ok h
  have horigin : g.zone? o = some origin := Zones.zone?_of_move hzones
  have hpresent : g.contains o = true := hfiled.present o origin horigin
  have hfirst : g.board.after (.zoneChanged o origin target) =
      some (g.board.change o ((g.piece o).moved origin target)) := if_pos horigin
  rw [Board.replay_cons, hfirst, Option.bind_some]
  cases hcontains : g'.contains o with
  | true =>
    rw [hcontains, if_pos rfl] at hboard
    rw [hboard]
    rfl
  | false =>
    rw [hcontains, if_neg Bool.false_ne_true] at hboard
    rw [hboard, if_neg Bool.false_ne_true, Board.replay_singleton]
    have hcease (b : Board) (hb : (b.piece o).present = true) :
        b.after (.tokenCeased o) = some (b.change o .absent) := if_pos hb
    rw [hcease, Board.change_change]
    rw [Board.piece_change, Piece.present_moved]
    exact hpresent

end

/-- Untapping is known from its event, which is told only of what was tapped. -/
theorem replay_untap (hfiled : g.Filed) (o : ObjectId) :
    g.board.replay (if ((g.facets o).get? .tapped).isSome then [.untapped o] else []) =
      some (g.eraseFacet o .tapped).board := by
  rw [(hfiled.sorted o).isSome_get?, board_eraseFacet, Piece.ofFacets_untap]
  have htapped : (g.board.piece o).tapped = (g.facets o).has .tapped := rfl
  cases hhas : (g.facets o).has .tapped with
  | true =>
    rw [if_pos rfl, Board.replay_singleton]
    exact if_pos (htapped.trans hhas)
  | false =>
    have hsame : { g.piece o with tapped := false } = g.piece o := by
      rw [← hhas]
      rfl
    rw [if_neg Bool.false_ne_true]
    change some g.board = some (g.board.change o { g.piece o with tapped := false })
    rw [hsame, board_change_self]

/-- Removing counters is known from its event, if there is one. -/
theorem replay_removeCounters {c : Counters} {u : Unit} (kind : CounterKind) (n : Nat)
    (hbefore : (g.facets o).counters? = some c)
    (h : if (c.take kind n).2.isEmpty then g' = g.eraseFacet o .counters
      else setFacet o (.counters (c.take kind n).2) g = .ok u g') :
    g.board.replay (if 0 < (c.take kind n).1 then [.countersRemoved o kind (c.take kind n).1]
      else []) = some g'.board := by
  have hcounters : (g.board.piece o).counters = c.count := by
    rw [board_piece, Piece.ofFacets, hbefore]
    rfl
  have hboard : g'.board = g.board.change o { g.board.piece o with
      counters := Function.update c.count kind (c.count kind - (c.take kind n).1) } := by
    rw [← Counters.count_take]
    split at h
    · next hnone =>
      rw [h, board_eraseFacet, Piece.ofFacets_noCounters, Counters.count_of_isEmpty hnone]
      rfl
    · rw [board_setFacet h, Piece.ofFacets_counters]
      rfl
  have htaken : (c.take kind n).1 ≤ (g.board.piece o).counters kind := by
    rw [hcounters]
    exact Nat.min_le_left _ _
  split
  · rw [Board.replay_singleton, hboard, ← hcounters]
    exact if_pos htaken
  · next hzero =>
    rw [Nat.eq_zero_of_not_pos hzero, Nat.sub_zero, Function.update_eq_self, ← hcounters] at hboard
    have hsame : g.board.change o (g.board.piece o) = g.board := board_change_self o
    rw [hboard, hsame]
    rfl

theorem life_eq {s : Seat} {life : Int} {poison : Nat}
    (h : (g.facets (.ofSeat s)).player? = some (life, poison)) :
    g.life s = life ∧ (g.board.piece (.ofSeat s)).life = some life := by
  constructor
  · rw [Game.life, h]
    rfl
  · rw [board_piece, Piece.ofFacets, h]
    rfl

/-- A change of a life total is known from its event. -/
theorem replay_life {s : Seat} {after : Int} {u : Unit} (h : setLife s after g = .ok u g') :
    g.board.replay [.lifeChanged s (g.life s) after] = some g'.board := by
  unfold setLife at h
  split at h
  · next life poison hplayer =>
    obtain ⟨hlife, hknown⟩ := life_eq hplayer
    rw [Board.replay_singleton, board_setFacet h, Piece.ofFacets_life, hlife]
    exact if_pos hknown
  · cases h

/-- A new token is known from its event. -/
theorem replay_create {card : Card} {s : Seat} {u : Unit} (hfiled : g.Filed)
    (hspawn : Game.spawn card s .battlefield true g = .ok o g')
    (h : setFacet o (.controller s) g' = .ok u g'') :
    g.board.replay [.tokenCreated o s] = some g''.board := by
  obtain ⟨rfl, zones, hadd, ⟨hnot, -⟩ | ⟨-, henter⟩⟩ := spawn_eq_ok hspawn
  · exact absurd rfl hnot
  have hfresh : g.contains ⟨g.nextObject⟩ = false := by
    rw [Bool.eq_false_iff]
    intro hcontains
    exact Nat.lt_irrefl _ (hfiled.issued _ hcontains)
  have hzone (o' : ObjectId) : (g.arrival card s true zones).zone? o' =
      if (⟨g.nextObject⟩ : ObjectId) = o' then some ⟨s, .battlefield⟩ else g.zone? o' :=
    Zones.zone?_add hadd o'
  have hcontains : (g.arrival card s true zones).contains ⟨g.nextObject⟩ = true := by
    simp [contains_arrival]
  have hself : (g.arrival card s true zones).piece ⟨g.nextObject⟩ = .newToken s := by
    rw [piece, hcontains, hzone, if_pos rfl, facets_arrival, if_pos rfl]
    rfl
  have hothers (o' : ObjectId) (hne : (⟨g.nextObject⟩ : ObjectId) ≠ o') :
      (g.arrival card s true zones).piece o' = g.piece o' := by
    apply piece_congr
    · rw [contains_arrival, decide_eq_false hne, Bool.false_or]
    · rw [hzone, if_neg hne]
    · rw [facets_arrival, if_neg hne]
  have hentered := piece_enterBattlefield hcontains henter
  have hboard : g'.board = g.board.change ⟨g.nextObject⟩ (.newToken s) := by
    refine board_change ((hentered _).trans hself)
      (fun o' hne => (hentered o').trans (hothers o' hne)) ?_
    rw [enterBattlefield_eq_ok henter]
    rfl
  have hcontrolled : g''.board = g'.board := by
    rw [board_setFacet h, Piece.ofFacets_insert]
    · exact board_change_self _
    all_goals simp [Facet.kind]
  rw [Board.replay_singleton, hcontrolled, hboard]
  exact if_neg (Bool.eq_false_iff.mp hfresh)

/-- What every deed does to the board is known from the events told of it. -/
theorem Deed.replay {es : List Event} (h : Deed g es g') (hfiled : g.Filed) :
    g.board.replay es = some g'.board := by
  cases h with
  | announce h => rw [Board.replay_singleton, Board.after_notice h]
  | move h => exact replay_move hfiled h
  | @sink o s origin zones hzone h =>
    have hpiece (o' : ObjectId) : ({ g with zones } : Game).piece o' = g.piece o' :=
      piece_congr rfl ((sameStanding_sink hzone h).zone? o') rfl
    exact congrArg some (board_congr hpiece rfl).symm
  | reorder h =>
    obtain ⟨hknows, -, rfl⟩ := Zones.reorder_eq_ok h
    rfl
  | shuffle s =>
    have hpiece (o : ObjectId) : (g.shuffleLibrary s).piece o = g.piece o :=
      piece_congr rfl (zone?_shuffleLibrary s o) rfl
    exact congrArg some (board_congr hpiece rfl).symm
  | tap huntapped h =>
    rw [Board.replay_singleton, board_setFacet h, Piece.ofFacets_tap]
    exact if_neg (Bool.eq_false_iff.mp huntapped)
  | untap o => exact replay_untap hfiled o
  | heal o => rw [board_heal]; rfl
  | mark h =>
    rw [board_setFacet h, Piece.ofFacets_insert]
    · exact congrArg some (board_change_self _).symm
    all_goals simp [Facet.kind]
  | addCounters h =>
    rw [Board.replay_singleton, board_setFacet h, Piece.ofFacets_counters, Counters.count_add]
    rfl
  | removeCounters kind n hbefore h => exact replay_removeCounters kind n hbefore h
  | life h => exact replay_life h
  | expire keep =>
    refine Board.replay_of_forall fun e he => ?_
    obtain ⟨f, -, rfl⟩ := List.mem_map.mp he
    rfl
  | create hspawn h => exact replay_create hfiled hspawn h
  | answer h =>
    rw [Board.replay_singleton]
    exact if_pos (congrArg (Option.map (·.id)) h)
  | _ => rfl

/-- What a course of deeds does to the board is known from the events told of it. -/
theorem Deeds.replay {es : List Event} (h : Deeds g es g') (hfiled : g.Filed) :
    g.board.replay es = some g'.board :=
  h.replays (fun hdeed hfiled => ⟨hdeed.replay hfiled, hdeed.filed hfiled⟩) hfiled

theorem Reachable.filed (h : g.Reachable) : g.Filed where
  issued _ := h.sound.housed.fresh
  present _ _ := h.sound.housed.contains_of_zone?
  sorted o := (kept_fits.reachable fits_start h o).sorted

/-- Whatever is executed and whatever is answered, the events are an audit trail: each fits what was
known before it, and together they lead from what was known before to what is to be known
afterwards. -/
theorem Reachable.replayed (h : g.Reachable) (rules : Rules) :
    (∀ e ctx, g.board.replay (rules.execute g e ctx).events =
      some (rules.execute g e ctx).game.board) ∧
    ∀ r, g.board.replay (rules.resume g r).events = some (rules.resume g r).game.board :=
  ⟨fun e ctx => (rules.deeds_execute g e ctx).replay h.filed,
    fun r => (rules.deeds_resume h r).replay h.filed⟩

/-- A creature that is tapped and gets counters is known to have neither in the graveyard, and its
owner is known to have lost a life and to be asked the first decision. -/
theorem replayed_of_destroyed : ∃ g₀ g r, start {} = .ok g₀ ∧
    g = (Move.spawn (.creature ⟨7⟩ "Bear" 2 2) ⟨0⟩ .battlefield).apply g₀ ∧
    r = Rules.execute {} g (.composite [.permanent (.tap (.target 0)),
      .permanent (.addCounters (.target 0) .charge (.fixed 2)),
      .damage (.loseLife .you (.fixed 1)), .destroyTarget, .may "Gain?" (.gainLife 1)])
      { targets := [⟨2⟩] } ∧
    r.events = [.tapped ⟨2⟩, .countersAdded ⟨2⟩ .charge 2, .lifeChanged ⟨0⟩ 20 19, .destroyed ⟨2⟩,
      .zoneChanged ⟨2⟩ (.battlefield ⟨0⟩) ⟨⟨0⟩, .graveyard⟩, .decisionRequested ⟨1⟩ ⟨0⟩] ∧
    g.board.replay r.events = some r.game.board := by
  have hreachable {g₀ : Game} (hstart : Game.start {} = .ok g₀) (m : Move)
      (hseated : m.Seated g₀) : (m.apply g₀).Reachable := .move m (.start hstart) hseated
  refine ⟨_, _, _, rfl, rfl, rfl, by decide +kernel, ?_⟩
  exact (Reachable.replayed (hreachable rfl
    (.spawn (.creature ⟨7⟩ "Bear" 2 2) ⟨0⟩ .battlefield) Nat.zero_lt_two) {}).1 _ _

end Game

end CardGame
