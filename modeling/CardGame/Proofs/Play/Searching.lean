import CardGame.Proofs.Play.Waiting
import CardGame.Proofs.Projection.Elsewhere
import CardGame.Proofs.Target.Legal

/-!
Searching a library. A search goes by what is printed on the cards, while the legal targets of a
requirement go by the projection. In a library the two differ in the size of a card at most, so a
search and a target requirement with the same filter find the same cards, except where a card
defines its own size and the filter asks for it (`Game.Reachable.searched`).
-/

namespace CardGame

open Resolve

/-- Whether a fact is about power or toughness. -/
def CardFact.asksSize : CardFact → Bool
  | .power _ | .toughness _ => true
  | _ => false

namespace CardTest

mutual

/-- Whether a test asks for power or toughness somewhere. -/
def asksSize : CardTest → Bool
  | .fact f => f.asksSize
  | .all tests => asksSizeAny tests
  | .any tests => asksSizeAny tests
  | .not test => asksSize test

def asksSizeAny : List CardTest → Bool
  | [] => false
  | t :: ts => asksSize t || asksSizeAny ts

end

end CardTest

/-- Whether a filter asks for power or toughness. -/
def ObjectFilter.asksSize (f : ObjectFilter) : Bool := f.card.any CardTest.asksSize

namespace Characteristics.SameButSize

variable {c d : Characteristics} {v v' : View} {ctx : FilterContext} {o : ObjectId}

theorem factHolds (h : c.SameButSize d) (hgame : v.game = v'.game) (f : CardFact)
    (hsize : f.asksSize = true → c = d) : v.factHolds c o f = v'.factHolds d o f := by
  cases f with
  | power | toughness => rw [hsize rfl]; rfl
  | isToken | isNontoken => simp only [View.factHolds, hgame]
  | _ => rw [h]; rfl

mutual

/-- A test that does not ask for a size does not tell apart what has only another size. -/
theorem cardPasses (h : c.SameButSize d) (hgame : v.game = v'.game) (t : CardTest)
    (hsize : t.asksSize = true → c = d) : v.cardPasses c o t = v'.cardPasses d o t := by
  cases t with
  | fact f => exact h.factHolds hgame f hsize
  | all tests => exact h.cardPassesAll hgame tests hsize
  | any tests => exact h.cardPassesAny hgame tests hsize
  | not test => exact congrArg not (h.cardPasses hgame test hsize)

theorem cardPassesAll (h : c.SameButSize d) (hgame : v.game = v'.game) (ts : List CardTest)
    (hsize : CardTest.asksSizeAny ts = true → c = d) :
    v.cardPassesAll c o ts = v'.cardPassesAll d o ts := by
  cases ts with
  | nil => rfl
  | cons t ts =>
    have ht : t.asksSize = true → c = d := fun hasks => hsize (Bool.or_eq_true_iff.mpr (.inl hasks))
    have hts : CardTest.asksSizeAny ts = true → c = d := fun hasks =>
      hsize (Bool.or_eq_true_iff.mpr (.inr hasks))
    exact congrArg₂ and (h.cardPasses hgame t ht) (h.cardPassesAll hgame ts hts)

theorem cardPassesAny (h : c.SameButSize d) (hgame : v.game = v'.game) (ts : List CardTest)
    (hsize : CardTest.asksSizeAny ts = true → c = d) :
    v.cardPassesAny c o ts = v'.cardPassesAny d o ts := by
  cases ts with
  | nil => rfl
  | cons t ts =>
    have ht : t.asksSize = true → c = d := fun hasks => hsize (Bool.or_eq_true_iff.mpr (.inl hasks))
    have hts : CardTest.asksSizeAny ts = true → c = d := fun hasks =>
      hsize (Bool.or_eq_true_iff.mpr (.inr hasks))
    exact congrArg₂ or (h.cardPasses hgame t ht) (h.cardPassesAny hgame ts hts)

end

theorem controlPasses (h : c.SameButSize d) (hgame : v.game = v'.game) (t : ControlTest) :
    v.controlPasses c ctx t = v'.controlPasses d ctx t := by
  rw [h]
  cases t <;> simp only [View.controlPasses, View.targetPlayer?, hgame]

end Characteristics.SameButSize

namespace View

variable {v v' : View} {f : ObjectFilter} {ctx : FilterContext} {o : ObjectId}

theorem statusPasses_congr (hgame : v.game = v'.game) (hrecord : v.unrecorded = v'.unrecorded)
    (t : StatusTest) : v.statusPasses o t = v'.statusPasses o t := by
  cases t <;> simp only [statusPasses, hgame, hrecord]

/-- Two views of a game that show an object the same but for its size agree about it under a filter
that does not ask for a size, and under every filter if they show the same size. -/
theorem accepts_congr (hgame : v.game = v'.game) (hrecord : v.unrecorded = v'.unrecorded)
    (hshown : Option.Rel Characteristics.SameButSize (v.characteristics? o) (v'.characteristics? o))
    (hsize : f.asksSize = true → v.characteristics? o = v'.characteristics? o) :
    v.accepts f ctx o = v'.accepts f ctx o := by
  unfold accepts
  generalize v.characteristics? o = shown at hshown hsize
  generalize v'.characteristics? o = shown' at hshown hsize
  cases hshown with
  | none => rfl
  | @some c d h =>
    have hcard : f.card.all (v.cardPasses c o) = f.card.all (v'.cardPasses d o) := by
      rw [Bool.eq_iff_iff, List.all_eq_true, List.all_eq_true]
      refine forall₂_congr fun t ht => ?_
      rw [h.cardPasses hgame t fun hasks =>
        Option.some.inj (hsize (List.any_eq_true.mpr ⟨t, ht, hasks⟩))]
    have hstatus : v.statusPasses o = v'.statusPasses o :=
      funext (statusPasses_congr hgame hrecord)
    have hcontrol : v.controlPasses c ctx = v'.controlPasses d ctx :=
      funext (h.controlPasses hgame)
    simp only [hcard, hstatus, hcontrol]

end View

/-- What a result offers to the player who is asked; nothing if nobody is. -/
def Result.offered : Result → List ObjectId
  | .paused _ d _ => d.question.objects
  | _ => []

/-- The cards of a player's library that a filter accepts as they are printed. -/
def Game.found (g : Game) (f : ObjectFilter) (ctx : Context) : List ObjectId :=
  View.select { game := g } f ctx.forFilter (g.library ctx.controller)

variable {rules : Rules} {g : Game} {f : ObjectFilter} {ctx : Context} {count : Nat}
  {destination : ZoneKind} {tapped : Bool} {o : ObjectId}

/-- The question which of the cards found are taken. -/
def LibraryEffect.searchRequest (ctx : Context) (found : List ObjectId) (count : Nat)
    (destination : ZoneKind) (tapped : Bool) : Request :=
  let most := min found.length count
  { player := ctx.controller
    prompt := s!"Search your library for up to {most} card(s)"
    question := .cards found 0 most false
    source := ctx.source
    work := .search ctx.controller destination tapped }

/-- A search that finds nothing, or that may take nothing, shuffles; else it asks. -/
theorem LibraryEffect.askSearch_apply {p : Progress} :
    askSearch ctx f count destination tapped p =
      if (p.game.found f ctx).isEmpty || count = 0 then
        .ok (.done, ⟨p.game.shuffleLibrary ctx.controller,
          p.events ++ [.libraryShuffled ctx.controller]⟩)
      else ask (some (searchRequest ctx (p.game.found f ctx) count destination tapped)) p := by
  unfold askSearch
  rw [game_bind]
  change (if (p.game.found f ctx).isEmpty || count = 0 then _ else _ : Resolve Outcome) p = _
  split <;> rfl

/-- A search that finds nothing shuffles; else it asks. -/
theorem LibraryEffect.resolve_search (hcount : 0 < count) {p : Progress} :
    (LibraryEffect.search f count destination tapped).resolve rules ctx p =
      if p.game.found f ctx = [] then
        .ok (.done, ⟨p.game.shuffleLibrary ctx.controller,
          p.events ++ [.libraryShuffled ctx.controller]⟩)
      else ask (some (searchRequest ctx (p.game.found f ctx) count destination tapped)) p := by
  have hsome : count ≠ 0 := Nat.pos_iff_ne_zero.mp hcount
  rw [LibraryEffect.resolve, askSearch_apply]
  simp [hsome]

/-- A search offers the cards that it finds, and does not fail. -/
theorem Rules.execute_search (hidle : g.pending = none) (hcount : 0 < count) :
    let searched := rules.execute g (.library (.search f count destination tapped)) ctx
    searched.isFailed = false ∧ searched.offered = g.found f ctx := by
  have hresolve : (Effect.library (.search f count destination tapped)).resolve rules ctx
      { game := g } = _ := LibraryEffect.resolve_search hcount
  by_cases hfound : g.found f ctx = []
  · rw [if_pos hfound] at hresolve
    rw [execute_of_done hidle hresolve]
    exact ⟨rfl, hfound.symm⟩
  · rw [if_neg hfound] at hresolve
    rw [execute_of_asks_sweep hidle hresolve]
    exact ⟨rfl, rfl⟩

/-- Off the battlefield, a filter accepts an object as it is printed and as it is projected, unless
the object's card defines its own size and the filter asks for it. -/
theorem Game.Reachable.accepts_elsewhere (h : g.Reachable) (rules : Rules)
    (haway : g.onBattlefield o = false) {ctx : FilterContext}
    (hlike : ¬ (f.asksSize = true ∧ g.DefinesSize rules o)) :
    View.accepts { game := g } f ctx o = (rules.view g).accepts f ctx o := by
  obtain ⟨hrel, hsame⟩ := h.project_elsewhere rules haway
  have hprojected : (rules.view g).characteristics? o = SortedMap.find? (rules.project g) o := by
    change (SortedMap.find? (rules.project g) o).or (Characteristics.base? g o) = _
    revert hrel
    generalize SortedMap.find? (rules.project g) o = projected
    generalize Characteristics.base? g o = printed
    rintro (_ | _) <;> rfl
  refine View.accepts_congr rfl rfl ?_ fun hasks => ?_
  · rw [hprojected]
    exact hrel
  · rw [hprojected, hsame fun hdefines => hlike ⟨hasks, hdefines⟩]
    rfl

/-- A search offers the cards of the library that the filter accepts as they are printed. They are
the legal targets of a card in a library with the same filter, except perhaps where the card
defines its own size and the filter asks for it. -/
theorem Game.Reachable.searched (h : g.Reachable) (hidle : g.pending = none) (hcount : 0 < count)
    (rules : Rules) (f : ObjectFilter) (destination : ZoneKind) (tapped : Bool) (ctx : Context) :
    let searched := rules.execute g (.library (.search f count destination tapped)) ctx
    searched.isFailed = false ∧
    searched.offered = (g.library ctx.controller).filter
      (View.accepts { game := g } f ctx.forFilter) ∧
    ∀ o ∈ g.library ctx.controller, ¬ (f.asksSize = true ∧ g.DefinesSize rules o) →
      (o ∈ searched.offered ↔ o ∈ rules.legalTargets g ctx (.cardInZone .library f)) := by
  obtain ⟨hfine, hoffered⟩ := rules.execute_search hidle hcount
  refine ⟨hfine, hoffered, fun o hmem hlike => ?_⟩
  have hzone : g.zone? o = some (.library ctx.controller) :=
    h.sound.housed.consistent.located hmem
  have haway : g.onBattlefield o = false := by
    rw [Game.onBattlefield, Zones.isIn]
    change (g.zone? o).any _ = false
    rw [hzone]
    rfl
  rw [hoffered, Rules.legalTargets, View.mem_legalTargets_iff,
    View.mem_candidates_cardInZone_iff (v := rules.view g) h.furnished, Game.found, View.select,
    List.mem_filter, h.accepts_elsewhere rules haway hlike]
  exact and_congr_left fun _ => ⟨fun _ => ⟨_, hzone⟩, fun _ => hmem⟩

namespace Game

/-- A search for creatures with power 2 or more offers a bear in the library, which is a legal
target just so. -/
theorem searched_of_bear : ∃ g₀, start {} = .ok g₀ ∧
    let g := (Move.spawn (.creature ⟨7⟩ "Bear" 2 2) ⟨0⟩ .library).apply g₀
    let strong := ObjectFilter.creature.withFact (.power (.atLeast 2))
    let searched := Rules.execute {} g (.library (.search strong 1 .hand false)) {}
    g.pending = none ∧ ⟨2⟩ ∈ g.library ⟨0⟩ ∧ searched.isFailed = false ∧ ⟨2⟩ ∈ searched.offered ∧
    ⟨2⟩ ∈ Rules.legalTargets {} g {} (.cardInZone .library strong) := by
  have hreachable := Reachable.move (.spawn (.creature ⟨7⟩ "Bear" 2 2) ⟨0⟩ .library)
    (.start (s := {}) rfl) Nat.zero_lt_two
  obtain ⟨hfine, -, hagree⟩ := hreachable.searched (by decide +kernel) Nat.one_pos {}
    (ObjectFilter.creature.withFact (.power (.atLeast 2))) .hand false {}
  have hoffered := hagree ⟨2⟩ (by decide +kernel) (by
    rintro ⟨-, -, c, hcard, a, ha, -⟩
    cases hcard
    cases ha)
  have hlegal := hoffered.mp (by decide +kernel)
  exact ⟨_, rfl, by decide +kernel, by decide +kernel, hfine, hoffered.mpr hlegal, hlegal⟩

/-- A search and a target requirement with the same filter may find different cards of a library: a
giant that defines its size is large as a target, but small as it is printed. -/
theorem not_searched_as_targeted : ¬ ∀ (g : Game) (rules : Rules) (f : ObjectFilter) (count : Nat)
    (destination : ZoneKind) (tapped : Bool) (ctx : Context) (o : ObjectId), g.Reachable →
    g.pending = none → 0 < count →
    (o ∈ (rules.execute g (.library (.search f count destination tapped)) ctx).offered ↔
      o ∈ g.library ctx.controller ∧ o ∈ rules.legalTargets g ctx (.cardInZone .library f)) := by
  intro h
  have hreachable := Reachable.move (.spawn ((CardDefinition.creature ⟨8⟩ "Giant" 0 0).withAbility
    (.definePowerToughness (.fixed 5) (.fixed 5))) ⟨0⟩ .library) (.start (s := {}) rfl)
    Nat.zero_lt_two
  have hsame := h _ {} (ObjectFilter.anything.withFact (.power (.atLeast 3))) 1 .hand false {} ⟨2⟩
    hreachable (by decide +kernel) Nat.one_pos
  revert hsame
  decide +kernel

end Game

end CardGame
