import CardGame.Projection.Layers
import CardGame.Proofs.Collection
import CardGame.Proofs.Projection.Readings

/-!
What views look at. A view reads of its game the seats, the zones, the turn, the facets of objects
other than their cards, and the characteristics that the cards give apart from continuous effects.
Games that are alike in these (`Game.Alike`) answer alike: filters, amounts and conditions, and each
change of the layer system.
-/

namespace CardGame

/-- Games that look alike. What a card says besides the characteristics that it gives may differ. -/
structure Game.Alike (g h : Game) : Prop where
  seats : g.seats = h.seats
  zones : g.zones = h.zones
  turn : g.turn = h.turn
  facet : ∀ o kind, kind ≠ .card → (g.facets o).byKind.find? kind = (h.facets o).byKind.find? kind
  base? : ∀ o, Characteristics.base? g o = Characteristics.base? h o

namespace Game.Alike

variable {g h : Game}

theorem has (halike : g.Alike h) (o : ObjectId) (kind : FacetKind) (hkind : kind ≠ .card) :
    g.has o kind = h.has o kind := by
  unfold Game.has Facets.has SortedMap.contains
  rw [halike.facet o kind hkind]

theorem entered? (halike : g.Alike h) (o : ObjectId) :
    (g.facets o).entered? = (h.facets o).entered? := by
  unfold Facets.entered?
  rw [halike.facet o .entered (by decide)]

theorem counters? (halike : g.Alike h) (o : ObjectId) :
    (g.facets o).counters? = (h.facets o).counters? := by
  unfold Facets.counters?
  rw [halike.facet o .counters (by decide)]

theorem seat? (halike : g.Alike h) : g.seat? = h.seat? := by
  funext o
  rw [Game.seat?, Game.seat?, halike.seats]

theorem owner? (halike : g.Alike h) : g.owner? = h.owner? := by
  funext o
  unfold Game.owner? Facets.owner?
  rw [halike.seat?, halike.facet o .owner (by decide)]

theorem life (halike : g.Alike h) (s : Seat) : g.life s = h.life s := by
  unfold Game.life Facets.player?
  rw [halike.facet _ .player (by decide)]

theorem turnOrder (halike : g.Alike h) : g.turnOrder = h.turnOrder := by
  rw [Game.turnOrder, Game.turnOrder, halike.turn, halike.seats]

theorem zone (halike : g.Alike h) : g.zone = h.zone := by
  funext s kind
  rw [Game.zone, Game.zone, halike.zones]

theorem hand (halike : g.Alike h) : g.hand = h.hand := by
  funext s
  rw [Game.hand, Game.hand, halike.zone]

theorem battlefield (halike : g.Alike h) : g.battlefield = h.battlefield := by
  rw [Game.battlefield, Game.battlefield, halike.zones]

theorem onBattlefield (halike : g.Alike h) : g.onBattlefield = h.onBattlefield := by
  funext o
  rw [Game.onBattlefield, Game.onBattlefield, halike.zones]

/-- The same floating effects work. -/
theorem isActive (halike : g.Alike h) : g.isActive = h.isActive := by
  funext e
  have hhost (o : ObjectId) : (g.facets o).host? = (h.facets o).host? := by
    unfold Facets.host?
    rw [halike.facet o .attached (by decide)]
  unfold Game.isActive
  simp only [halike.onBattlefield, hhost]

end Game.Alike

/-- Views that look alike, with the same projection. -/
structure View.Alike (v w : View) : Prop where
  game : v.game.Alike w.game
  projection : v.projection = w.projection
  unrecorded : v.unrecorded = w.unrecorded

namespace View.Alike

variable {v w : View}

theorem characteristics? (h : v.Alike w) : v.characteristics? = w.characteristics? := by
  funext o
  rw [View.characteristics?, View.characteristics?, h.projection, h.game.base?]

theorem factHolds (h : v.Alike w) : v.factHolds = w.factHolds := by
  funext c o f
  cases f <;> simp only [View.factHolds, h.game.has o .token (by decide)]

theorem statusPasses (h : v.Alike w) : v.statusPasses = w.statusPasses := by
  funext o t
  have hhas := h.game.has o
  cases t <;>
    simp only [View.statusPasses, hhas .tapped (by decide),
      hhas .attacking (by decide), hhas .blocking (by decide),
      hhas .blocked (by decide), hhas .attached (by decide),
      hhas .faceDown (by decide), h.game.onBattlefield, h.game.entered?,
      h.game.counters?, h.game.turn, h.unrecorded]

theorem targetPlayer? (h : v.Alike w) : v.targetPlayer? = w.targetPlayer? := by
  funext targets index
  rw [View.targetPlayer?, View.targetPlayer?, h.game.seat?]

theorem controlPasses (h : v.Alike w) : v.controlPasses = w.controlPasses := by
  funext c ctx t
  cases t <;> simp only [View.controlPasses, h.targetPlayer?, h.game.turn]

theorem cardPasses (h : v.Alike w) : v.cardPasses = w.cardPasses := by
  funext c o t
  exact View.cardPasses_congr (by rw [h.factHolds]) t

theorem accepts (h : v.Alike w) : v.accepts = w.accepts := by
  funext f ctx o
  simp only [View.accepts, h.characteristics?, h.cardPasses, h.statusPasses, h.controlPasses]

theorem select (h : v.Alike w) : v.select = w.select := by
  funext f ctx os
  simp only [View.select, h.accepts]

theorem permanents (h : v.Alike w) : v.permanents = w.permanents := by
  funext f ctx
  simp only [View.permanents, h.select, h.game.battlefield]

theorem controller? (h : v.Alike w) : v.controller? = w.controller? := by
  funext o
  simp only [View.controller?, h.game.seat?, h.game.onBattlefield, h.game.owner?,
    h.characteristics?]

theorem players (h : v.Alike w) : v.players = w.players := by
  funext ctx sel
  cases sel <;>
    simp only [View.players, h.game.seats, h.game.turnOrder, h.game.turn, h.game.owner?,
      h.targetPlayer?, h.controller?]

theorem objectsOf (h : v.Alike w) : v.objectsOf = w.objectsOf := by
  funext s kind
  cases kind <;> simp only [View.objectsOf, h.game.battlefield, h.game.zone, h.controller?]

theorem countMatching (h : v.Alike w) : v.countMatching = w.countMatching := by
  funext ctx players zone f
  simp only [View.countMatching, h.select, h.objectsOf]

theorem measure (h : v.Alike w) : v.measure = w.measure := by
  funext ctx m
  cases m <;>
    simp only [View.measure, h.players, h.game.life, h.game.hand, h.characteristics?,
      h.game.counters?, h.countMatching, h.unrecorded]

theorem gameFactHolds (h : v.Alike w) : v.gameFactHolds = w.gameFactHolds := by
  funext ctx f
  cases f <;>
    simp only [View.gameFactHolds, h.players, h.game.life, h.countMatching, h.game.onBattlefield,
      h.game.seat?]

theorem agreesOn (h : v.Alike w) (ctx : Context) (r : Reading) : v.AgreesOn w ctx r := by
  cases r with
  | measure m => exact congrFun₂ h.measure ctx m
  | fact f => exact congrFun₂ h.gameFactHolds ctx f

theorem evaluate (h : v.Alike w) : v.evaluate = w.evaluate := by
  funext ctx a
  exact View.evaluate_congr a fun r _ => h.agreesOn ctx r

theorem holds (h : v.Alike w) : v.holds = w.holds := by
  funext ctx c
  exact View.holds_congr c fun r _ => h.agreesOn ctx r

end View.Alike

namespace Game.Alike

variable {g h : Game}

theorem view (halike : g.Alike h) (p : Projection) :
    View.Alike { game := g, projection := some p } { game := h, projection := some p } :=
  ⟨halike, rfl, rfl⟩

theorem applyAbility (halike : g.Alike h) :
    LayerItem.applyAbility g = LayerItem.applyAbility h := by
  funext p source a
  have hview := halike.view p
  unfold LayerItem.applyAbility
  simp only [halike.owner?, hview.evaluate, hview.permanents]

/-- A change comes to the same in games that look alike. -/
theorem apply (halike : g.Alike h) : LayerItem.apply g = LayerItem.apply h := by
  funext p item
  unfold LayerItem.apply
  rw [halike.isActive, halike.applyAbility]

theorem applyStage (halike : g.Alike h) : Projection.applyStage g = Projection.applyStage h := by
  funext items p s
  unfold Projection.applyStage Projection.applyCounters
  simp only [halike.apply, halike.battlefield, halike.counters?]

end Game.Alike

end CardGame
