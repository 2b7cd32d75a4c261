import CardGame.Proofs.Game.Alter
import CardGame.Proofs.Resolve.Pairing

/-!
What is at stake while a player is asked. What the question offers and what the suspended work keeps
lies where the work will look for it (`Suspension.Holds`); what may be sacrificed is controlled by
the player asked (`Suspension.Commands`), and so is what was picked for a sacrifice by those asked
before (`Suspension.PicksStand`). Where things lie does not change while the player thinks. Who
controls them may, when floating effects end.
-/

namespace CardGame

/-- Whether a place takes in a zone. -/
def Place.TakesIn : Place → Zone → Prop
  | .anyOf kind, z => z.kind = kind
  | .within zone, z => z = zone
  | .outsideHand, z => z.kind ≠ .hand

namespace Game

variable {g g' : Game} {o : ObjectId}

/-- Whether an object is in a zone at a place. -/
def LiesAt (g : Game) (o : ObjectId) (place : Place) : Prop :=
  ∃ z, g.zone? o = some z ∧ place.TakesIn z

theorem liesAt_within_iff {z : Zone} : g.LiesAt o (.within z) ↔ g.zone? o = some z := by
  constructor
  · rintro ⟨z', hzone, rfl⟩
    exact hzone
  · intro hzone
    exact ⟨z, hzone, rfl⟩

theorem liesAt_battlefield_iff : g.LiesAt o (.anyOf .battlefield) ↔ g.onBattlefield o = true := by
  rw [onBattlefield_iff]
  constructor
  · rintro ⟨⟨s, kind⟩, hzone, rfl⟩
    exact ⟨s, hzone⟩
  · rintro ⟨s, hzone⟩
    exact ⟨_, hzone, rfl⟩

/-- The objects that are in a zone stay in it. -/
def Stays (g g' : Game) : Prop := ∀ o z, g.zone? o = some z → g'.zone? o = some z

theorem LiesAt.stays {place : Place} (h : g.LiesAt o place) (hstays : g.Stays g') :
    g'.LiesAt o place := by
  obtain ⟨z, hzone, hplace⟩ := h
  exact ⟨z, hstays o z hzone, hplace⟩

/-- Whether a player controls an object. Rules do not differ in that. -/
def Controls (g : Game) (s : Seat) (o : ObjectId) : Prop :=
  ∀ rules : Rules, (rules.project g).controller? o = some s

theorem controls_of_project {rules : Rules} {s : Seat}
    (h : (rules.project g).controller? o = some s) : g.Controls s o := by
  intro rules'
  rw [← h]
  exact Rules.controller?_project_congr rfl rfl

end Game

namespace PlayerChoice

/-- Where the objects are that a player picks from. -/
def place? : PlayerChoice → Seat → Option Place
  | .discard _, s => some (.within (.hand s))
  | .sacrifice _ _, _ => some (.anyOf .battlefield)
  | .creatureType, _ => none

/-- Whether different objects are where a player picks from. -/
structure Grants (choice : PlayerChoice) (s : Seat) (os : List ObjectId) (g : Game) : Prop where
  once : os.Nodup
  placed : ∀ place ∈ choice.place? s, ∀ o ∈ os, g.LiesAt o place

/-- Whether a player controls what is to be sacrificed. -/
def Commands : PlayerChoice → Seat → List ObjectId → Game → Prop
  | .sacrifice _ _, s, os, g => ∀ o ∈ os, g.Controls s o
  | _, _, _, _ => True

variable {choice : PlayerChoice} {s : Seat} {os os' : List ObjectId} {g g' : Game}

theorem Grants.stays (h : choice.Grants s os g) (hstays : g.Stays g') : choice.Grants s os g' :=
  ⟨h.once, fun place hplace o ho => (h.placed place hplace o ho).stays hstays⟩

theorem Commands.subset (h : choice.Commands s os g) (hsub : os' ⊆ os) :
    choice.Commands s os' g := by
  cases choice with
  | sacrifice f count => exact fun o ho => h o (hsub ho)
  | _ => trivial

theorem Commands.congr (h : choice.Commands s os g)
    (hcontrol : ∀ o s, g.Controls s o → g'.Controls s o) : choice.Commands s os g' := by
  cases choice with
  | sacrifice f count => exact fun o ho => hcontrol o s (h o ho)
  | _ => trivial

end PlayerChoice

namespace Suspension

/-- Where the objects are that a question offers for suspended work. -/
def place? : Suspension → Option Place
  | .search player _ _ | .scry player | .reorder player | .separatePiles player _ _ =>
    some (.within (.library player))
  | .payCost payer (.discard _) => some (.within (.hand payer))
  | .payCost _ (.sacrifice _ _) | .distributeCounters _ _ => some (.anyOf .battlefield)
  | .eachPlayerChooses choice current _ _ _ => choice.place? current
  | _ => none

/-- What suspended work keeps is in order: the piles lie in the library, and the players who pick
are different and have picked what they could. Life is paid without a question. -/
def Keeps : Suspension → Game → Prop
  | .choosePile player first second, g =>
    (first ++ second).Nodup ∧ ∀ o ∈ first ++ second, g.zone? o = some (.library player)
  | .payCost _ (.life _), _ => False
  | .eachPlayerChooses choice current remaining picks _, g =>
    (picks.map (·.1) ++ current :: remaining).Nodup ∧
      ∀ s os, (s, .objects os) ∈ picks → choice.Grants s os g
  | _, _ => True

/-- What a question offers and what suspended work keeps is in its place. -/
structure Holds (work : Suspension) (q : Question) (g : Game) : Prop where
  placed : ∀ place ∈ work.place?, ∀ o ∈ q.objects, g.LiesAt o place
  keeps : work.Keeps g

/-- What a question offers for a sacrifice is controlled by the player asked. -/
def Commands : Suspension → Question → Game → Prop
  | .payCost payer (.sacrifice f n), q, g => (PlayerChoice.sacrifice f n).Commands payer q.objects g
  | .eachPlayerChooses choice current _ _ _, q, g => choice.Commands current q.objects g
  | _, _, _ => True

/-- What the players asked before have picked for a sacrifice is still controlled by them. -/
def PicksStand : Suspension → Game → Prop
  | .eachPlayerChooses choice _ _ picks _, g =>
    ∀ s os, (s, .objects os) ∈ picks → choice.Commands s os g
  | _, _ => True

variable {work : Suspension} {q : Question} {g g' : Game}

theorem Keeps.stays (h : work.Keeps g) (hstays : g.Stays g') : work.Keeps g' := by
  unfold Keeps at *
  split
  · exact ⟨h.1, fun o ho => hstays o _ (h.2 o ho)⟩
  · exact h
  · exact ⟨h.1, fun s os hpick => (h.2 s os hpick).stays hstays⟩
  · trivial

theorem Holds.stays (h : work.Holds q g) (hstays : g.Stays g') : work.Holds q g' :=
  ⟨fun place hplace o ho => (h.placed place hplace o ho).stays hstays, h.keeps.stays hstays⟩

theorem Commands.congr (h : work.Commands q g)
    (hcontrol : ∀ o s, g.Controls s o → g'.Controls s o) : work.Commands q g' := by
  unfold Commands at *
  split
  · exact PlayerChoice.Commands.congr h hcontrol
  · exact PlayerChoice.Commands.congr h hcontrol
  · trivial

theorem PicksStand.congr (h : work.PicksStand g)
    (hcontrol : ∀ o s, g.Controls s o → g'.Controls s o) : work.PicksStand g' := by
  unfold PicksStand at *
  split
  · exact fun s os hpick => (h s os hpick).congr hcontrol
  · trivial

end Suspension

end CardGame
