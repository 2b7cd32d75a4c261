import CardGame.Proofs.Play.Answering
import CardGame.Proofs.Play.Waiting
import CardGame.Proofs.Resolve.AtRandom

/-!
What is done at random, whatever the stream of random numbers holds. Every shuffle rearranges and
every draw is of different items, so libraries that are shuffled keep their cards, and players who
discard at random give up different cards of their own hands.
-/

namespace CardGame

open Resolve

variable {g : Game} {rules : Rules} {ctx : Context}

/-- No selector names a player twice. -/
theorem View.nodup_players {v : View} (hseats : v.game.seats ≤ 255) (ctx : Context)
    (sel : Selector) : (v.players ctx sel).Nodup := by
  have hturns : v.game.turnOrder.Nodup := Seat.nodup_turnOrder hseats v.game.turn.active
  cases sel with
  | you => exact List.nodup_singleton _
  | opponent =>
    simp only [View.players]
    split
    · exact List.nodup_singleton _
    · split
      · exact List.nodup_singleton _
      · exact List.nodup_nil
  | eachOpponent => exact hturns.filter _
  | eachPlayer => exact hturns
  | activePlayer => exact List.nodup_singleton _
  | targetPlayer index => exact Option.toList_nodup _
  | triggeringPlayer => exact Option.toList_nodup _
  | controllerOf r => exact Option.toList_nodup _
  | ownerOf r => exact Option.toList_nodup _
  | specific s =>
    simp only [View.players]
    split
    · exact List.nodup_singleton _
    · exact List.nodup_nil

/-- What some players have been taken through, one after the other, has been resolved. -/
theorem Rules.execute_of_forPlayers {e : Effect} {found : List Seat} {body : Seat → Resolve PUnit}
    {Q : Zones → Prop} (hidle : g.pending = none) (hfurnished : g.Furnished)
    (hresolve : e.resolve rules ctx { game := g } =
      (found.forM body >>= fun _ => pure Outcome.done) { game := g })
    (hbody : Succeeds (fun h => h.zones = g.zones) (found.forM body) fun _ h => Q h.zones) :
    ∃ g' es, rules.execute g e ctx = .success g' es ∧ Q g'.zones := by
  obtain ⟨u, q, hrun, -, hQ⟩ := hbody.runs (p := { game := g }) hfurnished rfl
  have hdone : e.resolve rules ctx { game := g } = .ok (.done, q) := by
    rw [hresolve, bind_of_ok hrun]
    rfl
  -- the sweep ends floating effects and moves nothing
  exact ⟨_, _, rules.execute_of_done hidle hdone, hQ⟩

namespace Game

/-- Shuffling rearranges a list, and indices that are drawn are different ones below the length, as
many as wanted or all. So a library that is shuffled keeps its cards, and nothing else changes; and
discarding at random succeeds, and each player who is selected puts different cards of the hand, as
many as wanted or all, on top of the graveyard, while everything else stays where it is. -/
theorem random_rearranges :
    (∀ (r : Random) (α : Type) (xs : List α), (r.shuffle xs).1.Perm xs) ∧
    (∀ (r : Random) (length count : Nat),
      Random.Samples length count (r.sample length count).1) ∧
    ∀ g : Game, g.Reachable → g.pending = none →
      (∀ s, g.zones.Shuffled [s] (g.shuffleLibrary s).zones) ∧
      ∀ (rules : Rules) (ctx : Context) (sel : Selector),
        let players := (rules.view g).players ctx sel
        (∃ g' es, rules.execute g (.library (.shuffle sel)) ctx = .success g' es ∧
          g.zones.Shuffled players g'.zones) ∧
        ∀ count : Amount, ∃ g' es,
          rules.execute g (.library (.discardAtRandom sel count)) ctx = .success g' es ∧
          g.zones.DiscardedBy ((rules.view g).evaluateCount ctx count) players g'.zones := by
  refine ⟨fun r _ xs => r.shuffle_perm xs, Random.samples_sample, fun g h hidle => ?_⟩
  refine ⟨fun s => ?_, ?_⟩
  · exact g.zones.shuffled_shuffle s g.random
  · intro rules ctx sel players
    have honce : players.Nodup := View.nodup_players h.sound.housed.seated ctx sel
    constructor
    · exact rules.execute_of_forPlayers hidle h.furnished rfl (succeeds_shuffleEach players)
    · intro count
      exact rules.execute_of_forPlayers hidle h.furnished rfl (succeeds_discardEach honce _)

/-- Everybody has to discard two cards at random. Of the second player's three bears two come to lie
in the graveyard. -/
theorem random_rearranges_of_bears : ∃ g₀, start {} = .ok g₀ ∧
    let bear := Move.spawn (.creature ⟨7⟩ "Bear" 2 2) ⟨1⟩ .hand
    let g := bear.apply (bear.apply (bear.apply g₀))
    g.pending = none ∧ g.zones.Shuffled [⟨1⟩] (g.shuffleLibrary ⟨1⟩).zones ∧
    ∃ g' es, Rules.execute {} g (.library (.discardAtRandom .eachPlayer (.fixed 2))) {} =
      .success g' es ∧ ∃ cards : List ObjectId, cards.Nodup ∧ cards ⊆ [⟨2⟩, ⟨3⟩, ⟨4⟩] ∧
        cards.length = 2 ∧ g'.graveyard ⟨1⟩ = cards := by
  have hbear {g : Game} (h : g.Reachable) (hseats : 1 < g.seats) :
      ((Move.spawn (.creature ⟨7⟩ "Bear" 2 2) ⟨1⟩ .hand).apply g).Reachable :=
    .move _ h hseats
  have hdiscards (g : Game) (h : g.Reachable) (hidle : g.pending = none)
      (hhand : g.zones.objects (.hand ⟨1⟩) = [⟨2⟩, ⟨3⟩, ⟨4⟩])
      (hgraveyard : g.zones.objects (.graveyard ⟨1⟩) = [])
      (hplayers : ⟨1⟩ ∈ (Rules.view {} g).players {} .eachPlayer)
      (hcount : (Rules.view {} g).evaluateCount {} (.fixed 2) = 2) :
      g.zones.Shuffled [⟨1⟩] (g.shuffleLibrary ⟨1⟩).zones ∧
      ∃ g' es, Rules.execute {} g (.library (.discardAtRandom .eachPlayer (.fixed 2))) {} =
        .success g' es ∧ ∃ cards : List ObjectId, cards.Nodup ∧ cards ⊆ [⟨2⟩, ⟨3⟩, ⟨4⟩] ∧
          cards.length = 2 ∧ g'.graveyard ⟨1⟩ = cards := by
    obtain ⟨hshuffled, hexecutes⟩ := random_rearranges.2.2 g h hidle
    obtain ⟨g', es, hexecute, hdiscarded⟩ := (hexecutes {} {} .eachPlayer).2 (.fixed 2)
    rw [hcount] at hdiscarded
    obtain ⟨cards, honce, hamong, hexactly, -, htop⟩ := hdiscarded.discards ⟨1⟩ hplayers
    rw [hhand] at hamong hexactly
    rw [hgraveyard] at htop
    exact ⟨hshuffled _, g', es, hexecute, cards, honce, hamong, hexactly, htop⟩
  have hreachable := hbear (hbear (hbear (.start (s := {}) rfl) (by decide +kernel))
    (by decide +kernel)) (by decide +kernel)
  refine ⟨_, rfl, by decide +kernel, ?_⟩
  exact hdiscards _ hreachable (by decide +kernel) (by decide +kernel) (by decide +kernel)
    (by decide +kernel) (by decide +kernel)

end Game

end CardGame
