import CardGame.Proofs.Play.Waiting
import CardGame.Proofs.Resolve.Gathering

/-!
Players who discard or sacrifice in turn order. Those who have a choice are asked one after the
other, each of them once, while the game stays as it is. With the last answer everybody gives up at
once what was picked, by an answer or because there was no choice. No answer that is accepted makes
the round fail: what is picked is picked from one and the same game.
-/

namespace CardGame

open Resolve

/-- The players whom an effect makes give up objects in turn order, and the choice that each of them
has. -/
def Effect.round? (v : View) (ctx : Context) : Effect → Option (Selector × PlayerChoice)
  | .library (.discard selector count) => some (selector, .discard (v.evaluateCount ctx count))
  | .removal (.sacrifice selector f count) =>
    some (selector, .sacrifice f (v.evaluateCount ctx count))
  | .eachPlayerChooses selector (.discard n) => some (selector, .discard n)
  | .eachPlayerChooses selector (.sacrifice f n) => some (selector, .sacrifice f n)
  | _ => none

theorem Effect.resolve_round {rules : Rules} {ctx : Context} {e : Effect} {selector : Selector}
    {choice : PlayerChoice} {p : Progress}
    (h : e.round? (rules.view p.game) ctx = some (selector, choice)) :
    choice ≠ .creatureType ∧ e.resolve rules ctx p = choice.goOn rules ctx
      (Seat.inTurnOrder ((rules.view p.game).players ctx selector) p.game.turn.active p.game.seats)
      [] p := by
  unfold round? at h
  split at h <;> cases h
  all_goals exact ⟨by nofun, by rw [resolve]; rfl⟩

namespace Game

variable {g g' : Game} {s s' : Seat} {o : ObjectId}

/-- What a player may lose: the cards in hand, and the permanents that the player controls. -/
inductive Has (g : Game) (s : Seat) (o : ObjectId) : Prop
  | card (h : g.zone? o = some (.hand s))
  | permanent (hthere : g.onBattlefield o = true) (h : g.Controls s o)

/-- Nothing belongs to two players. -/
theorem Has.unique (h : g.Has s o) (h' : g.Has s' o) : s = s' := by
  have helsewhere {s : Seat} (hhand : g.zone? o = some (.hand s)) :
      g.onBattlefield o ≠ true := by
    intro hthere
    obtain ⟨s', hzone⟩ := onBattlefield_iff.mp hthere
    cases hhand.symm.trans hzone
  cases h with
  | card h =>
    cases h' with
    | card h' =>
      cases h.symm.trans h'
      rfl
    | permanent hthere' _ => exact absurd hthere' (helsewhere h)
  | permanent hthere h =>
    cases h' with
    | card h' => exact absurd hthere (helsewhere h')
    | permanent _ h' => exact Option.some.inj ((h {}).symm.trans (h' {}))

theorem has_of_mem_options (rules : Rules) (ctx : Context) {choice : PlayerChoice}
    (hsound : g.Sound) (ho : o ∈ choice.options (rules.view g) ctx s) : g.Has s o := by
  rw [PlayerChoice.mem_options_iff hsound] at ho
  cases choice with
  | discard n => exact .card ho
  | sacrifice f n => exact .permanent (hsound.housed.onBattlefield_of_mem ho.1) ho.2.2
  | creatureType => exact ho.elim

/-- A sweep still finds nothing, whatever is suspended. -/
theorem Swept.of_core (h : g.Swept) (hcore : g.core false = g'.core false) : g'.Swept := by
  have hfloating : g'.floating = g.floating := by
    rw [← floating_core_false, ← hcore, floating_core_false]
  have hactive : g'.isActive = g.isActive := by
    rw [← isActive_core (b := false), ← hcore, isActive_core]
  intro e he
  rw [hactive]
  exact h e (hfloating ▸ he)

end Game

/-- Answers that are accepted, one after the other, lead from a result to another. -/
inductive Rules.Answers (rules : Rules) : Result → List (Decision × Answer) → Result → Prop
  | none {r : Result} : Answers rules r [] r
  | next {g : Game} {d : Decision} {es : List Event} {answer : Answer}
      {log : List (Decision × Answer)} {r : Result} (hcheck : d.question.check answer = .ok ())
      (h : Answers rules (rules.resume g ⟨d.id, answer⟩) log r) :
      Answers rules (.paused g d es) ((d, answer) :: log) r

namespace PlayerChoice

variable {rules : Rules} {ctx : Context} {choice : PlayerChoice} {g : Game} {players : List Seat}
  {picks : List (Seat × Pick)}

/-- The answers by which some picks have been made: those of the players who are asked. -/
def answers (choice : PlayerChoice) (v : View) (ctx : Context) (picks : List (Seat × Pick)) :
    List (Seat × Answer) :=
  (picks.filter fun pick => choice.isAsked v ctx pick.1).map fun pick =>
    (pick.1, .cards pick.2.chosen)

theorem answers_append (v : View) (picks picks' : List (Seat × Pick)) :
    choice.answers v ctx (picks ++ picks') =
      choice.answers v ctx picks ++ choice.answers v ctx picks' := by
  rw [answers, List.filter_append, List.map_append]
  rfl

theorem answers_of_forced {v : View}
    (h : ∀ pick ∈ picks, choice.isAsked v ctx pick.1 = false) :
    choice.answers v ctx picks = [] := by
  have hnone : picks.filter (fun pick => choice.isAsked v ctx pick.1) = [] :=
    List.filter_eq_nil_iff.mpr fun pick hmem => Bool.eq_false_iff.mp (h pick hmem)
  rw [answers, hnone, List.map_nil]

/-- How far a round has got in which some players have picked: the next player who has a choice is
asked, and nothing has changed yet; or everybody has picked, and everything has been given up that
was picked. -/
inductive Stage (choice : PlayerChoice) (rules : Rules) (ctx : Context) (g : Game)
    (players : List Seat) (picks : List (Seat × Pick)) : Result → Prop
  | asking {s : Seat} {remaining : List Seat} {g' : Game} {d : Decision} {es : List Event}
      (order : players = picks.map (·.1) ++ s :: remaining)
      (asked : choice.isAsked (rules.view g) ctx s = true) (player : d.player = s)
      (question : d.question =
        .cards (choice.options (rules.view g) ctx s) choice.number choice.number false)
      (pending : g'.pending = some d)
      (stack : g'.stack = [⟨some d.id, .eachPlayerChooses choice s remaining picks ctx⟩])
      (waits : g'.core false = g.core false) (told : es.filter Event.isLoss = []) :
      Stage choice rules ctx g players picks (.paused g' d es)
  | finished {g' : Game} {es : List Event} (order : players = picks.map (·.1))
      (given : g.GivesUp (choice.fate (rules.view g)) (picks.flatMap (·.2.chosen)) g')
      (told : es.filter Event.isLoss = picks.flatMap choice.losses) :
      Stage choice rules ctx g players picks (.success g' es)

/-- A round has come so far by the answers that are logged: everybody who has picked has picked as
many options as have to be, and the answers are those of the players who had a choice. -/
structure Round (choice : PlayerChoice) (rules : Rules) (ctx : Context) (g : Game)
    (players : List Seat) (picks : List (Seat × Pick)) (log : List (Decision × Answer))
    (r : Result) : Prop where
  picked : ∀ pick ∈ picks, choice.Picks (rules.view g) ctx pick.1 pick.2.chosen
  answered : log.map (fun entry => (entry.1.player, entry.2)) =
    choice.answers (rules.view g) ctx picks
  stage : choice.Stage rules ctx g players picks r

/-- A round goes on, past the players whose picks are forced, to its next stage. -/
theorem exists_stage (rules : Rules) (ctx : Context) (hobjects : choice ≠ .creatureType)
    {p : Progress} (before : Game) (hcore : g.core false = p.game.core false)
    (hfurnished : g.Furnished) (hswept : g.Swept) (hstack : p.game.stack = [])
    (htold : p.events.filter Event.isLoss = []) {remaining : List Seat}
    (honce : (picks.map (·.1) ++ remaining).Nodup)
    (hpicks : ∀ pick ∈ picks, choice.Picks (rules.view g) ctx pick.1 pick.2.chosen) :
    ∃ forced : List (Seat × Pick),
      (∀ pick ∈ forced, choice.isAsked (rules.view g) ctx pick.1 = false ∧
        choice.Picks (rules.view g) ctx pick.1 pick.2.chosen) ∧
      choice.Stage rules ctx g (picks.map (·.1) ++ remaining) (picks ++ forced)
        (.ofRun before (settled (choice.goOn rules ctx remaining picks) p)) := by
  have hasked (s : Seat) := choice.isAsked_congr rules ctx s hcore
  obtain ⟨forced, hforced, hround⟩ := goOn_cases rules ctx hobjects (hfurnished.of_core hcore)
    honce fun pick hmem => (hpicks pick hmem).congr hcore
  refine ⟨forced, fun pick hmem => ?_, ?_⟩
  · obtain ⟨hnot, hpick⟩ := hforced pick hmem
    exact ⟨(hasked _).trans hnot, hpick.congr hcore.symm⟩
  · rw [settled_apply]
    rcases hround with ⟨rfl, q, hrun, hgives⟩ | ⟨s, rest, prompt, rfl, hs, hrun⟩
    · obtain ⟨es, hevents, hlosses⟩ := hgives.events
      rw [hrun]
      refine .finished (List.map_append).symm ?_ ?_
      · rw [choice.fate_congr rules hcore]
        exact hgives.game.congr (Game.givesUp_of_core _ hcore) (.of_eq rfl rfl rfl rfl)
      · rw [Progress.settled, hevents, List.filter_append, List.filter_append, htold, hlosses,
          Game.losses_sweep, List.append_nil, List.nil_append]
    · let asked := choice.request (rules.view p.game) ctx s rest (picks ++ forced) prompt
      have hsweep : (p.game.waiting asked).sweep = (p.game.waiting asked, []) :=
        ((hswept.of_core hcore).waiting asked).sweep_eq
      rw [hrun, ask_some]
      change Stage _ _ _ _ _ _ (.paused (p.game.waiting asked).sweep.1
        (asked.decision ⟨p.game.nextDecision⟩) (_ ++ (p.game.waiting asked).sweep.2))
      rw [hsweep]
      have horder : picks.map (·.1) ++ (forced.map (·.1) ++ s :: rest) =
          (picks ++ forced).map (·.1) ++ s :: rest := by
        rw [List.map_append, List.append_assoc]
      refine .asking horder ((hasked s).trans hs) rfl ?_ rfl ?_ hcore.symm ?_
      · rw [choice.options_congr rules ctx s hcore]
        rfl
      · exact Game.stack_waiting hstack _
      · rw [List.append_nil, List.filter_append, htold]
        rfl

/-- What a round comes to when it goes on, past the players whose picks are forced. -/
theorem exists_round (rules : Rules) (ctx : Context) (hobjects : choice ≠ .creatureType)
    {p : Progress} (before : Game) (hcore : g.core false = p.game.core false)
    (hfurnished : g.Furnished) (hswept : g.Swept) (hstack : p.game.stack = [])
    (htold : p.events.filter Event.isLoss = []) {remaining : List Seat}
    {log : List (Decision × Answer)} (honce : (picks.map (·.1) ++ remaining).Nodup)
    (hpicks : ∀ pick ∈ picks, choice.Picks (rules.view g) ctx pick.1 pick.2.chosen)
    (hanswered : log.map (fun entry => (entry.1.player, entry.2)) =
      choice.answers (rules.view g) ctx picks) :
    ∃ picks', choice.Round rules ctx g (picks.map (·.1) ++ remaining) picks' log
      (.ofRun before (settled (choice.goOn rules ctx remaining picks) p)) := by
  obtain ⟨forced, hforced, hstage⟩ := exists_stage rules ctx hobjects before hcore hfurnished hswept
    hstack htold honce hpicks
  refine ⟨picks ++ forced, fun pick hmem => ?_, ?_, hstage⟩
  · rcases List.mem_append.mp hmem with hold | hnew
    · exact hpicks pick hold
    · exact (hforced pick hnew).2
  · have hnone := answers_of_forced fun pick hmem => (hforced pick hmem).1
    rw [hanswered, answers_append, hnone, List.append_nil]

variable {log log' : List (Decision × Answer)} {r r' : Result}

/-- Every answer that is accepted brings a round further. -/
theorem Round.resume {g' : Game} {d : Decision} {es : List Event} {answer : Answer}
    (hobjects : choice ≠ .creatureType) (hfurnished : g.Furnished) (hswept : g.Swept)
    (honce : players.Nodup) (h : choice.Round rules ctx g players picks log (.paused g' d es))
    (hcheck : d.question.check answer = .ok ()) :
    ∃ picks', choice.Round rules ctx g players picks' (log ++ [(d, answer)])
      (rules.resume g' ⟨d.id, answer⟩) := by
  obtain ⟨hpicked, hanswered, hstage⟩ := h
  cases hstage with
  | @asking s remaining _ _ _ horder hasked hplayer hquestion hpending hstack hwaits htold =>
    have haccepts := Question.check_eq_ok_iff.mp hcheck
    rw [hquestion] at haccepts
    cases answer with
    | cards chosen =>
      obtain ⟨henough, hmost, hchosen, hamong⟩ := haccepts
      have hmore := (of_decide_eq_true hasked).2
      have hpicks : ∀ pick ∈ picks ++ [(s, .objects chosen)],
          choice.Picks (rules.view g) ctx pick.1 pick.2.chosen := by
        refine List.forall_mem_append.mpr ⟨hpicked, List.forall_mem_singleton.mpr ?_⟩
        exact ⟨hchosen, hamong, (Nat.le_antisymm hmost henough).trans
          (Nat.min_eq_left hmore.le).symm⟩
      have hanswered' : (log ++ [(d, Answer.cards chosen)]).map
          (fun entry => (entry.1.player, entry.2)) =
            choice.answers (rules.view g) ctx (picks ++ [(s, .objects chosen)]) := by
        have hself : choice.answers (rules.view g) ctx [(s, .objects chosen)] =
            [(s, .cards chosen)] := by
          simp [answers, hasked, Pick.chosen]
        rw [answers_append, hself, List.map_append, hanswered, ← hplayer]
        rfl
      have horder' : players = (picks ++ [(s, Pick.objects chosen)]).map (·.1) ++ remaining := by
        rw [horder, List.map_append, List.append_assoc]
        rfl
      have hwaitsWith : g'.WaitsWith d (.eachPlayerChooses choice s remaining picks ctx) :=
        ⟨hfurnished.of_core hwaits.symm, hpending, hstack, rfl, trivial⟩
      rw [rules.resume_eq_ofRun hwaitsWith hcheck, horder']
      exact exists_round rules ctx hobjects (p := .resolving g' d) g' hwaits.symm hfurnished hswept
        rfl rfl (horder' ▸ honce) hpicks hanswered'
    | _ => exact haccepts.elim

/-- So does every series of answers that are accepted. -/
theorem Round.answered_by (hobjects : choice ≠ .creatureType) (hfurnished : g.Furnished)
    (hswept : g.Swept) (honce : players.Nodup)
    (h : choice.Round rules ctx g players picks log r) (hanswers : rules.Answers r log' r') :
    ∃ picks', choice.Round rules ctx g players picks' (log ++ log') r' := by
  induction hanswers generalizing log picks with
  | none => exact ⟨picks, by rwa [List.append_nil]⟩
  | @next g' d es answer rest r' hcheck hrest ih =>
    obtain ⟨picks', h'⟩ := h.resume hobjects hfurnished hswept honce hcheck
    obtain ⟨picks'', h''⟩ := ih h'
    exact ⟨picks'', by rwa [List.append_assoc] at h''⟩

/-- Those who are asked are those who have a choice, in the order in which everybody picks. -/
theorem map_answers (v : View) (picks : List (Seat × Pick)) :
    (choice.answers v ctx picks).map (·.1) = (picks.map (·.1)).filter (choice.isAsked v ctx) := by
  rw [answers, List.map_map, List.filter_map]
  rfl

/-- Nobody loses anything in a round that goes past. -/
theorem Round.spares (hsound : g.Sound) (h : choice.Round rules ctx g players picks log r)
    {s : Seat} {o : ObjectId} (hs : s ∉ players) (hhas : g.Has s o) :
    r.game.zone? o = g.zone? o ∧ r.game.contains o = g.contains o ∧
      r.game.facets o = g.facets o := by
  obtain ⟨hpicked, -, hstage⟩ := h
  cases hstage with
  | asking _ _ _ _ _ _ hwaits _ =>
    have hsame := Game.givesUp_of_core (fun _ => .graveyard) hwaits.symm
    exact ⟨hsame.zone? o (by simp), hsame.contains o (by simp), hsame.facets o (by simp)⟩
  | finished horder hgiven _ =>
    have hkept : o ∉ picks.flatMap (·.2.chosen) := by
      intro ho
      obtain ⟨pick, hmem, hchosen⟩ := List.mem_flatMap.mp ho
      have hpicker := Game.has_of_mem_options rules ctx hsound ((hpicked pick hmem).among hchosen)
      rw [horder, hhas.unique hpicker] at hs
      exact hs (List.mem_map_of_mem hmem)
    exact ⟨hgiven.zone? o hkept, hgiven.contains o hkept, hgiven.facets o hkept⟩

end PlayerChoice

namespace Game

variable {g : Game}

/-- Players discard and sacrifice in turn order: those who are named, but for seats that the table
does not have, the nearest to the active one first. Whatever answers are accepted, the round is at a
stage of its course, and so nothing fails: as long as somebody is asked the game stays as it is, and
in the end everybody has given up as many options as have to be picked, or all of them. Those who
have been asked by then are those who have a choice, each of them once. The others lose nothing. -/
theorem Reachable.picked_in_turn (h : g.Reachable) (hidle : g.pending = none) (rules : Rules)
    (ctx : Context) {e : Effect} {selector : Selector} {choice : PlayerChoice}
    (hround : e.round? (rules.view g) ctx = some (selector, choice))
    {log : List (Decision × Answer)} {r : Result}
    (hanswers : rules.Answers (rules.execute g e ctx) log r) :
    let players :=
      Seat.inTurnOrder ((rules.view g).players ctx selector) g.turn.active g.seats
    players.Nodup ∧
    (g.turn.active.index < g.seats →
      (players.Pairwise fun s s' =>
        g.turn.active.stepsFrom g.seats s < g.turn.active.stepsFrom g.seats s') ∧
      ∀ s, s ∈ players ↔ s ∈ (rules.view g).players ctx selector ∧ s.index < g.seats) ∧
    ∃ picks, choice.Round rules ctx g players picks log r ∧
      (∀ g' es, r = .success g' es →
        log.map (·.1.player) = players.filter (choice.isAsked (rules.view g) ctx)) ∧
      ∀ s, s ∉ players → ∀ o, g.Has s o → r.game.zone? o = g.zone? o ∧
        r.game.contains o = g.contains o ∧ r.game.facets o = g.facets o := by
  intro players
  have hseats : g.seats ≤ 255 := h.sound.housed.seated
  have honce : players.Nodup := (Seat.nodup_turnOrder hseats g.turn.active).filter _
  obtain ⟨hobjects, hresolve⟩ := Effect.resolve_round (p := { game := g }) hround
  have hexecute : rules.execute g e ctx =
      .ofRun g (settled (choice.goOn rules ctx players []) { game := g }) := by
    unfold Rules.execute
    rw [hidle]
    change Result.ofRun g (settled _ _) = Result.ofRun g (settled _ _)
    rw [settled_apply, settled_apply, hresolve]
  obtain ⟨picks₀, hstart⟩ : ∃ picks₀,
      choice.Round rules ctx g players picks₀ [] (rules.execute g e ctx) := by
    have hnone : ([] : List (Decision × Answer)).map (fun entry => (entry.1.player, entry.2)) =
        choice.answers (rules.view g) ctx [] := rfl
    rw [hexecute]
    exact PlayerChoice.exists_round rules ctx hobjects (p := { game := g }) g rfl h.furnished
      h.swept (h.poised.stack_eq_nil hidle) rfl honce (List.forall_mem_nil _) hnone
  refine ⟨honce, fun hactive => ⟨?_, fun s => ?_⟩, ?_⟩
  · exact (Seat.pairwise_turnOrder hseats hactive).filter _
  · exact Seat.mem_inTurnOrder_iff hseats hactive
  · obtain ⟨picks, hrounds⟩ := hstart.answered_by hobjects h.furnished h.swept honce hanswers
    refine ⟨picks, hrounds, ?_, fun s hs o hhas => hrounds.spares h.sound hs hhas⟩
    rintro g' es rfl
    have hplayers := congrArg (List.map Prod.fst) hrounds.answered
    cases hrounds.stage with
    | finished horder _ _ =>
      rw [PlayerChoice.map_answers, ← horder, List.map_map] at hplayers
      exact hplayers

/-- One player has two cards in hand and is asked which to discard; the other discards the only
card. -/
theorem picked_in_turn_of_three_cards : ∃ g₀, start {} = .ok g₀ ∧
    let bear : CardDefinition := .creature ⟨7⟩ "Bear" 2 2
    let g := (Move.spawn bear ⟨1⟩ .hand).apply
      ((Move.spawn bear ⟨0⟩ .hand).apply ((Move.spawn bear ⟨0⟩ .hand).apply g₀))
    let e : Effect := .library (.discard .eachPlayer (.fixed 1))
    let d : Decision :=
      ⟨⟨1⟩, ⟨0⟩, "Choose 1 card(s) to discard", none, .cards [⟨2⟩, ⟨3⟩] 1 1 false⟩
    ∃ g' es picks,
      Rules.Answers {} (Rules.execute {} g e {}) [(d, .cards [⟨2⟩])] (.success g' es) ∧
      (PlayerChoice.discard 1).Round {} {} g [⟨0⟩, ⟨1⟩] picks [(d, .cards [⟨2⟩])]
        (.success g' es) := by
  have hspawned {g : Game} (s : Seat) (hs : s.index < g.seats) (h : g.Reachable) :
      ((Move.spawn (.creature ⟨7⟩ "Bear" 2 2) s .hand).apply g).Reachable := .move _ h hs
  have hcards := hspawned ⟨1⟩ Nat.one_lt_two (hspawned ⟨0⟩ Nat.zero_lt_two
    (hspawned ⟨0⟩ Nat.zero_lt_two (Reachable.start (s := {}) rfl)))
  refine ⟨_, rfl, ?_⟩
  intro bear g e d
  let asked := Rules.execute {} g e {}
  let finished := Rules.resume {} asked.game ⟨d.id, .cards [⟨2⟩]⟩
  have hasked : asked = .paused asked.game d asked.events := by decide +kernel
  have hfinished : finished = .success finished.game finished.events := by decide +kernel
  have hanswers : Rules.Answers {} asked [(d, .cards [⟨2⟩])]
      (.success finished.game finished.events) := by
    rw [hasked, ← hfinished]
    exact .next rfl .none
  obtain ⟨-, -, picks, hround, -⟩ := Reachable.picked_in_turn hcards rfl {} {} rfl hanswers
  exact ⟨_, _, picks, hanswers, hround⟩

end Game

end CardGame
