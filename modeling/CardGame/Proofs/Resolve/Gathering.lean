import CardGame.Proofs.Resolve.GivingUp

/-!
Choices of objects in turn order. Whoever has more options than have to be picked is asked; for
everybody else the pick is forced. Either way a player picks as many of the options as have to be
picked, or all if there are no more (`PlayerChoice.Picks`). A round goes on to the next player who
is asked, with nothing done yet, or to its end, where everything that has been picked is given up.
-/

namespace CardGame

open Resolve

namespace PlayerChoice

variable {rules : Rules} {ctx : Context} {choice : PlayerChoice} {v : View} {s : Seat}
  {os : List ObjectId} {g g' : Game}

/-- Whether a player is asked: some options have to be picked, but not all. -/
def isAsked (choice : PlayerChoice) (v : View) (ctx : Context) (s : Seat) : Bool :=
  decide (0 < choice.number ∧ choice.number < (choice.options v ctx s).length)

/-- A player picks as many of the options as have to be picked, or all if there are no more. -/
structure Picks (choice : PlayerChoice) (v : View) (ctx : Context) (s : Seat)
    (os : List ObjectId) : Prop where
  once : os.Nodup
  among : os ⊆ choice.options v ctx s
  exactly : os.length = min choice.number (choice.options v ctx s).length

/-- What a player is asked in a round. -/
def request (choice : PlayerChoice) (v : View) (ctx : Context) (s : Seat) (remaining : List Seat)
    (picks : List (Seat × Pick)) (prompt : String) : Request where
  player := s
  prompt
  question := .cards (choice.options v ctx s) choice.number choice.number false
  source := ctx.source
  work := .eachPlayerChooses choice s remaining picks ctx

private theorem ask_eq_askObjects (v : View) (ctx : Context) (s : Seat)
    (hobjects : choice ≠ .creatureType) :
    ∃ what, choice.ask v ctx s = askObjects (choice.options v ctx s) choice.number what := by
  cases choice with
  | creatureType => exact absurd rfl hobjects
  | _ => exact ⟨_, rfl⟩

/-- Only those are asked who have more options than have to be picked, and they are asked for just
as many. -/
theorem isAsked_of_decide {prompt : String} {question : Question}
    (hobjects : choice ≠ .creatureType) (h : choice.ask v ctx s = .decide prompt question) :
    choice.isAsked v ctx s = true ∧
      question = .cards (choice.options v ctx s) choice.number choice.number false := by
  obtain ⟨what, hask⟩ := ask_eq_askObjects v ctx s hobjects
  rw [hask, askObjects] at h
  split at h
  · cases h
  · next hsome =>
    split at h
    · cases h
    · next hmore =>
      cases h
      simp only [Bool.or_eq_true, decide_eq_true_eq, not_or] at hsome
      exact ⟨decide_eq_true ⟨Nat.pos_of_ne_zero hsome.1, Nat.lt_of_not_le hmore⟩, rfl⟩

/-- Whoever is not asked picks all options, or none where nothing has to be picked. -/
theorem picks_of_forced {pick : Pick} (hobjects : choice ≠ .creatureType)
    (honce : (choice.options v ctx s).Nodup) (h : choice.ask v ctx s = .forced pick) :
    choice.isAsked v ctx s = false ∧ choice.Picks v ctx s pick.chosen := by
  obtain ⟨what, hask⟩ := ask_eq_askObjects v ctx s hobjects
  rw [hask, askObjects] at h
  rw [isAsked, decide_eq_false_iff_not]
  split at h
  · next hnone =>
    cases h
    have hmin : min choice.number (choice.options v ctx s).length = 0 := by
      rcases Bool.or_eq_true_iff.mp hnone with hzero | hempty
      · rw [of_decide_eq_true hzero, Nat.zero_min]
      · rw [List.isEmpty_iff.mp hempty, List.length_nil, Nat.min_zero]
    refine ⟨by omega, List.nodup_nil, List.nil_subset _, ?_⟩
    rw [hmin]
    rfl
  · split at h
    · next hall =>
      cases h
      refine ⟨by omega, honce, fun _ => id, ?_⟩
      exact (Nat.min_eq_right hall).symm
    · cases h

theorem Picks.congr (h : choice.Picks (rules.view g) ctx s os)
    (hcore : g.core false = g'.core false) : choice.Picks (rules.view g') ctx s os := by
  obtain ⟨honce, hamong, hexactly⟩ := h
  rw [choice.options_congr rules ctx s hcore] at hamong hexactly
  exact ⟨honce, hamong, hexactly⟩

theorem isAsked_congr (rules : Rules) (ctx : Context) (choice : PlayerChoice) (s : Seat)
    (hcore : g.core false = g'.core false) :
    choice.isAsked (rules.view g) ctx s = choice.isAsked (rules.view g') ctx s := by
  rw [isAsked, isAsked, choice.options_congr rules ctx s hcore]

variable {picks : List (Seat × Pick)} {players : List Seat}

/-- What everybody picks among the options is where the choice looks for it. -/
theorem picked_of_picks (hsound : g.Sound)
    (hpicks : ∀ pick ∈ picks, choice.Picks (rules.view g) ctx pick.1 pick.2.chosen) :
    choice.Picked True picks g where
  grants s os hmem := by
    obtain ⟨honce, hamong, -⟩ := hpicks _ hmem
    have hplaced := (grants_options rules ctx choice s hsound).placed
    exact ⟨honce, fun place hplace o ho => hplaced place hplace o (hamong ho)⟩
  commands _ s os hmem := (commands_options rules ctx choice s g).subset (hpicks _ hmem).among

/-- A round goes on to its end, where everything that has been picked is given up, or to the next
player who is asked, with nothing done yet. On the way there the picks are forced. -/
theorem goOn_cases (rules : Rules) (ctx : Context) (hobjects : choice ≠ .creatureType)
    {p : Progress} (hfurnished : p.game.Furnished) (honce : (picks.map (·.1) ++ players).Nodup)
    (hpicks : ∀ pick ∈ picks, choice.Picks (rules.view p.game) ctx pick.1 pick.2.chosen) :
    ∃ forced : List (Seat × Pick),
      (∀ pick ∈ forced, choice.isAsked (rules.view p.game) ctx pick.1 = false ∧
        choice.Picks (rules.view p.game) ctx pick.1 pick.2.chosen) ∧
      ((players = forced.map (·.1) ∧ ∃ q, choice.goOn rules ctx players picks p = .ok (.done, q) ∧
          p.GivesUp (choice.fate (rules.view p.game)) ((picks ++ forced).flatMap (·.2.chosen))
            ((picks ++ forced).flatMap choice.losses) q) ∨
        ∃ s remaining prompt, players = forced.map (·.1) ++ s :: remaining ∧
          choice.isAsked (rules.view p.game) ctx s = true ∧
          choice.goOn rules ctx players picks p = Resolve.ask (some
            (choice.request (rules.view p.game) ctx s remaining (picks ++ forced) prompt)) p) := by
  have hoptions (s : Seat) := nodup_options rules ctx choice s hfurnished.sound
  obtain ⟨forced, hforced, hround⟩ := gather_cases (rules.view p.game) ctx choice players picks
  have hforced' : ∀ pick ∈ forced, choice.isAsked (rules.view p.game) ctx pick.1 = false ∧
      choice.Picks (rules.view p.game) ctx pick.1 pick.2.chosen :=
    fun pick hmem => picks_of_forced hobjects (hoptions _) (hforced pick hmem)
  refine ⟨forced, hforced', ?_⟩
  unfold goOn
  rw [view_bind]
  rcases hround with ⟨rfl, hgather⟩ | ⟨s, remaining, prompt, question, rfl, hask, hgather⟩
  · have hall : ∀ pick ∈ picks ++ forced,
        choice.Picks (rules.view p.game) ctx pick.1 pick.2.chosen := by
      intro pick hmem
      rcases List.mem_append.mp hmem with hold | hnew
      · exact hpicks pick hold
      · exact (hforced' pick hnew).2
    rw [← List.map_append] at honce
    obtain ⟨a, q, hrun, hgives⟩ := relinquishes_carryOut rules hobjects honce hfurnished
      (picked_of_picks hfurnished.sound hall)
    refine Or.inl ⟨rfl, q, ?_, hgives⟩
    rw [hgather]
    change (choice.carryOut rules (picks ++ forced) >>= fun _ => pure .done : Resolve Outcome) _ = _
    rw [bind_of_ok hrun]
    rfl
  · obtain ⟨hasked, rfl⟩ := isAsked_of_decide hobjects hask
    refine Or.inr ⟨s, remaining, prompt, rfl, hasked, ?_⟩
    rw [hgather]
    rfl

end PlayerChoice

end CardGame
