import CardGame.Proofs.Game.Furnished
import CardGame.Proofs.Resolve.Stopping
import CardGame.Proofs.Seat

/-!
How many questions there can be. `Effect.questions` bounds the questions that an effect puts, by
recursion on the effect and for the number of players who may be asked in turn. Work that waits for
an answer can only ask for less than it could before (`Suspension.within_plan`), which is what makes
every resolution end.
-/

namespace CardGame

open Resolve

/-- The most questions that a change of characteristics puts. -/
def ContinuousEffect.questions : ContinuousEffect → Nat
  | .protectFromColor .. => 1
  | _ => 0

def PermanentEffect.questions : PermanentEffect → Nat
  | .distributeCounters .. => 1
  | _ => 0

/-- Everybody at the table may have to choose what to sacrifice. -/
def RemovalEffect.questions (n : Nat) : RemovalEffect → Nat
  | .sacrifice .. => n
  | _ => 0

def DamageEffect.questions : DamageEffect → Nat
  | .divide _ => 1
  | _ => 0

/-- Piles are separated and then chosen, and everybody may have to choose what to discard. -/
def LibraryEffect.questions (n : Nat) : LibraryEffect → Nat
  | .discard .. => n
  | .scry _ | .reorderTop _ | .search .. => 1
  | .separate .. => 2
  | _ => 0

namespace Effect

mutual

/-- The most questions that an effect puts at a table of so many players. -/
def questions (n : Nat) : Effect → Nat
  | .continuous e => e.questions
  | .permanent e => e.questions
  | .removal e => e.questions n
  | .damage e => e.questions
  | .library e => e.questions n
  | .composite es => questionsOfAll n es
  | .conditional _ yes no => max (questions n yes) (questionsOfOption n no)
  | .may _ e => questions n e + 1
  | .modal modes _ _ => questionsOfModes n modes + 1
  | .payOrSuffer _ _ suffer => max 1 (questions n suffer) + 1
  | .chooseTargets _ e => questions n e + 1
  | .eachPlayerChooses _ _ => n

def questionsOfAll (n : Nat) : List Effect → Nat
  | [] => 0
  | e :: rest => questions n e + questionsOfAll n rest

def questionsOfOption (n : Nat) : Option Effect → Nat
  | none => 0
  | some e => questions n e

def questionsOfModes (n : Nat) : List (String × Effect) → Nat
  | [] => 0
  | (_, e) :: rest => questions n e + questionsOfModes n rest

end

end Effect

/-- The most questions still to come from work once it goes on. -/
def Suspension.questions (n : Nat) : Suspension → Nat
  | .effects es _ => Effect.questionsOfAll n es
  | .eachPlayerChooses _ _ remaining _ _ => remaining.length
  | .separatePiles .. => 1
  | .may e _ | .chooseTargets e _ => e.questions n
  | .modal modes _ => Effect.questionsOfModes n modes
  | .payOrSuffer _ _ suffer _ => max 1 (suffer.questions n)
  | _ => 0

/-- The most questions that effects put off until later put. -/
def Group.questions (n : Nat) (groups : List Group) : Nat :=
  (groups.map fun group => Effect.questionsOfAll n group.1).sum

/-- The question itself, and the most that come after it. -/
def Stop.questions (n : Nat) (stop : Stop) : Nat :=
  stop.request.work.questions n + Group.questions n stop.later + 1

/-- Nobody joins or leaves the table during a resolution. -/
theorem Progress.Changes.seats {lasting : Duration → Prop} {p q : Progress}
    (h : Progress.Changes lasting p q) (hsound : p.game.Sound) : q.game.seats = p.game.seats := by
  have hboth : q.game.Sound ∧ q.game.seats = p.game.seats := by
    refine h.keeps (I := fun q => q.game.Sound ∧ q.game.seats = p.game.seats) ?_ ⟨hsound, rfl⟩
    rintro q r hchange ⟨hq, hseats⟩
    refine ⟨hchange.sound hq, ?_⟩
    cases hchange with
    | alter h => exact (h.sameTable hq).seats.trans hseats
    | tell => exact hseats
  exact hboth.2

namespace Resolve

variable {α : Type} {n w w' : Nat} {P : Game → Prop}

/-- A request after which there are fewer questions to come. -/
def Fewer (n w : Nat) (r : Request) (_ : Game) : Prop := r.work.questions n < w

theorem Fewer.mono (hw : w ≤ w') {r : Request} {g : Game} (h : Fewer n w r g) :
    Fewer n w' r g := Nat.lt_of_lt_of_le h hw

/-- At a table of `n` players the plan stops with at most `w` questions to come. -/
structure Within (n : Nat) (plan : Resolve (Option Stop)) (w : Nat) : Prop where
  within : ∀ {p q : Progress} {stop : Stop}, p.game.Sound → p.game.seats = n →
    plan p = .ok (some stop, q) → stop.questions n ≤ w

namespace Within

theorem none : Within n (pure none) w := ⟨fun _ _ h => by cases h⟩

protected theorem throw (failure : Failure) : Within n (throw failure) w :=
  ⟨fun _ _ h => by cases h⟩

theorem mono {plan : Resolve (Option Stop)} (h : Within n plan w) (hw : w ≤ w') :
    Within n plan w' :=
  ⟨fun hsound hseats hrun => Nat.le_trans (h.within hsound hseats hrun) hw⟩

theorem ite {c : Prop} [Decidable c] {r r' : Resolve (Option Stop)} (hyes : Within n r w)
    (hno : Within n r' w) : Within n (if c then r else r') w := by
  split
  · exact hyes
  · exact hno

protected theorem bind {R : α → Game → Prop} {m : Resolve α} {k : α → Resolve (Option Stop)}
    (hm : Directly (fun _ => True) (fun _ => True) m R) (hk : ∀ a, Within n (k a) w) :
    Within n (m >>= k) w := by
  refine ⟨fun {p q stop} hsound hseats h => ?_⟩
  obtain ⟨a, s, hrun, hrest⟩ := bind_eq_ok h
  have hchanges := (hm.runs hsound trivial hrun).1
  exact (hk a).within (hchanges.sound hsound) ((hchanges.seats hsound).trans hseats) hrest

theorem view {rules : Rules} {k : View → Resolve (Option Stop)}
    (hk : ∀ v, Within n (k v) w) : Within n (Resolve.view rules >>= k) w :=
  ⟨fun {_ _ _} hsound hseats h => (hk _).within hsound hseats h⟩

/-- A part that asks stops with its own question, and nothing put off. -/
theorem of_poses {r : Resolve Outcome} (h : Poses (fun g => g.seats = n) r (Fewer n w)) :
    Within n (stopAt r) w := by
  refine ⟨fun {p q stop} hsound hseats hstop => ?_⟩
  obtain ⟨request, hheld, rfl⟩ := stopAt_eq_some hstop
  have hfewer : request.work.questions n < w := h.poses hsound hseats hheld
  simp only [Stop.questions, Stop.only, Group.questions, List.map_nil, List.sum_nil]
  omega

/-- One thing and then another stop within the sum of what each stops within. -/
theorem followedBy_at {r next : Resolve (Option Stop)} {groups : List Group}
    (hdirect : Directly (fun _ => True) P r Stopping) (hr : Within n r w)
    (hnext : Within n next w') (hgroups : Group.questions n groups ≤ w') {p q : Progress}
    {stop : Stop} (hsound : p.game.Sound) (hp : P p.game) (hseats : p.game.seats = n)
    (h : r.followedBy next groups p = .ok (some stop, q)) : stop.questions n ≤ w + w' := by
  obtain ⟨s, hrun, hrest⟩ | ⟨first, hrun, hstop⟩ := followedBy_eq_ok h
  · have hchanges := (hdirect.runs hsound hp hrun).1
    have hlater := hnext.within (hchanges.sound hsound) ((hchanges.seats hsound).trans hseats) hrest
    omega
  · have hfirst := hr.within hsound hseats hrun
    cases hstop
    simp only [Stop.questions, Stop.andThen, Group.questions, List.map_append,
      List.sum_append] at hfirst hgroups ⊢
    omega

theorem followedBy {r next : Resolve (Option Stop)} {groups : List Group}
    (hdirect : Directly (fun _ => True) (fun _ => True) r Stopping) (hr : Within n r w)
    (hnext : Within n next w') (hgroups : Group.questions n groups ≤ w') :
    Within n (r.followedBy next groups) (w + w') :=
  ⟨fun hsound hseats h => followedBy_at hdirect hr hnext hgroups hsound trivial hseats h⟩

end Within

end Resolve

variable {n : Nat} {rules : Rules} {ctx : Context}

namespace PlayerChoice

/-- After the next player who is asked, only those who come later are. -/
theorem counts_goOn (choice : PlayerChoice) (players : List Seat) (picks : List (Seat × Pick))
    {P : Game → Prop} :
    Poses P (choice.goOn rules ctx players picks) (Fewer n players.length) := by
  refine .view fun g _ _ => ?_
  obtain ⟨forced, -, ⟨-, hround⟩ | ⟨s, rest, prompt, question, hplayers, -, hround⟩⟩ :=
    gather_cases (rules.view g) ctx choice players picks
  · rw [hround]
    exact .andDone _
  · rw [hround]
    refine .pause fun _ _ => ?_
    have hlength := congrArg List.length hplayers
    simp only [List.length_append, List.length_map, List.length_cons] at hlength
    simp only [Fewer, Suspension.questions]
    omega

theorem counts_start (choice : PlayerChoice) (players : List Seat) :
    Poses (fun g => g.seats = n) (choice.start rules ctx players) (Fewer n n) := by
  refine .look fun g _ hseats => ?_
  have hlength := Seat.length_inTurnOrder players g.turn.active g.seats
  rw [hseats] at hlength
  let order := Seat.inTurnOrder players g.turn.active g.seats
  have hgoes : Poses (fun h => h = g) (choice.goOn rules ctx order []) (Fewer n order.length) :=
    counts_goOn choice order []
  exact ⟨fun hsound hp hrun => Fewer.mono (hseats ▸ hlength) (hgoes.poses hsound hp hrun)⟩

end PlayerChoice

theorem ContinuousEffect.counts_resolve (e : ContinuousEffect) {P : Game → Prop} :
    Poses P (e.resolve rules ctx) (Fewer n e.questions) := by
  cases e with
  | modifyStats target power toughness duration =>
    refine .bind (directly_amount rules ctx power) fun p => ?_
    refine .bind (directly_amount rules ctx toughness) fun t => ?_
    exact poses_onPermanent rules ctx target _ duration
  | modifyGroup f power toughness duration =>
    refine .bind (directly_amount rules ctx power) fun p => ?_
    refine .bind (directly_amount rules ctx toughness) fun t => ?_
    exact poses_onGroup rules ctx f _ duration
  | grantKeywordToGroup f keyword duration => exact poses_onGroup rules ctx f _ duration
  | protectFromColor target duration =>
    refine .bind (directly_permanent rules ctx target) fun found => .pause fun _ _ => ?_
    exact Nat.zero_lt_one
  | _ => exact poses_onPermanent rules ctx _ _ _

theorem PermanentEffect.counts_resolve (e : PermanentEffect) {P : Game → Prop} :
    Poses P (e.resolve rules ctx) (Fewer n e.questions) := by
  cases e with
  | distributeCounters kind amount =>
    refine .bind (directly_count rules ctx amount) fun total => ?_
    refine .bind (directly_requireAllIn ctx.targets .battlefield) fun _ => ?_
    split
    · exact .done
    · exact .andDone _
    · exact .guard fun _ => .pause fun _ _ => Nat.zero_lt_one
  | tap target => exact .bind (directly_permanent rules ctx target) fun _ => .andDone _
  | untap target => exact .bind (directly_permanent rules ctx target) fun _ => .andDone _
  | addCounters target kind amount =>
    refine .bind (directly_count rules ctx amount) fun n => ?_
    exact .bind (directly_object ctx target) fun _ => .andDone _
  | removeCounters target kind amount =>
    refine .bind (directly_count rules ctx amount) fun n => ?_
    exact .bind (directly_object ctx target) fun _ => .andDone _

theorem RemovalEffect.counts_resolve (e : RemovalEffect) :
    Poses (fun g => g.seats = n) (e.resolve rules ctx) (Fewer n (e.questions n)) := by
  cases e with
  | destroy target => exact .bind (directly_permanent rules ctx target) fun _ => .andDone _
  | destroyAll f => exact .andDone _
  | exile target =>
    refine .bind (directly_object ctx target) fun o => ?_
    exact .bind ((direct_requireCard o).of_pre fun _ _ => trivial) fun _ => .andDone _
  | returnToHand target =>
    refine .bind (directly_object ctx target) fun o => ?_
    refine .bind ((direct_requireCard o).of_pre fun _ _ => trivial) fun _ => ?_
    exact .look fun g _ _ => .guard fun _ => .andDone _
  | sacrifice players f count =>
    refine .bind (directly_count rules ctx count) fun total => ?_
    refine .bind (directly_players rules ctx players) fun seats => ?_
    exact PlayerChoice.counts_start _ seats

theorem DamageEffect.counts_resolve (e : DamageEffect) {P : Game → Prop} :
    Poses P (e.resolve rules ctx) (Fewer n e.questions) := by
  cases e with
  | divide amount =>
    refine .bind (directly_amount rules ctx amount) fun total => .ite ?_ ?_
    · intro hdivided
      split
      · exact .throw _
      · exact .andDone _
    · intro hundivided
      split
      · exact .done
      · exact .andDone _
      · exact .guard fun _ => .pause fun _ _ => Nat.zero_lt_one
  | deal target amount =>
    refine .bind (directly_amount rules ctx amount) fun n => ?_
    exact .bind (directly_object ctx target) fun _ => .andDone _
  | gainLife players amount =>
    refine .bind (directly_amount rules ctx amount) fun n => ?_
    exact .bind (directly_players rules ctx players) fun _ => .andDone _
  | loseLife players amount =>
    refine .bind (directly_amount rules ctx amount) fun n => ?_
    exact .bind (directly_players rules ctx players) fun _ => .andDone _

theorem LibraryEffect.counts_resolve (e : LibraryEffect) :
    Poses (fun g => g.seats = n) (e.resolve rules ctx) (Fewer n (e.questions n)) := by
  cases e with
  | draw players count =>
    refine .bind (directly_count rules ctx count) fun total => ?_
    exact .bind (directly_players rules ctx players) fun _ => .andDone _
  | discard players count =>
    refine .bind (directly_count rules ctx count) fun total => ?_
    refine .bind (directly_players rules ctx players) fun seats => ?_
    exact PlayerChoice.counts_start _ seats
  | discardAtRandom players count =>
    refine .bind (directly_count rules ctx count) fun total => ?_
    exact .bind (directly_players rules ctx players) fun _ => .andDone _
  | mill players count =>
    refine .bind (directly_count rules ctx count) fun total => ?_
    exact .bind (directly_players rules ctx players) fun _ => .andDone _
  | shuffle players => exact .bind (directly_players rules ctx players) fun _ => .andDone _
  | scry count =>
    refine .bind (directly_count rules ctx count) fun total => .look fun g _ _ => ?_
    split
    · exact .done
    · exact .pause fun _ _ => Nat.zero_lt_one
  | reorderTop count =>
    refine .bind (directly_count rules ctx count) fun total => .look fun g _ _ => .ite ?_ ?_
    · intro hshort
      exact .done
    · intro hlong
      exact .pause fun _ _ => Nat.zero_lt_one
  | search f count destination tapped =>
    refine .look fun g _ _ => .ite ?_ ?_
    · intro hnone
      exact .andDone _
    · intro hsome
      exact .pause fun _ _ => Nat.zero_lt_one
  | separate count separator =>
    refine .bind (directly_count rules ctx count) fun total => .look fun g _ _ => ?_
    split
    · exact .done
    · refine .bind (directly_players rules ctx separator) fun players => ?_
      split
      · exact .throw _
      · exact .bind (.emit rfl) fun _ => .pause fun _ _ => Nat.one_lt_two
  | createToken token count controllers =>
    refine .bind (directly_count rules ctx count) fun total => ?_
    exact .bind (directly_players rules ctx controllers) fun _ => .andDone _

/-- Paying asks at most what to pay with. -/
theorem Cost.counts_pay (payer : Seat) (cost : Cost) {P : Game → Prop} :
    Poses P (cost.pay rules ctx payer) (Fewer n 1) := by
  have hfrom (options : List ObjectId) (count : Nat) (cost : Cost) {P : Game → Prop} :
      Poses P (cost.payFrom rules ctx payer options count) (Fewer n 1) := by
    refine .ite ?_ ?_
    · intro hforced
      exact .andDone _
    · intro hchoice
      exact .pause fun _ _ => Nat.zero_lt_one
  cases cost with
  | life amount => exact .andDone _
  | discard count => exact .look fun g _ _ => hfrom _ _ _
  | sacrifice f count => exact .view fun g _ _ => hfrom _ _ _

namespace Effect

theorem questions_rest (es : List Effect) (ctx : Context) :
    Group.questions n (Stop.rest es ctx) ≤ questionsOfAll n es := by
  unfold Stop.rest
  split
  · exact Nat.zero_le _
  · simp [Group.questions]

mutual

/-- An effect stops within the questions that it may put. -/
theorem within_plan (e : Effect) (ctx : Context) : Within n (plan rules e ctx) (e.questions n) := by
  cases e with
  | continuous e => exact .of_poses e.counts_resolve
  | permanent e => exact .of_poses e.counts_resolve
  | removal e => exact .of_poses e.counts_resolve
  | damage e => exact .of_poses e.counts_resolve
  | library e => exact .of_poses e.counts_resolve
  | composite es => exact within_planAll es ctx
  | conditional c yes no =>
    refine .view fun v => .ite ?_ ?_
    · exact (within_plan yes ctx).mono (Nat.le_max_left _ _)
    · exact (within_planOption no ctx).mono (Nat.le_max_right _ _)
  | may prompt e => exact .of_poses (.pause fun _ _ => Nat.lt_succ_self _)
  | modal modes fewest most =>
    refine .of_poses (.ite ?_ ?_)
    · intro hempty
      exact .done
    · intro hsome
      exact .pause fun _ _ => Nat.lt_succ_self _
  | payOrSuffer selector cost suffer =>
    refine .view fun v => ?_
    split
    · exact .none
    · refine .ite ?_ ?_
      · exact .of_poses (.pause fun _ _ => Nat.lt_succ_self _)
      · refine (within_plan suffer ctx).mono ?_
        simp only [questions]
        omega
  | chooseTargets spec e =>
    refine .view fun v => ?_
    split
    · exact .none
    · exact (within_plan e _).mono (Nat.le_succ _)
    · exact .of_poses (.pause fun _ _ => Nat.lt_succ_self _)
  | eachPlayerChooses selector choice =>
    refine .of_poses (.bind (directly_players rules ctx selector) fun players => ?_)
    exact (choice.counts_start players).of_pre fun _ h => h

theorem within_planOption (e : Option Effect) (ctx : Context) :
    Within n (planOption rules e ctx) (questionsOfOption n e) := by
  cases e with
  | none => exact .none
  | some e => exact within_plan e ctx

theorem within_planAll (es : List Effect) (ctx : Context) :
    Within n (planAll rules es ctx) (questionsOfAll n es) := by
  cases es with
  | nil => exact .none
  | cons e rest =>
    exact .followedBy (e.directly_plan ctx fun _ _ => trivial) (within_plan e ctx)
      (within_planAll rest ctx) (questions_rest rest ctx)

end

end Effect

namespace Suspension

private theorem questionsOfAll_eq_sum (es : List Effect) :
    Effect.questionsOfAll n es = (es.map (Effect.questions n)).sum := by
  induction es with
  | nil => rfl
  | cons e rest ih => rw [Effect.questionsOfAll, ih, List.map_cons, List.sum_cons]

private theorem questionsOfModes_eq_sum (modes : List Mode) :
    Effect.questionsOfModes n modes = (modes.map fun mode => mode.2.questions n).sum := by
  induction modes with
  | nil => rfl
  | cons mode rest ih => rw [Effect.questionsOfModes, ih, List.map_cons, List.sum_cons]

/-- Every mode can be chosen once, so the chosen modes put at most the questions of all. -/
theorem questions_modeEffects {modes : List Mode} {chosen : List Nat} {es : List Effect}
    (hnodup : chosen.Nodup) (h : modeEffects modes chosen = .ok es) :
    Effect.questionsOfAll n es ≤ Effect.questionsOfModes n modes := by
  rw [questionsOfAll_eq_sum, questionsOfModes_eq_sum]
  exact sum_modeEffects_le (Effect.questions n) hnodup h

private theorem within_wrongAnswer (expected actual : String) (w : Nat) :
    Within n (stopAt (throw (.wrongAnswer expected actual))) w :=
  .of_poses (.throw _)

/-- Going on with simple work puts fewer questions than the work was good for, or none. -/
theorem counts_resume {work : Suspension} (hsimple : work.isSimple = true) (d : Decision)
    (answer : Answer) : Poses (fun g => g.seats = n) (work.resume rules d answer)
      (Fewer n (work.questions n)) := by
  cases work with
  | search player destination tapped =>
    cases answer with
    | cards chosen => exact .of_quiet (.bind _ fun _ => .bind _ fun _ => .done)
    | _ => exact .throw _
  | scry player =>
    cases answer with
    | cards chosen => exact .of_quiet (.bind _ fun _ => .bind _ fun _ => .done)
    | _ => exact .throw _
  | reorder player =>
    cases answer with
    | order objects => exact .of_quiet (quiet_finishReorder _ _)
    | _ => exact .throw _
  | separatePiles chooser revealed source =>
    cases answer with
    | firstPile pile => exact .pause fun _ _ => Nat.zero_lt_one
    | _ => exact .throw _
  | choosePile player first second =>
    cases answer with
    | option index => exact .of_quiet (quiet_takePile _ _ _ _ _)
    | _ => exact .throw _
  | payCost payer cost =>
    cases answer with
    | cards chosen => exact .andDone _
    | _ => exact .throw _
  | chooseColor target duration ctx =>
    cases answer with
    | color color => exact .of_quiet (quiet_protect _ _ _ _ _)
    | _ => exact .throw _
  | distributeCounters kind ctx =>
    cases answer with
    | distribution shares => exact .andDone _
    | _ => exact .throw _
  | divideDamage ctx =>
    cases answer with
    | distribution shares => exact .andDone _
    | _ => exact .throw _
  | eachPlayerChooses choice current remaining picks ctx =>
    simp only [resume]
    split
    · exact .throw _
    · exact choice.counts_goOn remaining _
  | effects remaining ctx => exact .throw _
  | _ => cases hsimple

/-- Work that goes on stops within the questions that were still to come from it. -/
theorem within_plan (work : Suspension) (d : Decision) (answer : Answer) :
    Within n (work.plan rules d answer) (work.questions n) := by
  cases work with
  | may effect ctx =>
    cases answer with
    | yesNo yes => exact .ite (effect.within_plan ctx) .none
    | _ => exact within_wrongAnswer _ _ _
  | modal modes ctx =>
    cases answer with
    | modes chosen =>
      cases hmodes : modeEffects modes (SortedSet.ofList chosen).toList with
      | error failure =>
        simp only [plan, hmodes]
        exact .throw _
      | ok es =>
        simp only [plan, hmodes]
        have hquestions := questions_modeEffects (n := n) (SortedMap.keys_nodup _) hmodes
        have hemit : Directly (fun _ => True) (fun _ => True)
            (Resolve.emit (.modesChosen d.player (SortedSet.ofList chosen).toList))
            fun _ _ => True := .emit rfl
        exact .bind hemit fun _ => (Effect.within_planAll es ctx).mono hquestions
    | _ => exact within_wrongAnswer _ _ _
  | payOrSuffer payer cost suffer ctx =>
    cases answer with
    | yesNo yes =>
      have hsuffer : Within n (suffer.plan rules ctx)
          (questions n (.payOrSuffer payer cost suffer ctx)) :=
        (suffer.within_plan ctx).mono (Nat.le_max_right _ _)
      have hpay : Within n (stopAt (cost.pay rules ctx payer))
          (questions n (.payOrSuffer payer cost suffer ctx)) :=
        (Within.of_poses (Cost.counts_pay payer cost)).mono (Nat.le_max_left _ _)
      exact .ite (.view fun v => .ite hpay hsuffer) hsuffer
    | _ => exact within_wrongAnswer _ _ _
  | chooseTargets effect ctx =>
    cases answer with
    | targets chosen => exact effect.within_plan _
    | _ => exact within_wrongAnswer _ _ _
  | _ =>
    rw [plan_of_simple rfl]
    exact .of_poses (counts_resume rfl d answer)

end Suspension

end CardGame
