import CardGame.Proofs.Resolve.Plan
import CardGame.Proofs.Resolve.Stakes
import CardGame.Proofs.Seat

/-!
What is asked while effects are resolved. Every question is fair and goes with the work that waits
for the answer, and everything at stake is in order when it is put. `Resolve.Poses` follows a part
of a resolution to its question, and `Resolve.Stops` a plan.
-/

namespace CardGame

/-- Suspended work awaits the answer to a fair question that goes with it, and everything at stake
is in order. If what was picked before stood, it still does. -/
structure Suspension.Awaits (stood : Prop) (work : Suspension) (q : Question) (g : Game) :
    Prop where
  fair : q.Fair
  consumes : work.Consumes q
  holds : work.Holds q g
  commands : work.Commands q g
  stand : stood → work.PicksStand g

/-- Whether a request is in order. -/
abbrev Request.Proper (stood : Prop) (r : Request) (g : Game) : Prop :=
  r.work.Awaits stood r.question g

namespace Resolve

open Progress

variable {α : Type} {P P' : Game → Prop} {Q : Request → Game → Prop}

/-- A part that asks for nothing. -/
def Quiet (r : Resolve Outcome) : Prop :=
  ∀ (p q : Progress) (d : Decision), r p ≠ .ok (.paused d, q)

namespace Quiet

theorem done : Quiet (pure .done) := fun _ _ _ h => by cases h

protected theorem throw (failure : Failure) : Quiet (throw failure) := fun _ _ _ h => by cases h

protected theorem bind (m : Resolve α) {k : α → Resolve Outcome} (hk : ∀ a, Quiet (k a)) :
    Quiet (m >>= k) := by
  intro p q d h
  obtain ⟨a, s, -, hrest⟩ := bind_eq_ok h
  exact hk a s q d hrest

theorem ite {c : Prop} [Decidable c] {r r' : Resolve Outcome} (hyes : Quiet r) (hno : Quiet r') :
    Quiet (if c then r else r') := by
  split
  · exact hyes
  · exact hno

end Quiet

/-- When the part asks for something, that satisfies `Q`. -/
structure Poses (P : Game → Prop) (r : Resolve Outcome) (Q : Request → Game → Prop) : Prop where
  poses : ∀ {p q : Progress} {request : Request}, p.game.Sound → P p.game →
    heldBack r p = .ok (some request, q) → Q request q.game

/-- Holding back a question does not touch what was done before it. -/
theorem heldBack_bind {R : α → Game → Prop} {m : Resolve α} {k : α → Resolve Outcome}
    (hm : Directly (fun _ => True) P m R) {p : Progress} (hsound : p.game.Sound)
    (hp : P p.game) : heldBack (m >>= k) p = (m p).bind fun r => heldBack (k r.1) r.2 := by
  cases hrun : m p with
  | error failure =>
    unfold heldBack
    rw [bind_apply, hrun]
    rfl
  | ok result =>
    obtain ⟨a, s⟩ := result
    have hcontrol := (hm.runs hsound hp hrun).1.sameControl
    unfold heldBack
    rw [bind_apply, hrun]
    simp only [Except.bind, hcontrol.stack, hcontrol.pending, hcontrol.nextDecision]

namespace Poses

theorem of_quiet {r : Resolve Outcome} (h : Quiet r) : Poses P r Q := by
  refine ⟨fun {p q request} _ _ hheld => ?_⟩
  unfold heldBack at hheld
  split at hheld
  · cases hheld
  · cases hheld
  · next hrun => exact absurd hrun (h _ _ _)

theorem done : Poses P (pure .done) Q := .of_quiet .done

protected theorem throw (failure : Failure) : Poses P (throw failure) Q := .of_quiet (.throw _)

theorem andDone (m : Resolve α) : Poses P (m >>= fun _ => pure .done) Q :=
  .of_quiet (.bind m fun _ => .done)

protected theorem pause {player : Seat} {prompt : String} {question : Question}
    {source : Option ObjectId} {work : Suspension}
    (hQ : ∀ {g : Game}, g.Sound → P g → Q ⟨player, prompt, question, source, work⟩ g) :
    Poses P (pause player prompt question source work) Q := by
  refine ⟨fun {p q request} hsound hp h => ?_⟩
  cases h
  exact hQ hsound hp

protected theorem bind {R : α → Game → Prop} {m : Resolve α} {k : α → Resolve Outcome}
    (hm : Directly (fun _ => True) P m R) (hk : ∀ a, Poses (R a) (k a) Q) :
    Poses P (m >>= k) Q := by
  refine ⟨fun {p q request} hsound hp h => ?_⟩
  rw [heldBack_bind hm hsound hp] at h
  cases hrun : m p with
  | error failure =>
    rw [hrun] at h
    cases h
  | ok result =>
    obtain ⟨a, s⟩ := result
    rw [hrun] at h
    obtain ⟨hchanges, hR⟩ := hm.runs hsound hp hrun
    exact (hk a).poses (hchanges.sound hsound) hR h

/-- A part that goes by what it reads of the game. -/
theorem look {k : Game → Resolve Outcome}
    (hk : ∀ g, g.Sound → P g → Poses (fun h => h = g) (k g) Q) : Poses P (game >>= k) Q :=
  ⟨fun {p _ _} hsound hp h => (hk p.game hsound hp).poses hsound rfl h⟩

/-- A part that goes by what it sees of the game after continuous effects. -/
theorem view {rules : Rules} {k : View → Resolve Outcome}
    (hk : ∀ g, g.Sound → P g → Poses (fun h => h = g) (k (rules.view g)) Q) :
    Poses P (Resolve.view rules >>= k) Q :=
  ⟨fun {p _ _} hsound hp h => (hk p.game hsound hp).poses hsound rfl h⟩

theorem ite {c : Prop} [Decidable c] {r r' : Resolve Outcome} (hyes : c → Poses P r Q)
    (hno : ¬c → Poses P r' Q) : Poses P (if c then r else r') Q := by
  split
  · next h => exact hyes h
  · next h => exact hno h

/-- A part that is turned down if a condition holds. -/
theorem guard {c : Prop} [Decidable c] {failure : Failure} {r : Resolve Outcome}
    (hr : ¬c → Poses P r Q) :
    Poses P (if c then (throw failure : Resolve PUnit) >>= fun _ => r else r) Q := by
  apply ite
  · intro hturned
    exact ⟨fun _ _ h => by cases h⟩
  · exact hr

/-- What is true of the game may be taken for granted. -/
theorem assuming {r : Resolve Outcome}
    (h : ∀ g, g.Sound → P g → Poses (fun h => h = g) r Q) : Poses P r Q :=
  ⟨fun {p _ _} hsound hp hr => (h p.game hsound hp).poses hsound rfl hr⟩

theorem of_pre {r : Resolve Outcome} (h : Poses P r Q) (hP : ∀ {g : Game}, g.Sound → P' g → P g) :
    Poses P' r Q :=
  ⟨fun hsound hp hr => h.poses hsound (hP hsound hp) hr⟩

end Poses

/-- Where the plan stops, it asks for something that satisfies `Q`. -/
structure Stops (P : Game → Prop) (plan : Resolve (Option Stop)) (Q : Request → Game → Prop) :
    Prop where
  stops : ∀ {p q : Progress} {stop : Stop}, p.game.Sound → P p.game →
    plan p = .ok (some stop, q) → Q stop.request q.game

namespace Stops

theorem none : Stops P (pure none) Q :=
  ⟨fun _ _ h => by cases h⟩

protected theorem throw (failure : Failure) : Stops P (throw failure) Q :=
  ⟨fun _ _ h => by cases h⟩

protected theorem bind {R : α → Game → Prop} {m : Resolve α} {k : α → Resolve (Option Stop)}
    (hm : Directly (fun _ => True) P m R) (hk : ∀ a, Stops (R a) (k a) Q) :
    Stops P (m >>= k) Q := by
  refine ⟨fun {p q stop} hsound hp h => ?_⟩
  obtain ⟨a, s, hrun, hrest⟩ := bind_eq_ok h
  obtain ⟨hchanges, hR⟩ := hm.runs hsound hp hrun
  exact (hk a).stops (hchanges.sound hsound) hR hrest

theorem of_poses {r : Resolve Outcome} (h : Poses P r Q) : Stops P (stopAt r) Q := by
  refine ⟨fun {p q stop} hsound hp hstop => ?_⟩
  obtain ⟨request, hheld, rfl⟩ := stopAt_eq_some hstop
  exact h.poses hsound hp hheld

theorem view {rules : Rules} {k : View → Resolve (Option Stop)}
    (hk : ∀ g, g.Sound → P g → Stops (fun h => h = g) (k (rules.view g)) Q) :
    Stops P (Resolve.view rules >>= k) Q :=
  ⟨fun {p _ _} hsound hp h => (hk p.game hsound hp).stops hsound rfl h⟩

theorem ite {c : Prop} [Decidable c] {r r' : Resolve (Option Stop)} (hyes : c → Stops P r Q)
    (hno : ¬c → Stops P r' Q) : Stops P (if c then r else r') Q := by
  split
  · next h => exact hyes h
  · next h => exact hno h

theorem of_pre {plan : Resolve (Option Stop)} (h : Stops P plan Q)
    (hP : ∀ {g : Game}, g.Sound → P' g → P g) : Stops P' plan Q :=
  ⟨fun hsound hp hr => h.stops hsound (hP hsound hp) hr⟩

theorem followedBy {r next : Resolve (Option Stop)} {groups : List Group}
    (hdirect : Directly (fun _ => True) P r Stopping) (hr : Stops P r Q)
    (hnext : Stops (fun _ => True) next Q) : Stops P (r.followedBy next groups) Q := by
  refine ⟨fun {p q stop} hsound hp h => ?_⟩
  obtain ⟨s, hrun, hrest⟩ | ⟨first, hrun, hstop⟩ := followedBy_eq_ok h
  · exact hnext.stops ((hdirect.runs hsound hp hrun).1.sound hsound) trivial hrest
  · have hfirst := hr.stops hsound hp hrun
    cases hstop
    exact hfirst

end Stops

/-- Past the requirements all the objects are in zones of the kind. -/
theorem directly_requireAllIn (os : List ObjectId) (kind : ZoneKind) :
    Directly (fun _ => True) P (os.forM fun o => requireIn o kind) fun _ g =>
      P g ∧ ∀ o ∈ os, g.zones.isIn o kind = true := by
  induction os generalizing P with
  | nil => exact .pure _ fun hp => ⟨hp, by simp⟩
  | cons o rest ih =>
    refine .bind (directly_requireIn o kind) fun _ => ih.mono (fun _ h => h) ?_
    rintro - g - ⟨⟨hp, hfirst⟩, hrest⟩
    refine ⟨hp, fun o' ho' => ?_⟩
    rcases List.mem_cons.mp ho' with rfl | hmem
    · exact hfirst
    · exact hrest o' hmem

end Resolve

open Resolve

variable {P : Game → Prop} {stood : Prop}

namespace PlayerChoice

variable {rules : Rules} {ctx : Context} {choice : PlayerChoice} {s : Seat} {g : Game}

/-- A player may sacrifice those permanents that the filter accepts when the player uses it and that
the player controls as they are projected. -/
theorem mem_sacrificeOptions_iff {v : View} {f : ObjectFilter} {o : ObjectId} :
    o ∈ sacrificeOptions v ctx f s ↔ o ∈ v.game.battlefield ∧
      v.accepts f (ctx.forPlayer s).forFilter o = true ∧
      v.projection.bind (·.controller? o) = some s := by
  rw [sacrificeOptions, View.permanents, View.select, List.mem_filter, List.mem_filter, and_assoc,
    decide_eq_true_eq]

/-- What a player may pick from. -/
def options (v : View) (ctx : Context) (s : Seat) : PlayerChoice → List ObjectId
  | .discard _ => v.game.hand s
  | .sacrifice f _ => sacrificeOptions v ctx f s
  | .creatureType => []

/-- What a player may pick from lies in the hand, or it is a permanent that the filter accepts when
the player uses it and that the player controls, whatever the rules are. -/
theorem mem_options_iff (hsound : g.Sound) {o : ObjectId} :
    o ∈ choice.options (rules.view g) ctx s ↔
      match choice with
      | .discard _ => g.zone? o = some (.hand s)
      | .sacrifice f _ => o ∈ g.battlefield ∧
        (rules.view g).accepts f (ctx.forPlayer s).forFilter o = true ∧ g.Controls s o
      | .creatureType => False := by
  cases choice with
  | discard n => exact hsound.housed.consistent.mem_objects_iff
  | sacrifice f n =>
    refine mem_sacrificeOptions_iff.trans (and_congr_right fun _ => and_congr_right fun _ => ?_)
    exact ⟨Game.controls_of_project, fun hcontrols => hcontrols rules⟩
  | creatureType => exact List.mem_nil_iff o

private theorem askObjects_decide {objects : List ObjectId} {count : Nat} {what prompt : String}
    {question : Question} (h : askObjects objects count what = .decide prompt question) :
    question = .cards objects count count false ∧ count < objects.length := by
  unfold askObjects at h
  split at h
  · cases h
  · split at h
    · cases h
    · next hmore =>
      cases h
      exact ⟨rfl, Nat.lt_of_not_le hmore⟩

private theorem askObjects_forced {objects os : List ObjectId} {count : Nat} {what : String}
    (h : askObjects objects count what = .forced (.objects os)) : os = objects := by
  unfold askObjects at h
  split at h
  · cases h
  · split at h <;> cases h
    rfl

theorem nodup_options (rules : Rules) (ctx : Context) (choice : PlayerChoice) (s : Seat)
    (hsound : g.Sound) : (choice.options (rules.view g) ctx s).Nodup := by
  cases choice with
  | discard count => exact hsound.housed.consistent.nodup_objects _
  | sacrifice f count => exact ((hsound.housed.nodup_allOf .battlefield).filter _).filter _
  | creatureType => exact List.nodup_nil

/-- What a player may pick from is where the choice looks for it. -/
theorem grants_options (rules : Rules) (ctx : Context) (choice : PlayerChoice) (s : Seat)
    (hsound : g.Sound) : choice.Grants s (choice.options (rules.view g) ctx s) g := by
  refine ⟨nodup_options rules ctx choice s hsound, fun place hplace o ho => ?_⟩
  rw [mem_options_iff hsound] at ho
  cases choice with
  | discard count =>
    cases hplace
    exact Game.liesAt_within_iff.mpr ho
  | sacrifice f count =>
    cases hplace
    exact Game.liesAt_battlefield_iff.mpr (hsound.housed.onBattlefield_of_mem ho.1)
  | creatureType => cases hplace

theorem commands_options (rules : Rules) (ctx : Context) (choice : PlayerChoice) (s : Seat)
    (g : Game) : choice.Commands s (choice.options (rules.view g) ctx s) g := by
  cases choice with
  | sacrifice f count =>
    intro o ho
    exact Game.controls_of_project (mem_sacrificeOptions_iff.mp ho).2.2
  | _ => trivial

/-- Whoever is asked is asked a fair question about what there is to pick from. -/
theorem ask_decide {prompt : String} {question : Question} (hsound : g.Sound)
    (h : choice.ask (rules.view g) ctx s = .decide prompt question) :
    question.Fair ∧ choice.Consumes question ∧
      question.objects = choice.options (rules.view g) ctx s := by
  have hnodup := nodup_options rules ctx choice s hsound
  cases choice with
  | discard count =>
    obtain ⟨rfl, hmore⟩ := askObjects_decide h
    exact ⟨⟨hnodup, Nat.le_refl _, Nat.le_of_lt hmore⟩, trivial, rfl⟩
  | sacrifice f count =>
    obtain ⟨rfl, hmore⟩ := askObjects_decide h
    exact ⟨⟨hnodup, Nat.le_refl _, Nat.le_of_lt hmore⟩, trivial, rfl⟩
  | creatureType =>
    simp only [ask] at h
    split at h
    · cases h
    · cases h
    · next hnone _ =>
      cases h
      refine ⟨?_, trivial, rfl⟩
      intro hempty
      exact hnone (List.map_eq_nil_iff.mp hempty)

/-- Whoever has to pick objects without being asked picks all there are. -/
theorem ask_forced {v : View} {os : List ObjectId}
    (h : choice.ask v ctx s = .forced (.objects os)) : os = choice.options v ctx s := by
  cases choice with
  | discard count => exact askObjects_forced h
  | sacrifice f count => exact askObjects_forced h
  | creatureType =>
    simp only [ask] at h
    split at h <;> cases h

/-- The round goes past players whose pick is forced, to its end or to a player who is asked. -/
theorem gather_cases (v : View) (ctx : Context) (choice : PlayerChoice) (players : List Seat)
    (picks : List (Seat × Pick)) :
    ∃ forced : List (Seat × Pick), (∀ p ∈ forced, choice.ask v ctx p.1 = .forced p.2) ∧
      ((players = forced.map (·.1) ∧
          gather v ctx choice players picks = .complete (picks ++ forced)) ∨
        ∃ s rest prompt question, players = forced.map (·.1) ++ s :: rest ∧
          choice.ask v ctx s = .decide prompt question ∧
          gather v ctx choice players picks =
            .stopped (picks ++ forced) s rest prompt question) := by
  induction players generalizing picks with
  | nil => exact ⟨[], by simp, Or.inl ⟨rfl, by rw [gather, List.append_nil]⟩⟩
  | cons s rest ih =>
    rw [gather]
    cases hask : choice.ask v ctx s with
    | forced pick =>
      obtain ⟨forced, hforced, hround⟩ := ih (picks ++ [(s, pick)])
      refine ⟨(s, pick) :: forced, ?_, ?_⟩
      · intro p hp
        rcases List.mem_cons.mp hp with rfl | hmem
        · exact hask
        · exact hforced p hmem
      · simpa [List.append_assoc] using hround
    | decide prompt question =>
      refine ⟨[], by simp, Or.inr ⟨s, rest, prompt, question, rfl, hask, ?_⟩⟩
      rw [List.append_nil]

variable {players : List Seat} {picks : List (Seat × Pick)}

/-- What has been picked so far is where the choice looks for it, and if what was picked before
stood, it still does. -/
structure Picked (stood : Prop) (choice : PlayerChoice) (picks : List (Seat × Pick)) (g : Game) :
    Prop where
  grants : ∀ s os, (s, .objects os) ∈ picks → choice.Grants s os g
  commands : stood → ∀ s os, (s, .objects os) ∈ picks → choice.Commands s os g

theorem picked_nil : choice.Picked stood [] g := ⟨by simp, by simp⟩

theorem Picked.forced {forced : List (Seat × Pick)} (h : choice.Picked stood picks g)
    (hsound : g.Sound)
    (hforced : ∀ p ∈ forced, choice.ask (rules.view g) ctx p.1 = .forced p.2) :
    choice.Picked stood (picks ++ forced) g where
  grants s os hmem := by
    rcases List.mem_append.mp hmem with hold | hnew
    · exact h.grants s os hold
    · rw [ask_forced (hforced _ hnew)]
      exact grants_options rules ctx choice s hsound
  commands hstood s os hmem := by
    rcases List.mem_append.mp hmem with hold | hnew
    · exact h.commands hstood s os hold
    · rw [ask_forced (hforced _ hnew)]
      exact commands_options rules ctx choice s g

theorem poses_goOn (rules : Rules) (ctx : Context) (choice : PlayerChoice)
    (honce : (picks.map (·.1) ++ players).Nodup) :
    Poses (choice.Picked stood picks) (choice.goOn rules ctx players picks)
      (Request.Proper stood) := by
  refine .view fun g hsound hpicked => ?_
  obtain ⟨forced, hforced, ⟨-, hround⟩ | ⟨s, rest, prompt, question, rfl, hask, hround⟩⟩ :=
    gather_cases (rules.view g) ctx choice players picks
  · rw [hround]
    exact .andDone _
  · have hpicks := hpicked.forced hsound hforced
    have hplaced := (grants_options rules ctx choice s hsound).placed
    have hcommands := commands_options rules ctx choice s g
    obtain ⟨hfair, hconsumes, hobjects⟩ := ask_decide hsound hask
    rw [← hobjects] at hplaced hcommands
    rw [← List.append_assoc, ← List.map_append] at honce
    rw [hround]
    refine .pause ?_
    rintro h - rfl
    exact {
      fair := hfair
      consumes := hconsumes
      holds := ⟨hplaced, honce, hpicks.grants⟩
      commands := hcommands
      stand := hpicks.commands }

theorem poses_start (rules : Rules) (ctx : Context) (choice : PlayerChoice)
    (players : List Seat) :
    Poses P (choice.start rules ctx players) (Request.Proper stood) := by
  refine .look fun g hsound _ => ?_
  have honce := Seat.nodup_turnOrder hsound.housed.seated g.turn.active
  exact (poses_goOn rules ctx choice (honce.filter _)).of_pre fun _ _ => picked_nil

end PlayerChoice

namespace ContinuousEffect

theorem poses_onPermanent (rules : Rules) (ctx : Context) (target : Reference)
    (changes : List Modification) (duration : Duration) {Q : Request → Game → Prop} :
    Poses P (onPermanent rules ctx target changes duration) Q :=
  .bind (directly_permanent rules ctx target) fun _ => .andDone _

theorem poses_onGroup (rules : Rules) (ctx : Context) (f : ObjectFilter) (change : Modification)
    (duration : Duration) {Q : Request → Game → Prop} :
    Poses P (onGroup rules ctx f change duration) Q := by
  refine .view fun g _ _ => .ite ?_ ?_
  · intro hsome
    exact .andDone _
  · intro hnone
    exact .done

theorem poses_resolve (rules : Rules) (ctx : Context) (e : ContinuousEffect) :
    Poses P (e.resolve rules ctx) (Request.Proper stood) := by
  cases e with
  | modifyStats target power toughness duration =>
    refine .bind (directly_amount rules ctx power) fun p => ?_
    refine .bind (directly_amount rules ctx toughness) fun t => ?_
    exact poses_onPermanent rules ctx target _ duration
  | modifyGroup f power toughness duration =>
    refine .bind (directly_amount rules ctx power) fun p => ?_
    refine .bind (directly_amount rules ctx toughness) fun t => ?_
    exact poses_onGroup rules ctx f _ duration
  | grantKeywordToGroup f keyword duration => exact poses_onGroup rules ctx f _ duration
  | protectFromColor target duration =>
    refine .bind (directly_permanent rules ctx target) fun found => .pause fun _ _ => ?_
    exact ⟨by simp [Question.Fair, Color.all], trivial, ⟨by simp [Suspension.place?], trivial⟩,
      trivial, fun _ => trivial⟩
  | _ => exact poses_onPermanent rules ctx _ _ _

end ContinuousEffect

namespace PermanentEffect

theorem poses_distribute (ctx : Context) (kind : CounterKind) (total : Nat) :
    Poses P (distribute ctx kind total) (Request.Proper stood) := by
  refine .bind (directly_requireAllIn ctx.targets .battlefield) fun _ => ?_
  split
  · exact .done
  · exact .andDone _
  · next hsome _ =>
    refine .guard fun henough => .pause fun _ hplaced => ?_
    exact {
      fair := Question.fair_distribution hsome (Nat.le_of_not_lt henough)
      consumes := trivial
      holds := by
        refine ⟨fun place hplace o ho => ?_, trivial⟩
        cases hplace
        exact Game.liesAt_battlefield_iff.mpr (hplaced.2 o ho)
      commands := trivial
      stand := fun _ => trivial }

theorem poses_resolve (rules : Rules) (ctx : Context) (e : PermanentEffect) :
    Poses P (e.resolve rules ctx) (Request.Proper stood) := by
  cases e with
  | tap target => exact .bind (directly_permanent rules ctx target) fun _ => .andDone _
  | untap target => exact .bind (directly_permanent rules ctx target) fun _ => .andDone _
  | addCounters target kind amount =>
    refine .bind (directly_count rules ctx amount) fun n => ?_
    exact .bind (directly_object ctx target) fun _ => .andDone _
  | removeCounters target kind amount =>
    refine .bind (directly_count rules ctx amount) fun n => ?_
    exact .bind (directly_object ctx target) fun _ => .andDone _
  | distributeCounters kind amount =>
    refine .bind (directly_count rules ctx amount) fun n => ?_
    exact poses_distribute ctx kind n

end PermanentEffect

theorem RemovalEffect.poses_resolve (rules : Rules) (ctx : Context) (e : RemovalEffect) :
    Poses P (e.resolve rules ctx) (Request.Proper stood) := by
  cases e with
  | destroy target => exact .bind (directly_permanent rules ctx target) fun _ => .andDone _
  | destroyAll f => exact .andDone _
  | exile target =>
    refine .bind (directly_object ctx target) fun o => ?_
    exact .bind ((direct_requireCard o).of_pre fun _ _ => trivial) fun _ => .andDone _
  | returnToHand target =>
    refine .bind (directly_object ctx target) fun o => ?_
    refine .bind ((direct_requireCard o).of_pre fun _ _ => trivial) fun _ => ?_
    exact .look fun g _ _ => .guard fun _ => .andDone _
  | sacrifice players f count =>
    refine .bind (directly_count rules ctx count) fun n => ?_
    refine .bind (directly_players rules ctx players) fun seats => ?_
    exact PlayerChoice.poses_start rules ctx _ seats

namespace DamageEffect

theorem poses_divideAmong (rules : Rules) (ctx : Context) (total : Int) :
    Poses P (divideAmong rules ctx total) (Request.Proper stood) := by
  refine .ite ?_ ?_
  · intro hdivided
    split
    · exact .throw _
    · exact .andDone _
  · intro hundivided
    split
    · exact .done
    · exact .andDone _
    · next hsome _ =>
      refine .guard fun henough => .pause fun _ _ => ?_
      exact {
        fair := Question.fair_distribution hsome (Nat.le_of_not_lt henough)
        consumes := trivial
        holds := ⟨by simp [Suspension.place?], trivial⟩
        commands := trivial
        stand := fun _ => trivial }

theorem poses_resolve (rules : Rules) (ctx : Context) (e : DamageEffect) :
    Poses P (e.resolve rules ctx) (Request.Proper stood) := by
  cases e with
  | deal target amount =>
    refine .bind (directly_amount rules ctx amount) fun n => ?_
    exact .bind (directly_object ctx target) fun _ => .andDone _
  | divide amount =>
    refine .bind (directly_amount rules ctx amount) fun n => ?_
    exact poses_divideAmong rules ctx _
  | gainLife players amount =>
    refine .bind (directly_amount rules ctx amount) fun n => ?_
    exact .bind (directly_players rules ctx players) fun _ => .andDone _
  | loseLife players amount =>
    refine .bind (directly_amount rules ctx amount) fun n => ?_
    exact .bind (directly_players rules ctx players) fun _ => .andDone _

end DamageEffect

namespace LibraryEffect

variable {g : Game} {s : Seat} {os : List ObjectId}

/-- Cards of a library may be offered by work that expects them there. -/
private theorem placed_of_library (h : ∀ o ∈ os, g.zone? o = some (.library s)) :
    ∀ place ∈ some (Place.within (.library s)), ∀ o ∈ os, g.LiesAt o place := by
  intro place hplace o ho
  cases hplace
  exact Game.liesAt_within_iff.mpr (h o ho)

theorem poses_askScry (ctx : Context) (count : Nat) :
    Poses P (askScry ctx count) (Request.Proper stood) := by
  refine .look fun g hsound _ => ?_
  split
  · exact .done
  · refine .pause ?_
    rintro h - rfl
    exact {
      fair := ⟨hsound.housed.nodup_topOfLibrary _ _, Nat.zero_le _, Nat.zero_le _⟩
      consumes := trivial
      holds := ⟨placed_of_library fun o ho => hsound.housed.zone?_of_mem_top ho, trivial⟩
      commands := trivial
      stand := fun _ => trivial }

theorem poses_askReorder (ctx : Context) (count : Nat) :
    Poses P (askReorder ctx count) (Request.Proper stood) := by
  refine .look fun g hsound _ => .ite ?_ ?_
  · intro hshort
    exact .done
  · intro hlong
    have hsome : g.topOfLibrary ctx.controller count ≠ [] := by
      intro hempty
      simp [hempty] at hlong
    refine .pause ?_
    rintro h - rfl
    exact {
      fair := ⟨hsome, hsound.housed.nodup_topOfLibrary _ _⟩
      consumes := trivial
      holds := ⟨placed_of_library fun o ho => hsound.housed.zone?_of_mem_top ho, trivial⟩
      commands := trivial
      stand := fun _ => trivial }

theorem poses_askSearch (ctx : Context) (f : ObjectFilter) (count : Nat)
    (destination : ZoneKind) (tapped : Bool) :
    Poses P (askSearch ctx f count destination tapped) (Request.Proper stood) := by
  refine .look fun g hsound _ => .ite ?_ ?_
  · intro hnone
    exact .andDone _
  · intro hsome
    have hnodup : (g.library ctx.controller).Nodup := hsound.housed.consistent.nodup_objects _
    refine .pause ?_
    rintro h - rfl
    exact {
      fair := ⟨hnodup.filter _, Nat.zero_le _, Nat.zero_le _⟩
      consumes := trivial
      holds := by
        refine ⟨placed_of_library fun o ho => ?_, trivial⟩
        exact hsound.housed.consistent.located (List.mem_filter.mp ho).1
      commands := trivial
      stand := fun _ => trivial }

theorem poses_askSeparation (rules : Rules) (ctx : Context) (count : Nat)
    (separator : Selector) :
    Poses P (askSeparation rules ctx count separator) (Request.Proper stood) := by
  refine .look fun g hsound _ => ?_
  split
  · exact .done
  · refine .bind (directly_players rules ctx separator) fun players => ?_
    split
    · exact .throw _
    · refine .bind (.emit rfl) fun _ => .pause ?_
      rintro h - rfl
      exact {
        fair := hsound.housed.nodup_topOfLibrary _ _
        consumes := rfl
        holds := ⟨placed_of_library fun o ho => hsound.housed.zone?_of_mem_top ho, trivial⟩
        commands := trivial
        stand := fun _ => trivial }

theorem poses_resolve (rules : Rules) (ctx : Context) (e : LibraryEffect) :
    Poses P (e.resolve rules ctx) (Request.Proper stood) := by
  cases e with
  | draw players count =>
    refine .bind (directly_count rules ctx count) fun n => ?_
    exact .bind (directly_players rules ctx players) fun _ => .andDone _
  | discard players count =>
    refine .bind (directly_count rules ctx count) fun n => ?_
    refine .bind (directly_players rules ctx players) fun seats => ?_
    exact PlayerChoice.poses_start rules ctx _ seats
  | discardAtRandom players count =>
    refine .bind (directly_count rules ctx count) fun n => ?_
    exact .bind (directly_players rules ctx players) fun _ => .andDone _
  | mill players count =>
    refine .bind (directly_count rules ctx count) fun n => ?_
    exact .bind (directly_players rules ctx players) fun _ => .andDone _
  | shuffle players => exact .bind (directly_players rules ctx players) fun _ => .andDone _
  | scry count =>
    exact .bind (directly_count rules ctx count) fun n => poses_askScry ctx n
  | reorderTop count =>
    exact .bind (directly_count rules ctx count) fun n => poses_askReorder ctx n
  | search f count destination tapped => exact poses_askSearch ctx f count destination tapped
  | separate count separator =>
    exact .bind (directly_count rules ctx count) fun n => poses_askSeparation rules ctx n separator
  | createToken token count controllers =>
    refine .bind (directly_count rules ctx count) fun n => ?_
    exact .bind (directly_players rules ctx controllers) fun _ => .andDone _

/-- The piles of the revealed cards are offered without the cards that are not there. -/
theorem poses_offerPiles (chooser : Seat) {revealed pile : List ObjectId}
    (source : Option ObjectId) (hrevealed : revealed.Nodup) (honce : pile.Nodup)
    (hamong : pile ⊆ revealed) :
    Poses (fun g => ∀ o ∈ revealed, g.zone? o = some (.library chooser))
      (offerPiles chooser revealed source pile) (Request.Proper stood) := by
  refine .pause fun _ hplaced => ?_
  exact {
    fair := by simp [Question.Fair]
    consumes := rfl
    holds := by
      refine ⟨by simp [Suspension.place?], ?_, ?_⟩
      · rw [List.nodup_append']
        refine ⟨honce, hrevealed.filter _, fun o ho ho' => ?_⟩
        have hother := (List.mem_filter.mp ho').2
        simp [ho] at hother
      · intro o ho
        rcases List.mem_append.mp ho with hpile | hother
        · exact hplaced o (hamong hpile)
        · exact hplaced o (List.mem_filter.mp hother).1
    commands := trivial
    stand := fun _ => trivial }

end LibraryEffect

namespace Cost

/-- A cost that can be paid leaves the payer to choose among what there is to pay with. -/
theorem poses_pay (rules : Rules) (ctx : Context) (payer : Seat) {cost : Cost} {g : Game}
    (hpayable : cost.isPayable (rules.view g) ctx payer = true) :
    Poses (fun h => h = g) (cost.pay rules ctx payer) (Request.Proper stood) := by
  cases cost with
  | life n => exact .andDone _
  | discard n =>
    have henough : n ≤ (g.hand payer).length := of_decide_eq_true hpayable
    refine .look ?_
    rintro h hsound rfl
    refine .ite ?_ ?_
    · intro hforced
      exact .andDone _
    · intro hchoice
      have hgrants := PlayerChoice.grants_options rules ctx (.discard n) payer hsound
      refine .pause ?_
      rintro h - rfl
      exact {
        fair := ⟨hgrants.once, Nat.le_refl _, henough⟩
        consumes := trivial
        holds := ⟨hgrants.placed, trivial⟩
        commands := trivial
        stand := fun _ => trivial }
  | sacrifice f n =>
    have henough : n ≤ (PlayerChoice.sacrificeOptions (rules.view g) ctx f payer).length :=
      of_decide_eq_true hpayable
    refine .view ?_
    rintro h hsound rfl
    refine .ite ?_ ?_
    · intro hforced
      exact .andDone _
    · intro hchoice
      have hgrants := PlayerChoice.grants_options rules ctx (.sacrifice f n) payer hsound
      refine .pause ?_
      rintro h - rfl
      exact {
        fair := ⟨hgrants.once, Nat.le_refl _, henough⟩
        consumes := trivial
        holds := ⟨hgrants.placed, trivial⟩
        commands := PlayerChoice.commands_options rules ctx (.sacrifice f n) payer _
        stand := fun _ => trivial }

end Cost

end CardGame
