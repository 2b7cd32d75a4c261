import CardGame.Proofs.Resolve.Posing
import CardGame.Proofs.Resolve.Resume

/-!
Where plans stop, what they stop at is in order: plans of effects by recursion on the effect, and
plans of suspended work by what the work has received.
-/

namespace CardGame

open Resolve

variable {rules : Rules} {stood : Prop}

namespace Effect

theorem poses_askModes (ctx : Context) (modes : List Mode) (fewest most : Nat)
    {P : Game → Prop} : Poses P (askModes ctx modes fewest most) (Request.Proper stood) := by
  refine .ite ?_ ?_
  · intro hempty
    exact .done
  · intro hsome
    refine .pause fun _ _ => ?_
    exact {
      fair := by
        refine ⟨Nat.min_le_right _ _, ?_⟩
        rw [List.length_map]
        exact Nat.min_le_right _ _
      consumes := rfl
      holds := ⟨by simp [Suspension.place?], trivial⟩
      commands := trivial
      stand := fun _ => trivial }

/-- Targets are chosen from different legal ones, of which there are enough. -/
theorem fair_targeting {v : View} {ctx : Context} {spec : TargetSpec} {legal : List ObjectId}
    {fewest most : Nat} (h : targeting v ctx spec = .choose legal fewest most) :
    (Question.targets legal fewest most).Fair := by
  have hordered (available : Nat) : (spec.bounds available).1 ≤ (spec.bounds available).2 :=
    Nat.min_le_right _ _
  unfold targeting at h
  simp only at h
  split at h
  · cases h
  · next henough =>
    split at h
    · cases h
    · cases h
      refine ⟨SortedMap.keys_nodup _, ?_, Nat.min_le_right _ _⟩
      exact Nat.le_min.mpr ⟨hordered _, Nat.le_of_not_lt henough⟩

theorem poses_chooseTargets (e : Effect) {ctx : Context} {spec : TargetSpec}
    {legal : List ObjectId} {fewest most : Nat} {v : View} {P : Game → Prop}
    (h : targeting v ctx spec = .choose legal fewest most) :
    Poses P (Resolve.pause ctx.controller "Choose targets" (.targets legal fewest most) ctx.source
      (.chooseTargets e ctx)) (Request.Proper stood) :=
  .pause fun _ _ => ⟨fair_targeting h, trivial, ⟨by simp [Suspension.place?], trivial⟩, trivial,
    fun _ => trivial⟩

private theorem poses_yesNo (player : Seat) (prompt : String) (source : Option ObjectId)
    {work : Suspension} {P : Game → Prop} (hconsumes : work.Consumes .yesNo)
    (hplace : work.place? = none) (hkeeps : ∀ g, work.Keeps g)
    (hcommands : ∀ g, work.Commands .yesNo g) (hstand : ∀ g, work.PicksStand g) :
    Poses P (Resolve.pause player prompt .yesNo source work) (Request.Proper stood) :=
  .pause fun _ _ => ⟨trivial, hconsumes, ⟨by simp [hplace], hkeeps _⟩, hcommands _,
    fun _ => hstand _⟩

mutual

theorem stops_plan (e : Effect) (ctx : Context) :
    Stops (fun _ => True) (plan rules e ctx) (Request.Proper stood) := by
  cases e with
  | continuous e => exact .of_poses (e.poses_resolve rules ctx)
  | permanent e => exact .of_poses (e.poses_resolve rules ctx)
  | removal e => exact .of_poses (e.poses_resolve rules ctx)
  | damage e => exact .of_poses (e.poses_resolve rules ctx)
  | library e => exact .of_poses (e.poses_resolve rules ctx)
  | composite es => exact stops_planAll es ctx
  | conditional c yes no =>
    refine .view fun g _ _ => .ite ?_ ?_
    · intro hholds
      exact (stops_plan yes ctx).of_pre fun _ _ => trivial
    · intro hfails
      exact (stops_planOption no ctx).of_pre fun _ _ => trivial
  | may prompt e =>
    exact .of_poses (poses_yesNo _ _ _ trivial rfl (fun _ => trivial) (fun _ => trivial)
      fun _ => trivial)
  | modal modes fewest most => exact .of_poses (poses_askModes ctx modes fewest most)
  | payOrSuffer selector cost suffer =>
    refine .view fun g _ _ => ?_
    split
    · exact .none
    · refine .ite ?_ ?_
      · intro hpayable
        exact .of_poses (poses_yesNo _ _ _ trivial rfl (fun _ => trivial) (fun _ => trivial)
          fun _ => trivial)
      · intro hunpayable
        exact (stops_plan suffer ctx).of_pre fun _ _ => trivial
  | chooseTargets spec e =>
    refine .view fun g _ _ => ?_
    split
    · exact .none
    · exact (stops_plan e _).of_pre fun _ _ => trivial
    · next hchoose => exact .of_poses (poses_chooseTargets e hchoose)
  | eachPlayerChooses selector choice =>
    refine .of_poses (.bind (directly_players rules ctx selector) fun players => ?_)
    exact PlayerChoice.poses_start rules ctx choice players

theorem stops_planOption (e : Option Effect) (ctx : Context) :
    Stops (fun _ => True) (planOption rules e ctx) (Request.Proper stood) := by
  cases e with
  | none => exact .none
  | some e => exact stops_plan e ctx

theorem stops_planAll (es : List Effect) (ctx : Context) :
    Stops (fun _ => True) (planAll rules es ctx) (Request.Proper stood) := by
  cases es with
  | nil => exact .none
  | cons e rest =>
    exact .followedBy (e.directly_plan ctx fun _ _ => trivial) (stops_plan e ctx)
      (stops_planAll rest ctx)

end

end Effect

namespace Suspension

/-- Whether work is a round of choices in turn order. -/
def isRound : Suspension → Bool
  | .eachPlayerChooses .. => true
  | _ => false

/-- In a round of choices, what is offered and what was picked for a sacrifice is controlled by the
players. -/
def RoundStands (work : Suspension) (q : Question) (g : Game) : Prop :=
  work.isRound = true → work.Commands q g ∧ work.PicksStand g

/-- What has to be true of the game when suspended work goes on. -/
structure Ripe (stood : Prop) (work : Suspension) (q : Question) (g : Game) : Prop where
  holds : work.Holds q g
  stand : stood → work.RoundStands q g

theorem quiet_protect (player : Seat) (target : ObjectId) (duration : Duration) (ctx : Context)
    (color : Color) : Quiet (ContinuousEffect.protect player target duration ctx color) :=
  .bind _ fun _ => .bind _ fun _ => .ite (.bind _ fun _ => .done) .done

theorem quiet_finishReorder (player : Seat) (order : List ObjectId) :
    Quiet (LibraryEffect.finishReorder player order) := by
  refine .bind _ fun g => ?_
  dsimp only
  split
  · exact .throw _
  · exact .bind _ fun _ => .bind _ fun _ => .done

theorem quiet_takePile (player : Seat) (first second : List ObjectId) (q : Question)
    (index : Nat) : Quiet (LibraryEffect.takePile player first second q index) := by
  have htake (index : Nat) (piles : List ObjectId × List ObjectId) : Quiet (do
      LibraryEffect.announceOption player q index
      piles.1.forM fun o => do let _ ← Resolve.moveToOwners o .hand
      piles.2.forM fun o => do let _ ← Resolve.moveToOwners o .graveyard
      return .done) := .bind _ fun _ => .bind _ fun _ => .bind _ fun _ => .done
  unfold LibraryEffect.takePile
  split
  · exact .bind _ (htake 0)
  · exact .bind _ (htake 1)
  · exact .bind _ (htake _)

/-- What a player picks joins what was picked before. -/
theorem picked_current {choice : PlayerChoice} {current : Seat} {remaining : List Seat}
    {picks : List (Seat × Pick)} {ctx : Context} {q : Question} {g : Game} {pick : Pick}
    (h : (eachPlayerChooses choice current remaining picks ctx).Ripe stood q g)
    (hpick : ∀ os, pick = .objects os → os.Nodup ∧ os ⊆ q.objects) :
    choice.Picked stood (picks ++ [(current, pick)]) g where
  grants s os hmem := by
    rcases List.mem_append.mp hmem with hold | hnew
    · exact h.holds.keeps.2 s os hold
    · cases List.mem_singleton.mp hnew
      obtain ⟨honce, hamong⟩ := hpick os rfl
      exact ⟨honce, fun place hplace o ho => h.holds.placed place hplace o (hamong ho)⟩
  commands hstood s os hmem := by
    rcases List.mem_append.mp hmem with hold | hnew
    · exact (h.stand hstood rfl).2 s os hold
    · cases List.mem_singleton.mp hnew
      have hcommands : choice.Commands current q.objects g := (h.stand hstood rfl).1
      exact hcommands.subset (hpick os rfl).2

/-- Where work stops that goes on with what it has received, it stops at something in order. -/
theorem stops_plan {d : Decision} {work : Suspension} {q : Question} {answer : Answer}
    (hquestion : d.question = q) (hfair : q.Fair) (h : work.Receives q answer) :
    Stops (work.Ripe stood q) (work.plan rules d answer) (Request.Proper stood) := by
  cases h with
  | search => exact .of_poses (.of_quiet (.bind _ fun _ => .bind _ fun _ => .done))
  | scry => exact .of_poses (.of_quiet (.bind _ fun _ => .bind _ fun _ => .done))
  | reorder => exact .of_poses (.of_quiet (quiet_finishReorder _ _))
  | separatePiles honce hamong =>
    refine .of_poses ((LibraryEffect.poses_offerPiles _ _ hfair honce hamong).of_pre ?_)
    intro g _ hripe o ho
    exact Game.liesAt_within_iff.mp (hripe.holds.placed _ rfl o ho)
  | choosePile => exact .of_poses (.of_quiet (quiet_takePile _ _ _ _ _))
  | may =>
    refine .ite ?_ ?_
    · intro hyes
      exact (Effect.stops_plan _ _).of_pre fun _ _ => trivial
    · intro hno
      exact .none
  | modal =>
    simp only [plan]
    split
    · exact .throw _
    · refine .bind (.emit rfl) fun _ => ?_
      exact (Effect.stops_planAll _ _).of_pre fun _ _ => trivial
  | payOrSuffer =>
    refine .ite ?_ ?_
    · intro hyes
      refine .view fun g _ _ => .ite ?_ ?_
      · intro hpayable
        exact .of_poses (Cost.poses_pay rules _ _ hpayable)
      · intro hunpayable
        exact (Effect.stops_plan _ _).of_pre fun _ _ => trivial
    · intro hno
      exact (Effect.stops_plan _ _).of_pre fun _ _ => trivial
  | payCost => exact .of_poses (.andDone _)
  | chooseColor => exact .of_poses (.of_quiet (quiet_protect _ _ _ _ _))
  | chooseTargets => exact (Effect.stops_plan _ _).of_pre fun _ _ => trivial
  | distributeCounters => exact .of_poses (.andDone _)
  | divideDamage => exact .of_poses (.andDone _)
  | pickObjects h =>
    refine .of_poses (.assuming fun g _ hripe => ?_)
    have honce := hripe.holds.keeps.1
    simp only [resume, PlayerChoice.pickOf]
    refine (PlayerChoice.poses_goOn rules _ _ ?_).of_pre ?_
    · simpa using honce
    · rintro g - rfl
      refine picked_current hripe ?_
      rintro os ⟨⟩
      exact ⟨h.once, h.among⟩
  | pickType hindex =>
    refine .of_poses (.assuming fun g _ hripe => ?_)
    have honce := hripe.holds.keeps.1
    simp only [resume, hquestion, PlayerChoice.pickOf, List.getElem?_eq_getElem hindex]
    refine (PlayerChoice.poses_goOn rules _ _ ?_).of_pre ?_
    · simpa using honce
    · rintro g - rfl
      refine picked_current hripe ?_
      rintro os ⟨⟩

end Suspension

end CardGame
