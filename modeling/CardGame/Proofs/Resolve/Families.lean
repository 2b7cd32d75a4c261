import CardGame.Proofs.Resolve.Asking
import CardGame.Resolve.Answer

/-!
The families of simple effects, the choices in turn order, the costs, and what happens to answers:
each acts directly and then may ask.
-/

namespace CardGame

open Resolve

variable {lasting : Duration → Prop} {P : Game → Prop}

namespace ContinuousEffect

/-- How long the floating effects last that an effect may start. -/
def durations : ContinuousEffect → List Duration
  | .modifyStats _ _ _ d | .setBase _ _ _ d | .animate _ _ _ _ d | .grantKeyword _ _ d
  | .removeKeyword _ _ d | .modifyGroup _ _ _ d | .grantKeywordToGroup _ _ d | .gainControl _ d
  | .protectFromColor _ d => [d]
  | .regenerate _ | .exileOnDeath _ => [.endOfTurn]

private theorem singleton_nonempty (o : ObjectId) : (SortedSet.singleton o).isEmpty = false := rfl

theorem asking_onPermanent (rules : Rules) (ctx : Context) (target : Reference)
    {changes : List Modification} {duration : Duration} (hlasting : lasting duration)
    (hshields : ∀ change ∈ changes, change = .regenerationShield → duration = .endOfTurn) :
    Asking lasting (fun _ => True) (onPermanent rules ctx target changes duration) := by
  refine .bind (directly_permanent rules ctx target) fun found => ?_
  let affected := SortedSet.singleton found.1
  have hloop : Directly lasting
      (fun g => ∀ o, affected.contains o = true → g.onBattlefield o = true)
      (changes.forM fun change => Resolve.addFloating change affected duration ctx)
      fun _ g => ∀ o, affected.contains o = true → g.onBattlefield o = true := by
    refine .forM fun change hchange => ?_
    exact directly_addFloating ctx hlasting (singleton_nonempty found.1) (hshields change hchange)
      fun _ => ⟨found.1, rfl⟩
  refine .andDone (hloop.of_pre ?_)
  rintro g _ ⟨-, hthere⟩ o ho
  rw [SortedSet.contains_singleton] at ho
  have hfound : found.1 = o := of_decide_eq_true ho
  exact hfound ▸ hthere

theorem asking_onGroup (rules : Rules) (ctx : Context) (f : ObjectFilter) {change : Modification}
    {duration : Duration} (hlasting : lasting duration) (hshield : change ≠ .regenerationShield) :
    Asking lasting (fun _ => True) (onGroup rules ctx f change duration) := by
  have haffected : Directly lasting (fun _ => True)
      (Resolve.game >>= fun g => pure
        (SortedSet.ofList ((rules.view g).permanents f ctx.forFilter)))
      fun affected g => ∀ o, affected.contains o = true → g.onBattlefield o = true := by
    refine .reading (fun b g => by rw [Rules.view_core, View.permanents_core]) ?_
    intro g h hsound _ _ hsame o ho
    rw [SortedSet.contains_ofList] at ho
    rw [hsame.onBattlefield]
    have hlisted : o ∈ g.battlefield := (List.mem_filter.mp (of_decide_eq_true ho)).1
    exact hsound.housed.onBattlefield_of_mem hlisted
  have hstart (affected : SortedSet ObjectId) : Asking lasting
      (fun g => ∀ o, affected.contains o = true → g.onBattlefield o = true) (do
        if !affected.isEmpty then Resolve.addFloating change affected duration ctx
        return .done) := by
    apply Asking.ite
    · intro hsome
      have haffecting : affected.isEmpty = false := by simpa using hsome
      exact .andDone (directly_addFloating ctx hlasting haffecting
        (fun heq => absurd heq hshield) fun heq => absurd heq hshield)
    · intro hnone
      exact .done
  have hgroup := Asking.bind haffected hstart
  exact hgroup

theorem asking_resolve (rules : Rules) (ctx : Context) (e : ContinuousEffect)
    (hlasting : ∀ d ∈ e.durations, lasting d) :
    Asking lasting (fun _ => True) (e.resolve rules ctx) := by
  cases e with
  | modifyStats target power toughness duration =>
    have hduration : lasting duration := hlasting duration (by simp [durations])
    refine .bind (directly_amount rules ctx power) fun p => ?_
    refine .bind (directly_amount rules ctx toughness) fun t => ?_
    exact asking_onPermanent rules ctx target hduration (by simp)
  | setBase target power toughness duration =>
    have hduration : lasting duration := hlasting duration (by simp [durations])
    exact asking_onPermanent rules ctx target hduration (by simp)
  | animate target power toughness subtypes duration =>
    have hduration : lasting duration := hlasting duration (by simp [durations])
    refine asking_onPermanent rules ctx target hduration ?_
    unfold animation
    split <;> simp
  | grantKeyword target keyword duration =>
    have hduration : lasting duration := hlasting duration (by simp [durations])
    exact asking_onPermanent rules ctx target hduration (by simp)
  | removeKeyword target keyword duration =>
    have hduration : lasting duration := hlasting duration (by simp [durations])
    exact asking_onPermanent rules ctx target hduration (by simp)
  | modifyGroup f power toughness duration =>
    have hduration : lasting duration := hlasting duration (by simp [durations])
    refine .bind (directly_amount rules ctx power) fun p => ?_
    refine .bind (directly_amount rules ctx toughness) fun t => ?_
    exact asking_onGroup rules ctx f hduration (by simp)
  | grantKeywordToGroup f keyword duration =>
    have hduration : lasting duration := hlasting duration (by simp [durations])
    exact asking_onGroup rules ctx f hduration (by simp)
  | gainControl target duration =>
    have hduration : lasting duration := hlasting duration (by simp [durations])
    exact asking_onPermanent rules ctx target hduration (by simp)
  | regenerate target =>
    have hduration : lasting .endOfTurn := hlasting .endOfTurn (by simp [durations])
    exact asking_onPermanent rules ctx target hduration fun _ _ _ => rfl
  | exileOnDeath target =>
    have hduration : lasting .endOfTurn := hlasting .endOfTurn (by simp [durations])
    exact asking_onPermanent rules ctx target hduration (by simp)
  | protectFromColor target duration =>
    refine .bind (directly_permanent rules ctx target) fun found => ?_
    exact .pause fun _ => trivial

theorem asking_protect (player : Seat) (target : ObjectId) {duration : Duration} (ctx : Context)
    (color : Color) (hlasting : lasting duration) :
    Asking lasting (fun _ => True) (protect player target duration ctx color) := by
  have hthere : Directly lasting (fun _ => True)
      (Resolve.game >>= fun g => pure (g.onBattlefield target))
      fun there g => there = true → g.onBattlefield target = true := by
    refine .reading (fun _ _ => rfl) ?_
    intro g h _ _ _ hsame hbefore
    rwa [hsame.onBattlefield]
  have hstart (there : Bool) : Asking lasting
      (fun g => there = true → g.onBattlefield target = true) (do
        if there then
          Resolve.addFloating (.grantKeyword (.protectionFrom color)) (.singleton target) duration
            ctx
        return .done) := by
    apply Asking.ite
    · intro hyes
      refine .andDone ((directly_addFloating ctx hlasting (singleton_nonempty target)
        (by simp) (by simp)).of_pre ?_)
      intro g _ hg o ho
      rw [SortedSet.contains_singleton] at ho
      have htarget : target = o := of_decide_eq_true ho
      exact htarget ▸ hg hyes
    · intro hno
      exact .done
  have hprotect := Asking.bind hthere hstart
  exact .bind (.emit rfl) fun _ => hprotect

end ContinuousEffect

namespace PermanentEffect

theorem direct_placeShares (kind : CounterKind) (shares : SortedMap ObjectId Nat) :
    Direct lasting (placeShares kind shares) :=
  .forM fun p _ => direct_addCounters p.1 kind p.2

theorem asking_distribute (ctx : Context) (kind : CounterKind) (total : Nat) :
    Asking lasting (fun _ => True) (distribute ctx kind total) := by
  have hthere : Direct lasting (ctx.targets.forM fun o => Resolve.requireIn o .battlefield) :=
    .forM fun o _ => (directly_requireIn o _).anyhow
  have hpause : Asking lasting (fun _ => True) (Resolve.pause ctx.controller
      s!"Distribute {total} counters" (.distribution total ctx.targets 1) ctx.source
      (.distributeCounters kind ctx)) := .pause fun _ => trivial
  refine .bind hthere fun _ => ?_
  split
  · exact .done
  · exact .andDone (direct_addCounters _ kind total)
  · exact .guard rfl hpause

theorem asking_resolve (rules : Rules) (ctx : Context) (e : PermanentEffect) :
    Asking lasting (fun _ => True) (e.resolve rules ctx) := by
  cases e with
  | tap target =>
    refine .bind (directly_permanent rules ctx target).anyhow fun found => ?_
    exact .andDone (direct_tap found.1)
  | untap target =>
    refine .bind (directly_permanent rules ctx target).anyhow fun found => ?_
    exact .andDone (direct_untap found.1)
  | addCounters target kind amount =>
    refine .bind (directly_count rules ctx amount) fun n => ?_
    refine .bind (directly_object ctx target) fun o => ?_
    exact .andDone (direct_addCounters o kind n)
  | removeCounters target kind amount =>
    refine .bind (directly_count rules ctx amount) fun n => ?_
    refine .bind (directly_object ctx target) fun o => ?_
    exact .andDone (direct_removeCounters o kind n)
  | distributeCounters kind amount =>
    refine .bind (directly_count rules ctx amount) fun n => ?_
    exact asking_distribute ctx kind n

end PermanentEffect

namespace PlayerChoice

@[simp] theorem ask_core (b : Bool) (v : View) (ctx : Context) (s : Seat) (choice : PlayerChoice) :
    choice.ask (v.core b) ctx s = choice.ask v ctx s := by
  cases choice with
  | sacrifice f count =>
    rw [PlayerChoice.ask, PlayerChoice.ask, sacrificeOptions, sacrificeOptions,
      View.permanents_core]
    rfl
  | _ => rfl

theorem gather_core (b : Bool) (v : View) (ctx : Context) (choice : PlayerChoice)
    (players : List Seat) (picks : List (Seat × Pick)) :
    gather (v.core b) ctx choice players picks = gather v ctx choice players picks := by
  induction players generalizing picks with
  | nil => rfl
  | cons s rest ih =>
    rw [gather, gather, ask_core]
    split
    · exact ih _
    · rfl

theorem direct_sacrificeAll (v : View) (s : Seat) (objects : List ObjectId) :
    Direct lasting (sacrificeAll v s objects) := by
  refine .forM fun o _ => ?_
  refine .bind (directly_characteristics v o) fun c => ?_
  exact direct_sacrifice s o c

theorem direct_carryOut (rules : Rules) (picks : List (Seat × Pick)) (choice : PlayerChoice) :
    Direct lasting (choice.carryOut rules picks) := by
  cases choice with
  | discard count =>
    refine .forM fun p _ => ?_
    unfold discardPick
    split
    · exact direct_discard _ _
    · exact .pure _ id
  | sacrifice f count =>
    refine .view (fun b v => rfl) fun v => ?_
    refine .forM fun p _ => ?_
    unfold sacrificePick
    split
    · exact direct_sacrificeAll v _ _
    · exact .pure _ id
  | creatureType =>
    have hannounce (s : Seat) (pick : Pick) : Direct lasting (announcePick s pick) := by
      unfold announcePick
      split
      · exact .emit rfl
      · exact .pure _ id
    refine .bind (.forM fun p _ => hannounce p.1 p.2) fun _ => ?_
    refine .look_anyhow (fun _ _ => rfl) fun g => ?_
    exact .forM fun o _ => direct_putOntoBattlefield o none false

theorem asking_goOn (rules : Rules) (ctx : Context) (choice : PlayerChoice) (players : List Seat)
    (picks : List (Seat × Pick)) :
    Asking lasting (fun _ => True) (choice.goOn rules ctx players picks) := by
  refine .view (fun b v => by rw [gather_core]) fun v => ?_
  split
  · exact .andDone (direct_carryOut rules _ choice)
  · exact .pause fun _ => trivial

theorem asking_start (rules : Rules) (ctx : Context) (choice : PlayerChoice)
    (players : List Seat) :
    Asking lasting (fun _ => True) (choice.start rules ctx players) := by
  refine .look (fun _ _ => rfl) fun g => ?_
  exact asking_goOn rules ctx choice _ _

end PlayerChoice

namespace RemovalEffect

theorem direct_requireCard (o : ObjectId) : Direct lasting (requireCard o) := by
  refine .bind (directly_require o) fun _ => ?_
  refine .look_anyhow (fun _ _ => rfl) fun g => ?_
  apply Directly.ite
  · intro hplayer
    exact .throw rfl
  · intro hcard
    exact .pure _ id

theorem direct_destroyMatching (rules : Rules) (ctx : Context) (f : ObjectFilter) :
    Direct lasting (destroyMatching rules ctx f) := by
  refine .view (fun b v => ?_) fun v => ?_
  · rw [View.permanents_core]
    rfl
  · refine .forM fun o _ => ?_
    refine .bind (directly_characteristics v o) fun c => ?_
    exact .bind (direct_destroy o c) fun _ => .pure _ id

theorem asking_resolve (rules : Rules) (ctx : Context) (e : RemovalEffect) :
    Asking lasting (fun _ => True) (e.resolve rules ctx) := by
  cases e with
  | destroy target =>
    refine .bind (directly_permanent rules ctx target).anyhow fun found => ?_
    exact .andDone (direct_destroy found.1 found.2)
  | destroyAll f => exact .andDone (direct_destroyMatching rules ctx f)
  | exile target =>
    refine .bind (directly_object ctx target) fun o => ?_
    refine .bind (direct_requireCard o) fun _ => ?_
    exact .andDone (direct_moveToOwners o _)
  | returnToHand target =>
    have hmove (o : ObjectId) : Asking lasting (fun _ => True)
        (Resolve.moveToOwners o .hand >>= fun _ => pure .done) := .andDone (direct_moveToOwners o _)
    refine .bind (directly_object ctx target) fun o => ?_
    refine .bind (direct_requireCard o) fun _ => ?_
    refine .look (fun _ _ => rfl) fun g => ?_
    exact .guard rfl (hmove o)
  | sacrifice players f count =>
    refine .bind (directly_count rules ctx count) fun n => ?_
    refine .bind (directly_players rules ctx players) fun seats => ?_
    exact PlayerChoice.asking_start rules ctx _ seats

end RemovalEffect

namespace DamageEffect

theorem direct_dealShares (rules : Rules) (source : Option ObjectId)
    (shares : SortedMap ObjectId Int) : Direct lasting (dealShares rules source shares) := by
  refine .view (fun _ _ => rfl) fun v => ?_
  exact .forM fun p _ => direct_dealDamage _ _ _ _

theorem asking_divideAmong (rules : Rules) (ctx : Context) (total : Int) :
    Asking lasting (fun _ => True) (divideAmong rules ctx total) := by
  apply Asking.ite
  · intro hdivided
    split
    · next hcheck => exact .throw ((plain_checkDivision _ _ _).fault _ hcheck)
    · exact .andDone (direct_dealShares _ _ _)
  · intro hundivided
    have hpause : Asking lasting (fun _ => True) (Resolve.pause ctx.controller
        s!"Divide {total.toNat} damage" (.distribution total.toNat ctx.targets 1) ctx.source
        (.divideDamage ctx)) := .pause fun _ => trivial
    split
    · exact .done
    · exact .andDone (direct_dealShares _ _ _)
    · exact .guard rfl hpause

theorem asking_resolve (rules : Rules) (ctx : Context) (e : DamageEffect) :
    Asking lasting (fun _ => True) (e.resolve rules ctx) := by
  cases e with
  | deal target amount =>
    refine .bind (directly_amount rules ctx amount) fun n => ?_
    refine .bind (directly_object ctx target) fun o => ?_
    exact .andDone (direct_dealShares _ _ _)
  | divide amount =>
    refine .bind (directly_amount rules ctx amount) fun n => ?_
    exact asking_divideAmong rules ctx _
  | gainLife players amount =>
    refine .bind (directly_amount rules ctx amount) fun n => ?_
    refine .bind (directly_players rules ctx players) fun seats => ?_
    exact .andDone (.forM fun s _ => direct_changeLife s _)
  | loseLife players amount =>
    refine .bind (directly_amount rules ctx amount) fun n => ?_
    refine .bind (directly_players rules ctx players) fun seats => ?_
    exact .andDone (.forM fun s _ => direct_changeLife s _)

end DamageEffect

end CardGame
