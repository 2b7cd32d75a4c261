import CardGame.Proofs.Game.Alter
import CardGame.Proofs.Projection.Core
import Mathlib.Logic.Relation

/-!
Parts of a resolution that ask nobody. Such a part makes elementary changes only, never fails on
account of the calls made, and does to two games with one core the same thing.
`Resolve.Directly` says all three, given what is true of the game before and after.
-/

namespace CardGame

/-- Whether an event is about a decision. -/
def Event.isDecision : Event → Bool
  | .decisionRequested _ _ | .decisionResolved _ _ => true
  | _ => false

namespace Progress

/-- One elementary change, or one event told. -/
inductive Change (lasting : Duration → Prop) : Progress → Progress → Prop
  | alter {p : Progress} {g : Game} (h : Game.Alter lasting p.game g) :
      Change lasting p { p with game := g }
  | tell (p : Progress) {e : Event} (h : e.isDecision = false) :
      Change lasting p { p with events := p.events ++ [e] }

/-- Any number of changes. -/
abbrev Changes (lasting : Duration → Prop) : Progress → Progress → Prop :=
  Relation.ReflTransGen (Change lasting)

variable {lasting : Duration → Prop} {p q : Progress}

/-- What every change keeps, any number of changes keeps. -/
theorem Changes.keeps {I : Progress → Prop} (h : Changes lasting p q)
    (hstep : ∀ {p q : Progress}, Change lasting p q → I p → I q) (hI : I p) : I q := by
  induction h with
  | refl => exact hI
  | tail _ hlast ih => exact hstep hlast ih

theorem Change.sound (h : Change lasting p q) (hsound : p.game.Sound) : q.game.Sound := by
  cases h with
  | alter h => exact h.sound hsound
  | tell => exact hsound

theorem Changes.sound (h : Changes lasting p q) (hsound : p.game.Sound) : q.game.Sound :=
  h.keeps (I := fun p => p.game.Sound) Change.sound hsound

theorem Changes.sameControl (h : Changes lasting p q) : p.game.SameControl q.game := by
  refine h.keeps (I := fun q => p.game.SameControl q.game) ?_ (.refl _)
  intro q r hchange hsame
  cases hchange with
  | alter h => exact hsame.trans h.sameControl
  | tell => exact hsame

theorem Changes.turn (h : Changes lasting p q) : q.game.turn = p.game.turn := by
  refine h.keeps (I := fun q => q.game.turn = p.game.turn) ?_ rfl
  intro q r hchange hsame
  cases hchange with
  | alter h => exact h.turn.trans hsame
  | tell => exact hsame

theorem Changes.isNontoken (h : Changes lasting p q) (hsound : p.game.Sound) (o : ObjectId) :
    q.game.isNontoken o = p.game.isNontoken o := by
  refine (h.keeps (I := fun q => q.game.Sound ∧ q.game.isNontoken o = p.game.isNontoken o) ?_
    ⟨hsound, rfl⟩).2
  rintro q r hchange ⟨hsound, hsame⟩
  refine ⟨hchange.sound hsound, ?_⟩
  cases hchange with
  | alter h => exact (h.isNontoken hsound o).trans hsame
  | tell => exact hsame

theorem Changes.lasts (h : Changes lasting p q) (hlasting : p.game.Lasting lasting) :
    q.game.Lasting lasting := by
  refine h.keeps (I := fun q => q.game.Lasting lasting) ?_ hlasting
  intro q r hchange hlasting
  cases hchange with
  | alter h => exact h.lasts hlasting
  | tell => exact hlasting

/-- Changes tell events in order, none of them about decisions. -/
theorem Changes.events (h : Changes lasting p q) :
    ∃ es, q.events = p.events ++ es ∧ ∀ e ∈ es, e.isDecision = false := by
  refine h.keeps (I := fun q => ∃ es, q.events = p.events ++ es ∧ ∀ e ∈ es, e.isDecision = false)
    ?_ ⟨[], by simp, by simp⟩
  rintro q r hchange ⟨es, hevents, hquiet⟩
  cases hchange with
  | alter => exact ⟨es, hevents, hquiet⟩
  | @tell e he =>
    refine ⟨es ++ [e], by simp [hevents], ?_⟩
    intro e' he'
    rcases List.mem_append.mp he' with hold | hnew
    · exact hquiet e' hold
    · rw [List.mem_singleton.mp hnew]
      exact he

/-- Two resolutions with the same core that have told the same events after some others. -/
structure Alike (b : Bool) (told₁ told₂ : List Event) (p₁ p₂ : Progress) : Prop where
  core : p₁.game.core b = p₂.game.core b
  events : ∃ es, p₁.events = told₁ ++ es ∧ p₂.events = told₂ ++ es

theorem Alike.of_game {b : Bool} {told₁ told₂ : List Event} {p₁ p₂ : Progress} {g₁ g₂ : Game}
    (h : Alike b told₁ told₂ p₁ p₂) (hcore : g₁.core b = g₂.core b) :
    Alike b told₁ told₂ { p₁ with game := g₁ } { p₂ with game := g₂ } :=
  ⟨hcore, h.events⟩

theorem Alike.tell {b : Bool} {told₁ told₂ : List Event} {p₁ p₂ : Progress}
    (h : Alike b told₁ told₂ p₁ p₂) (e : Event) :
    Alike b told₁ told₂ { p₁ with events := p₁.events ++ [e] }
      { p₂ with events := p₂.events ++ [e] } := by
  obtain ⟨es, h₁, h₂⟩ := h.events
  exact ⟨h.core, es ++ [e], by simp [h₁], by simp [h₂]⟩

end Progress

namespace Resolve

open Progress

variable {α β : Type}

/-- Two outcomes that fail alike, or answer the same in like games. -/
inductive Agree (b : Bool) (told₁ told₂ : List Event) :
    Except Failure (α × Progress) → Except Failure (α × Progress) → Prop
  | failed (failure : Failure) : Agree b told₁ told₂ (.error failure) (.error failure)
  | answered (a : α) {q₁ q₂ : Progress} (h : Alike b told₁ told₂ q₁ q₂) :
      Agree b told₁ told₂ (.ok (a, q₁)) (.ok (a, q₂))

/-- A part of a resolution that asks nobody: in a sound game of which `P` is true it makes changes
and leaves a game of which `Q` is true. -/
structure Directly (lasting : Duration → Prop) (P : Game → Prop) (r : Resolve α)
    (Q : α → Game → Prop) : Prop where
  runs : ∀ {p q : Progress} {a : α}, p.game.Sound → P p.game → r p = .ok (a, q) →
    Changes lasting p q ∧ Q a q.game
  fails : ∀ {p : Progress} {failure : Failure}, p.game.Sound → P p.game → r p = .error failure →
    failure.isOfCalls = false
  agrees : ∀ {b : Bool} {told₁ told₂ : List Event} {p₁ p₂ : Progress}, p₁.game.Sound →
    p₂.game.Sound → P p₁.game → P p₂.game → Alike b told₁ told₂ p₁ p₂ →
    Agree b told₁ told₂ (r p₁) (r p₂)

/-- A part that asks nobody, whatever is true of the game. -/
abbrev Direct (lasting : Duration → Prop) (r : Resolve α) : Prop :=
  Directly lasting (fun _ => True) r fun _ _ => True

/-- A game that cannot be told from another by what resolving reads. -/
def Same (g h : Game) : Prop := h.core true = g.core true

theorem bind_apply (m : Resolve α) (k : α → Resolve β) (p : Progress) :
    (m >>= k) p = (m p).bind fun r => k r.1 r.2 := rfl

theorem bind_of_ok {m : Resolve α} {k : α → Resolve β} {p q : Progress} {a : α}
    (h : m p = .ok (a, q)) : (m >>= k) p = k a q := by
  rw [bind_apply, h]
  rfl

theorem bind_of_error {m : Resolve α} {k : α → Resolve β} {p : Progress} {failure : Failure}
    (h : m p = .error failure) : (m >>= k) p = .error failure := by
  rw [bind_apply, h]
  rfl

/-- What two parts in a row come to, the second makes of what the first comes to. -/
theorem bind_eq_ok {m : Resolve β} {k : β → Resolve α} {p q : Progress} {a : α}
    (h : (m >>= k) p = .ok (a, q)) : ∃ b r, m p = .ok (b, r) ∧ k b r = .ok (a, q) := by
  rw [bind_apply] at h
  cases hm : m p with
  | error failure =>
    rw [hm] at h
    cases h
  | ok result =>
    rw [hm] at h
    exact ⟨result.1, result.2, rfl, h⟩

theorem game_bind (k : Game → Resolve α) (p : Progress) : (game >>= k) p = k p.game p := rfl

theorem view_bind (rules : Rules) (k : View → Resolve α) (p : Progress) :
    (view rules >>= k) p = k (rules.view p.game) p := rfl

variable {lasting : Duration → Prop} {P P' : Game → Prop} {Q Q' : α → Game → Prop}

namespace Directly

theorem mono {r : Resolve α} (h : Directly lasting P r Q)
    (hP : ∀ {g : Game}, g.Sound → P' g → P g)
    (hQ : ∀ {a : α} {g : Game}, g.Sound → Q a g → Q' a g) : Directly lasting P' r Q' where
  runs hsound hp hr := by
    obtain ⟨hchanges, hq⟩ := h.runs hsound (hP hsound hp) hr
    exact ⟨hchanges, hQ (hchanges.sound hsound) hq⟩
  fails hsound hp := h.fails hsound (hP hsound hp)
  agrees h₁ h₂ hp₁ hp₂ := h.agrees h₁ h₂ (hP h₁ hp₁) (hP h₂ hp₂)

theorem of_pre {r : Resolve α} (h : Directly lasting P r Q)
    (hP : ∀ {g : Game}, g.Sound → P' g → P g) : Directly lasting P' r Q :=
  h.mono hP fun _ hq => hq

/-- What is needed of the game and what is left of it may be forgotten. -/
theorem anyhow {r : Resolve α} (h : Directly lasting (fun _ => True) r Q) : Direct lasting r :=
  h.mono (fun _ _ => trivial) fun _ _ => trivial

protected theorem pure (a : α) (hQ : ∀ {g : Game}, P g → Q a g) :
    Directly lasting P (pure a) Q where
  runs _ hp hr := by
    cases hr
    exact ⟨.refl, hQ hp⟩
  fails _ _ hr := by cases hr
  agrees _ _ _ _ hlike := .answered a hlike

protected theorem throw {failure : Failure} (hplain : failure.isOfCalls = false) :
    Directly lasting P (throw failure : Resolve α) Q where
  runs _ _ hr := by cases hr
  fails _ _ hr := by
    cases hr
    exact hplain
  agrees _ _ _ _ _ := .failed failure

protected theorem bind {R : β → Game → Prop} {m : Resolve β} {k : β → Resolve α}
    (hm : Directly lasting P m R) (hk : ∀ a, Directly lasting (R a) (k a) Q) :
    Directly lasting P (m >>= k) Q where
  runs {p q a} hsound hp hr := by
    obtain ⟨c, s, hfirst, hsecond⟩ := bind_eq_ok hr
    obtain ⟨hchanges, hmiddle⟩ := hm.runs hsound hp hfirst
    obtain ⟨hrest, hq⟩ := (hk c).runs (hchanges.sound hsound) hmiddle hsecond
    exact ⟨hchanges.trans hrest, hq⟩
  fails {p failure} hsound hp hr := by
    rw [bind_apply] at hr
    cases hfirst : m p with
    | error failure' =>
      rw [hfirst] at hr
      cases hr
      exact hm.fails hsound hp hfirst
    | ok result =>
      rw [hfirst] at hr
      obtain ⟨hchanges, hmiddle⟩ := hm.runs hsound hp hfirst
      exact (hk _).fails (hchanges.sound hsound) hmiddle hr
  agrees {b told₁ told₂ p₁ p₂} h₁ h₂ hp₁ hp₂ hlike := by
    have hagree := hm.agrees h₁ h₂ hp₁ hp₂ hlike
    rw [bind_apply, bind_apply]
    cases hfirst₁ : m p₁ <;> cases hfirst₂ : m p₂ <;> rw [hfirst₁, hfirst₂] at hagree
    all_goals cases hagree
    · exact .failed _
    · next a q₁ q₂ hlike' =>
      obtain ⟨hchanges₁, hmiddle₁⟩ := hm.runs h₁ hp₁ hfirst₁
      obtain ⟨hchanges₂, hmiddle₂⟩ := hm.runs h₂ hp₂ hfirst₂
      exact (hk a).agrees (hchanges₁.sound h₁) (hchanges₂.sound h₂) hmiddle₁ hmiddle₂ hlike'

/-- A part that goes by what it reads of the game. -/
protected theorem look {k : Game → Resolve α} (hread : ∀ b g, k (g.core b) = k g)
    (hk : ∀ g, g.Sound → P g → Directly lasting (fun h => P h ∧ Same g h) (k g) Q) :
    Directly lasting P (game >>= k) Q where
  runs {p q a} hsound hp hr := (hk p.game hsound hp).runs hsound ⟨hp, rfl⟩ hr
  fails {p failure} hsound hp hr := (hk p.game hsound hp).fails hsound ⟨hp, rfl⟩ hr
  agrees {b told₁ told₂ p₁ p₂} h₁ h₂ hp₁ hp₂ hlike := by
    have hcore : p₂.game.core true = p₁.game.core true := by
      have hboth := congrArg (Game.core true) hlike.core
      simpa using hboth.symm
    have hsame : k p₂.game = k p₁.game := by rw [← hread true p₂.game, hcore, hread]
    change Agree b told₁ told₂ (k p₁.game p₁) (k p₂.game p₂)
    rw [hsame]
    exact (hk p₁.game h₁ hp₁).agrees h₁ h₂ ⟨hp₁, rfl⟩ ⟨hp₂, hcore⟩ hlike

/-- A part that goes by what it reads, but needs nothing of it. -/
theorem look_anyhow {k : Game → Resolve α} (hread : ∀ b g, k (g.core b) = k g)
    (hk : ∀ g, Directly lasting P (k g) Q) : Directly lasting P (game >>= k) Q :=
  .look hread fun g _ _ => (hk g).of_pre fun _ h => h.1

/-- What is read of the game still holds of it. -/
theorem reading {f : Game → α} (hread : ∀ b g, f (g.core b) = f g)
    (hQ : ∀ {g h : Game}, g.Sound → P g → P h → Same g h → Q (f g) h) :
    Directly lasting P (game >>= fun g => pure (f g)) Q :=
  .look (fun b g => by rw [hread]) fun _ hsound hp => .pure _ fun hh => hQ hsound hp hh.1 hh.2

/-- A part that goes by what it sees of the game after continuous effects. -/
theorem view {rules : Rules} {k : View → Resolve α} (hread : ∀ b v, k (v.core b) = k v)
    (hk : ∀ v, Directly lasting P (k v) Q) : Directly lasting P (Resolve.view rules >>= k) Q := by
  have hlook : Directly lasting P (game >>= fun g => k (rules.view g)) Q :=
    .look_anyhow (fun b g => by rw [Rules.view_core, hread]) fun g => hk _
  exact hlook

theorem update_core {f : Game → Game} {Q : Unit → Game → Prop}
    (halter : ∀ g, g.Sound → P g → Game.Alter lasting g (f g) ∧ Q () (f g))
    (hcore : ∀ b g, g.Sound → P g → (f (g.core b)).core b = (f g).core b) :
    Directly lasting P (update f) Q where
  runs {p q a} hsound hp hr := by
    cases hr
    obtain ⟨hchange, hq⟩ := halter p.game hsound hp
    exact ⟨.single (.alter hchange), hq⟩
  fails _ _ hr := by cases hr
  agrees {b told₁ told₂ p₁ p₂} h₁ h₂ hp₁ hp₂ hlike := by
    refine .answered () (hlike.of_game ?_)
    rw [← hcore b p₁.game h₁ hp₁, hlike.core, hcore b p₂.game h₂ hp₂]

/-- A change that does to the core what it does to the game. -/
protected theorem update {f : Game → Game} {Q : Unit → Game → Prop}
    (halter : ∀ g, g.Sound → P g → Game.Alter lasting g (f g) ∧ Q () (f g))
    (hcore : ∀ b g, f (g.core b) = (f g).core b) : Directly lasting P (update f) Q :=
  .update_core halter fun b g _ _ => by rw [hcore, Game.core_core, Bool.or_self]

protected theorem edit {e : Edit Game α} (hnatural : Edit.Natural e)
    (halter : ∀ g g' a, g.Sound → P g → e g = .ok a g' → Game.Alter lasting g g' ∧ Q a g') :
    Directly lasting P (edit e) Q where
  runs {p q a} hsound hp hr := by
    unfold edit at hr
    split at hr
    · next a' g' he =>
      cases hr
      obtain ⟨hchange, hq⟩ := halter p.game g' a hsound hp he
      exact ⟨.single (.alter hchange), hq⟩
    · cases hr
  fails {p failure} _ _ hr := by
    unfold edit at hr
    split at hr
    · cases hr
    · next failure' g' he =>
      cases hr
      exact hnatural.plain he
  agrees {b told₁ told₂ p₁ p₂} _ _ _ _ hlike := by
    have hboth : Edit.onCore b (e p₁.game) = Edit.onCore b (e p₂.game) := by
      rw [← hnatural.onCore b p₁.game, hlike.core, hnatural.onCore b p₂.game]
    unfold edit
    cases h₁ : e p₁.game with
    | ok a₁ g₁ =>
      cases h₂ : e p₂.game with
      | ok a₂ g₂ =>
        rw [h₁, h₂] at hboth
        injection hboth with hanswer hcore
        subst hanswer
        exact .answered _ (hlike.of_game hcore)
      | error failure g₂ =>
        rw [h₁, h₂] at hboth
        cases hboth
    | error failure g₁ =>
      cases h₂ : e p₂.game with
      | ok a₂ g₂ =>
        rw [h₁, h₂] at hboth
        cases hboth
      | error failure' g₂ =>
        rw [h₁, h₂] at hboth
        injection hboth with hfailure hcore
        subst hfailure
        exact .failed _

protected theorem emit {e : Event} (hquiet : e.isDecision = false) :
    Directly lasting P (emit e) fun _ => P where
  runs {p q a} _ hp hr := by
    cases hr
    exact ⟨.single (.tell p hquiet), hp⟩
  fails _ _ hr := by cases hr
  agrees _ _ _ _ hlike := .answered () (hlike.tell e)

/-- What one item keeps true, a list of items keeps true. -/
protected theorem forM {xs : List β} {body : β → Resolve PUnit}
    (hbody : ∀ x ∈ xs, Directly lasting P (body x) fun _ => P) :
    Directly lasting P (xs.forM body) fun _ => P := by
  induction xs with
  | nil => exact .pure _ id
  | cons x rest ih =>
    change Directly lasting P (body x >>= fun _ => rest.forM body) _
    exact .bind (hbody x List.mem_cons_self) fun _ =>
      ih fun y hy => hbody y (List.mem_cons_of_mem _ hy)

theorem ite {c : Prop} [Decidable c] {r r' : Resolve α} (hyes : c → Directly lasting P r Q)
    (hno : ¬c → Directly lasting P r' Q) : Directly lasting P (if c then r else r') Q := by
  split
  · next h => exact hyes h
  · next h => exact hno h

/-- A part that is turned down if a condition holds. -/
theorem guard {c : Prop} [Decidable c] {failure : Failure} {r : Resolve α}
    (hplain : failure.isOfCalls = false) (hr : Directly lasting P r Q) :
    Directly lasting P (if c then (throw failure : Resolve PUnit) >>= fun _ => r else r) Q := by
  have hthrow : Directly lasting P (throw failure : Resolve PUnit) fun _ => P := .throw hplain
  apply ite
  · intro hturned
    exact .bind hthrow fun _ => hr
  · intro hfine
    exact hr

end Directly

theorem direct_update {f : Game → Game} (halter : ∀ g, Game.Alter lasting g (f g))
    (hcore : ∀ b g, f (g.core b) = (f g).core b) : Direct lasting (update f) := by
  refine .update ?_ hcore
  intro g _ _
  exact ⟨halter g, trivial⟩

theorem direct_edit {e : Edit Game α} (hnatural : Edit.Natural e)
    (halter : ∀ g g' a, e g = .ok a g' → Game.Alter lasting g g') : Direct lasting (edit e) := by
  refine .edit hnatural ?_
  intro g g' a _ _ he
  exact ⟨halter g g' a he, trivial⟩

end Resolve

end CardGame
