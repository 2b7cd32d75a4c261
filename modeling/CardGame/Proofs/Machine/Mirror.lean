import CardGame.Proofs.Machine.Projecting
import CardGame.Proofs.Resolve.Direct

/-!
Resolving on a machine. A part of a resolution on a machine does what the resolution does, with
every operation that could leave its range worked out as `Checked`. It mirrors the resolution
(`Machine.Mirrors`) if it comes to the same, unless a counter runs out on the way; this is shown
part by part, along with what a game must keep for it: all of it can be held, and no more work is
suspended than there was to do.
-/

namespace CardGame

/-- A part of a resolution on a machine. -/
abbrev Machine := StateT Progress (ExceptT Failure Checked)

namespace Machine

variable {α β : Type}

/-- A part of a resolution in which nothing can trap. -/
def lift (r : Resolve α) : Machine α := fun p => ExceptT.mk (.ok (r p))

/-- A step that may trap. -/
def check (c : Checked α) : Machine α := fun p => ExceptT.mk (c.map fun a => .ok (a, p))

/-- The game as it is now. -/
def game : Machine Game := lift Resolve.game

/-- Changes the game. -/
def update (f : Game → Game) : Machine Unit := lift (Resolve.update f)

/-- Tells an event. -/
def emit (e : Event) : Machine Unit := lift (Resolve.emit e)

/-- The game after continuous effects. -/
def view (rules : Rules) : Machine View := do check (Checked.view rules (← game))

@[simp] theorem check_ok (a : α) : check (.ok a : Checked α) = pure a := rfl

theorem run_bind (m : Machine α) (k : α → Machine β) (p : Progress) :
    ((m >>= k) p).run = (m p).run.bind fun result =>
      match result with
      | .error failure => .ok (.error failure)
      | .ok (a, q) => (k a q).run := by
  change (ExceptT.bind (m p) fun s => k s.1 s.2).run = _
  unfold ExceptT.bind ExceptT.run ExceptT.mk
  refine congrArg (Except.bind (m p)) (funext fun result => ?_)
  cases result <;> rfl

theorem lift_bind (r : Resolve α) (k : α → Resolve β) :
    lift (r >>= k) = lift r >>= fun a => lift (k a) := by
  funext p
  change (lift (r >>= k) p).run = ((lift r >>= fun a => lift (k a)) p).run
  rw [run_bind]
  change Except.ok ((r >>= k) p) = _
  rw [Resolve.bind_apply]
  change _ = (Except.ok (r p)).bind _
  cases r p <;> rfl

/-- In a game that can be held and of which `P` is true, the machine comes to what the resolution
comes to, unless a counter runs out. What is left can be held, has at most so many parts of work
suspended in addition, and `Q` is true of it. -/
structure Mirrors (w : Nat) (P : Game → Prop) (m : Machine α) (r : Resolve α)
    (Q : α → Game → Prop) : Prop where
  runs : ∀ p : Progress, p.game.Typed → P p.game →
    (m p).run = .error .exhausted ∨ (m p).run = .ok (r p) ∧ ∀ a q, r p = .ok (a, q) →
      q.game.Typed ∧ q.game.weight ≤ p.game.weight + w ∧ Q a q.game

/-- In a game that can be held and of which `P` is true, the machine reads what the resolution
reads, and `ψ` is true of it. -/
structure Reads (P : Game → Prop) (m : Machine α) (r : Resolve α) (ψ : α → Prop) : Prop where
  runs : ∀ p : Progress, p.game.Typed → P p.game →
    (m p).run = .ok (r p) ∧ ∀ a q, r p = .ok (a, q) → q = p ∧ ψ a

/-- A part that mirrors the other whatever is true of the game, and suspends nothing. -/
abbrev Copies (m : Machine α) (r : Resolve α) : Prop :=
  Mirrors 0 (fun _ => True) m r fun _ _ => True

variable {w w' : Nat} {P P' : Game → Prop} {Q Q' : α → Game → Prop} {R : β → Game → Prop}
  {m : Machine α} {r : Resolve α} {k : α → Machine β} {k' : α → Resolve β} {ψ : α → Prop}

namespace Mirrors

/-- The rule of consequence. What is left may be judged by what the resolution comes to. -/
theorem consequence (h : Mirrors w P m r Q) (hP : ∀ {g : Game}, P' g → P g)
    (hQ : ∀ {p q : Progress} {a : α}, P' p.game → r p = .ok (a, q) →
      q.game.weight ≤ p.game.weight + w → Q a q.game →
      q.game.weight ≤ p.game.weight + w' ∧ Q' a q.game) : Mirrors w' P' m r Q' where
  runs p htyped hp := by
    rcases h.runs p htyped (hP hp) with hout | ⟨heq, hkeeps⟩
    · exact Or.inl hout
    · refine Or.inr ⟨heq, fun a q hr => ?_⟩
      obtain ⟨htyped', hweight, hq⟩ := hkeeps a q hr
      exact ⟨htyped', hQ hp hr hweight hq⟩

theorem mono (h : Mirrors w P m r Q) (hw : w ≤ w') (hP : ∀ {g : Game}, P' g → P g)
    (hQ : ∀ {a : α} {g : Game}, Q a g → Q' a g) : Mirrors w' P' m r Q' := by
  refine h.consequence hP fun _ _ hweight hq => ⟨?_, hQ hq⟩
  exact Nat.le_trans hweight (Nat.add_le_add_left hw _)

theorem of_pre (h : Mirrors w P m r Q) (hP : ∀ {g : Game}, P' g → P g) : Mirrors w P' m r Q :=
  h.mono (Nat.le_refl _) hP id

/-- A bound on what is suspended may be raised. -/
theorem atMost (h : Mirrors w P m r Q) (hw : w ≤ w') : Mirrors w' P m r Q :=
  h.mono hw id id

/-- What is needed of the game and what is left of it may be forgotten. -/
theorem anyhow (h : Mirrors w (fun _ => True) m r Q) : Mirrors w P m r fun _ _ => True :=
  h.mono (Nat.le_refl _) (fun _ => trivial) fun _ => trivial

theorem of_copies (h : Copies m r) : Mirrors w P m r fun _ _ => True :=
  h.anyhow.atMost (Nat.zero_le _)

protected theorem pure (a : α) (hQ : ∀ {g : Game}, P g → Q a g) :
    Mirrors w P (pure a) (pure a) Q where
  runs p htyped hp := by
    refine Or.inr ⟨rfl, ?_⟩
    rintro _ _ ⟨⟩
    exact ⟨htyped, Nat.le_add_right _ _, hQ hp⟩

protected theorem throw (failure : Failure) : Mirrors w P (throw failure) (throw failure) Q where
  runs p htyped hp := by
    refine Or.inr ⟨rfl, ?_⟩
    rintro _ _ ⟨⟩

/-- The parts of work that are suspended one after the other add up. -/
theorem followedBy (hm : Mirrors w P m r Q) (hk : ∀ a, Mirrors w' (Q a) (k a) (k' a) R) :
    Mirrors (w + w') P (m >>= k) (r >>= k') R where
  runs p htyped hp := by
    rw [run_bind, Resolve.bind_apply]
    rcases hm.runs p htyped hp with hout | ⟨heq, hkeeps⟩
    · rw [hout]
      exact Or.inl rfl
    · rw [heq]
      cases hr : r p with
      | error failure =>
        refine Or.inr ⟨rfl, ?_⟩
        rintro _ _ ⟨⟩
      | ok result =>
        obtain ⟨a, q⟩ := result
        obtain ⟨htyped', hweight, hq⟩ := hkeeps a q hr
        rcases (hk a).runs q htyped' hq with hout | ⟨hnext, hlast⟩
        · exact Or.inl hout
        · refine Or.inr ⟨hnext, fun b s hs => ?_⟩
          obtain ⟨htyped'', hweight', hs'⟩ := hlast b s hs
          exact ⟨htyped'', by omega, hs'⟩

protected theorem bind (hm : Mirrors 0 P m r Q) (hk : ∀ a, Mirrors w (Q a) (k a) (k' a) R) :
    Mirrors w P (m >>= k) (r >>= k') R :=
  (hm.followedBy hk).atMost (by omega)

/-- What follows a part may suspend nothing. -/
theorem bindStill (hm : Mirrors w P m r Q) (hk : ∀ a, Mirrors 0 (Q a) (k a) (k' a) R) :
    Mirrors w P (m >>= k) (r >>= k') R := hm.followedBy hk

/-- A part that needs nothing of the game may be followed by one that needs nothing either. -/
theorem andThen (hm : Copies m r) (hk : ∀ a, Mirrors w (fun _ => True) (k a) (k' a) R) :
    Mirrors w P (m >>= k) (r >>= k') R :=
  .bind hm.anyhow hk

/-- A bound on all that is left is a bound on what is suspended in addition. -/
theorem bounded (h : Mirrors w P m r Q) (hQ : ∀ {a : α} {g : Game}, Q a g → g.weight ≤ w') :
    Mirrors w' P m r Q := by
  refine h.consequence id fun _ _ _ hq => ⟨?_, hq⟩
  exact Nat.le_trans (hQ hq) (Nat.le_add_left _ _)

/-- A machine whose counter has run out mirrors anything. -/
theorem exhausted {k : α → Machine β} {r : Resolve β} :
    Mirrors w P (check (.error .exhausted) >>= k) r R where
  runs _ _ _ := Or.inl rfl

/-- A part that goes by the game, of which it is then known what it is. -/
theorem look {k : Game → Machine α} {k' : Game → Resolve α}
    (hk : ∀ g, g.Typed → P g → Mirrors w (fun h => h = g) (k g) (k' g) Q) :
    Mirrors w P (Machine.game >>= k) (Resolve.game >>= k') Q where
  runs p htyped hp := (hk p.game htyped hp).runs p htyped rfl

/-- A part that goes by the game, but needs nothing more of it. -/
theorem look_anyhow {k : Game → Machine α} {k' : Game → Resolve α}
    (hk : ∀ g, g.Typed → Mirrors w P (k g) (k' g) Q) :
    Mirrors w P (Machine.game >>= k) (Resolve.game >>= k') Q where
  runs p htyped hp := (hk p.game htyped).runs p htyped hp

theorem ite {c : Prop} [Decidable c] {m m' : Machine α} {r r' : Resolve α}
    (hyes : c → Mirrors w P m r Q) (hno : ¬c → Mirrors w P m' r' Q) :
    Mirrors w P (if c then m else m') (if c then r else r') Q := by
  split
  · next h => exact hyes h
  · next h => exact hno h

/-- A part that is turned down if a condition holds. -/
theorem guard {c : Prop} [Decidable c] {failure : Failure} {m : Machine α} {r : Resolve α}
    (h : Mirrors w P m r Q) : Mirrors w P
      (if c then (throw failure : Machine PUnit) >>= fun _ => m else m)
      (if c then (throw failure : Resolve PUnit) >>= fun _ => r else r) Q := by
  have hthrow : Mirrors 0 P (throw failure : Machine PUnit) (throw failure) fun _ => P :=
    .throw failure
  apply ite
  · intro hturned
    exact .bind hthrow fun _ => h
  · intro hfine
    exact h

/-- What one item keeps true, a list of items keeps true. -/
protected theorem forM {xs : List β} {body : β → Machine PUnit} {body' : β → Resolve PUnit}
    (hbody : ∀ x ∈ xs, Mirrors 0 P (body x) (body' x) fun _ => P) :
    Mirrors 0 P (xs.forM body) (xs.forM body') fun _ => P := by
  induction xs with
  | nil => exact .pure _ id
  | cons x rest ih =>
    have hfirst := hbody x List.mem_cons_self
    have hrest := ih fun y hy => hbody y (List.mem_cons_of_mem _ hy)
    exact Mirrors.bind hfirst fun _ => hrest

/-- A part in which nothing can trap mirrors itself. -/
theorem lift (h : ∀ {p q : Progress} {a : α}, p.game.Typed → P p.game → r p = .ok (a, q) →
    q.game.Typed ∧ q.game.weight ≤ p.game.weight + w ∧ Q a q.game) :
    Mirrors w P (Machine.lift r) r Q where
  runs _ htyped hp := Or.inr ⟨rfl, fun _ _ hr => h htyped hp hr⟩

theorem liftBind {k : α → Resolve β} (hr : Mirrors 0 P (Machine.lift r) r Q)
    (hk : ∀ a, Mirrors w (Q a) (Machine.lift (k a)) (k a) R) :
    Mirrors w P (Machine.lift (r >>= k)) (r >>= k) R := by
  rw [lift_bind]
  exact .bind hr hk

theorem update {f : Game → Game} {Q : Unit → Game → Prop}
    (h : ∀ {g : Game}, g.Typed → P g → (f g).Typed ∧ (f g).weight ≤ g.weight + w ∧ Q () (f g)) :
    Mirrors w P (Machine.update f) (Resolve.update f) Q := by
  apply lift
  rintro p q a htyped hp ⟨⟩
  exact h htyped hp

/-- A change of the game that was looked at. -/
theorem updateAt {f : Game → Game} {g : Game} (htyped : (f g).Typed)
    (hweight : (f g).weight ≤ g.weight + w) :
    Mirrors w (fun h => h = g) (Machine.update f) (Resolve.update f) fun _ h => h = f g := by
  apply update
  rintro h - rfl
  exact ⟨htyped, hweight, rfl⟩

theorem emit (e : Event) : Mirrors 0 P (Machine.emit e) (Resolve.emit e) fun _ => P := by
  apply lift
  rintro p q a htyped hp ⟨⟩
  exact ⟨htyped, Nat.le_refl _, hp⟩

/-- A part that goes by what it reads. -/
theorem read (h : Reads P m r ψ) (hk : ∀ a, ψ a → Mirrors w P (k a) (k' a) R) :
    Mirrors w P (m >>= k) (r >>= k') R where
  runs p htyped hp := by
    obtain ⟨heq, hread⟩ := h.runs p htyped hp
    rw [run_bind, Resolve.bind_apply, heq]
    cases hr : r p with
    | error failure =>
      refine Or.inr ⟨rfl, ?_⟩
      rintro _ _ ⟨⟩
    | ok result =>
      obtain ⟨a, q⟩ := result
      obtain ⟨rfl, ha⟩ := hread a q hr
      exact (hk a ha).runs q htyped hp

end Mirrors

namespace Reads

protected theorem pure {a : α} (ha : ψ a) : Reads P (pure a) (pure a) ψ where
  runs _ _ _ := by
    refine ⟨rfl, ?_⟩
    rintro _ _ ⟨⟩
    exact ⟨rfl, ha⟩

protected theorem bind {ψ' : β → Prop} (hm : Reads P m r ψ)
    (hk : ∀ a, ψ a → Reads P (k a) (k' a) ψ') : Reads P (m >>= k) (r >>= k') ψ' where
  runs p htyped hp := by
    obtain ⟨heq, hread⟩ := hm.runs p htyped hp
    rw [run_bind, Resolve.bind_apply, heq]
    cases hr : r p with
    | error failure =>
      refine ⟨rfl, ?_⟩
      rintro _ _ ⟨⟩
    | ok result =>
      obtain ⟨a, q⟩ := result
      obtain ⟨rfl, ha⟩ := hread a q hr
      exact (hk a ha).runs q htyped hp

/-- Reading in which nothing can trap. -/
theorem lift (h : ∀ {p q : Progress} {a : α}, p.game.Typed → P p.game → r p = .ok (a, q) →
    q = p ∧ ψ a) : Reads P (Machine.lift r) r ψ where
  runs _ htyped hp := ⟨rfl, fun _ _ hr => h htyped hp hr⟩

/-- The game after continuous effects can be held. -/
theorem view (rules : Rules) : Reads Game.Sound (Machine.view rules) (Resolve.view rules) View.Typed
    where
  runs p htyped hp := by
    refine ⟨?_, ?_⟩
    · change ((check (Checked.view rules p.game) p).run) = _
      rw [rules.checked_view hp htyped]
      rfl
    · rintro _ _ ⟨⟩
      exact ⟨rfl, rules.typed_view hp htyped⟩

/-- What is read alone is mirrored. -/
theorem mirrors (h : Reads P m r ψ) : Mirrors 0 P m r fun a g => ψ a ∧ P g where
  runs p htyped hp := by
    obtain ⟨heq, hread⟩ := h.runs p htyped hp
    refine Or.inr ⟨heq, fun a q hr => ?_⟩
    obtain ⟨rfl, ha⟩ := hread a q hr
    exact ⟨htyped, Nat.le_refl _, ha, hp⟩

end Reads

end Machine

end CardGame
