import CardGame.Play
import CardGame.Proofs.Machine.Word

/-!
Values that a machine can hold. Each predicate says of a kind of value what arithmetic relies on:
that seats fit a byte, that the numbers which are used as they stand are amounts, and that the
counters of a game have not run out. Numbers of which only a saturated result is used are left free.
The size of an effect counts its parts, of which a machine's memory holds no more than it has
addresses.
-/

namespace CardGame

/-- The seat has a number of one byte. -/
def Seat.Typed (s : Seat) : Prop := s.index ≤ maxByte

instance (s : Seat) : Decidable s.Typed := inferInstanceAs (Decidable (_ ≤ _))

/-- The constants that the amount can come to are amounts. Products are saturated. -/
def Amount.Typed : Amount → Prop
  | .measure (.fixed n) => IsAmount n
  | .measure _ => True
  | .join _ a b => a.Typed ∧ b.Typed
  | .times _ _ => True
  | .nonNegative a => a.Typed
  | .cases _ a b => a.Typed ∧ b.Typed

def StaticAbility.Typed : StaticAbility → Prop
  | .definePowerToughness power toughness => power.Typed ∧ toughness.Typed
  | _ => True

structure Face.Typed (f : Face) : Prop where
  power : ∀ n ∈ f.power, IsAmount n
  toughness : ∀ n ∈ f.toughness, IsAmount n
  abilities : ∀ a ∈ f.abilities, a.Typed

structure TokenTemplate.Typed (t : TokenTemplate) : Prop where
  power : ∀ n ∈ t.power, IsAmount n
  toughness : ∀ n ∈ t.toughness, IsAmount n

theorem TokenTemplate.Typed.toCard {t : TokenTemplate} (h : t.Typed) : t.toCard.toFace.Typed where
  power := h.power
  toughness := h.toughness
  abilities := by simp [TokenTemplate.toCard]

def Modification.Typed : Modification → Prop
  | .changeController s => s.Typed
  | .setBase power toughness => IsAmount power ∧ IsAmount toughness
  | _ => True

/-- What is recorded as card, owner or controller is typed; other facets are free. -/
def Facet.Typed : Facet → Prop
  | .card c => c.toFace.Typed
  | .owner s => s.Typed
  | .controller s => s.Typed
  | _ => True

namespace Facets

def Typed (fs : Facets) : Prop := ∀ kind f, fs.byKind.find? kind = some f → f.Typed

variable {fs : Facets}

theorem typed_empty : empty.Typed := by
  rintro kind f ⟨⟩

theorem Typed.card (h : fs.Typed) {c : Card} (hc : fs.card? = some c) : c.toFace.Typed := by
  unfold card? at hc
  split at hc
  · next hfind =>
    cases hc
    exact h _ _ hfind
  · cases hc

theorem Typed.owner (h : fs.Typed) {s : Seat} (hs : fs.owner? = some s) : s.Typed := by
  unfold owner? at hs
  split at hs
  · next hfind =>
    cases hs
    exact h _ _ hfind
  · cases hs

theorem Typed.controller (h : fs.Typed) {s : Seat} (hs : fs.controller? = some s) : s.Typed := by
  unfold controller? at hs
  split at hs
  · next hfind =>
    cases hs
    exact h _ _ hfind
  · cases hs

theorem Typed.insert {f : Facet} (h : fs.Typed) (hf : f.Typed) : (fs.insert f).Typed := by
  intro kind f' hfind
  have hinsert : (if f.kind = kind then some f else fs.byKind.find? kind) = some f' := by
    simpa [Facets.insert] using hfind
  split at hinsert
  · cases hinsert
    exact hf
  · exact h _ _ hinsert

theorem Typed.erase (h : fs.Typed) (kind : FacetKind) : (fs.erase kind).Typed := by
  intro kind' f hfind
  have herase : (if kind = kind' then none else fs.byKind.find? kind') = some f := by
    simpa [Facets.erase] using hfind
  split at herase
  · cases herase
  · exact h _ _ herase

end Facets

structure Context.Typed (ctx : Context) : Prop where
  controller : ctx.controller.Typed
  opponent : ∀ s ∈ ctx.opponent, s.Typed
  triggeringPlayer : ∀ s ∈ ctx.triggeringPlayer, s.Typed
  x : IsAmount ctx.x
  division : ∀ n ∈ ctx.division.values, IsAmount n

theorem Context.Typed.withTargets {ctx : Context} (h : ctx.Typed) (targets : List ObjectId) :
    (ctx.withTargets targets).Typed := { h with }

/-- A price in life is an amount that has a negative. -/
def Cost.Typed : Cost → Prop
  | .life n => minAmount < n ∧ n ≤ maxAmount
  | _ => True

def ContinuousEffect.Typed : ContinuousEffect → Prop
  | .modifyStats _ power toughness _ | .modifyGroup _ power toughness _ =>
    power.Typed ∧ toughness.Typed
  | .setBase _ power toughness _ | .animate _ power toughness _ _ =>
    IsAmount power ∧ IsAmount toughness
  | _ => True

def PermanentEffect.Typed : PermanentEffect → Prop
  | .addCounters _ _ amount | .removeCounters _ _ amount | .distributeCounters _ amount =>
    amount.Typed
  | _ => True

def RemovalEffect.Typed : RemovalEffect → Prop
  | .sacrifice _ _ count => count.Typed
  | _ => True

def DamageEffect.Typed : DamageEffect → Prop
  | .deal _ amount | .divide amount | .gainLife _ amount | .loseLife _ amount => amount.Typed

def LibraryEffect.Typed : LibraryEffect → Prop
  | .draw _ count | .discard _ count | .discardAtRandom _ count | .mill _ count | .scry count
  | .reorderTop count | .separate count _ => count.Typed
  | .createToken token count _ => token.Typed ∧ count.Typed
  | .shuffle _ | .search _ _ _ _ => True

namespace Effect

mutual

/-- All parts of the effect are typed. -/
def Typed : Effect → Prop
  | .continuous e => e.Typed
  | .permanent e => e.Typed
  | .removal e => e.Typed
  | .damage e => e.Typed
  | .library e => e.Typed
  | .composite es => AllTyped es
  | .conditional _ yes no => Typed yes ∧ OptionTyped no
  | .may _ e => Typed e
  | .modal modes _ _ => ModesTyped modes
  | .payOrSuffer _ cost suffer => cost.Typed ∧ Typed suffer
  | .chooseTargets _ e => Typed e
  | .eachPlayerChooses _ _ => True

def AllTyped : List Effect → Prop
  | [] => True
  | e :: rest => Typed e ∧ AllTyped rest

def OptionTyped : Option Effect → Prop
  | none => True
  | some e => Typed e

def ModesTyped : List (String × Effect) → Prop
  | [] => True
  | (_, e) :: rest => Typed e ∧ ModesTyped rest

end

mutual

/-- The number of parts of an effect. -/
def size : Effect → Nat
  | .composite es => sizeOfAll es + 1
  | .conditional _ yes no => size yes + sizeOfOption no + 1
  | .may _ e => size e + 1
  | .modal modes _ _ => sizeOfModes modes + 1
  | .payOrSuffer _ _ suffer => size suffer + 1
  | .chooseTargets _ e => size e + 1
  | _ => 1

def sizeOfAll : List Effect → Nat
  | [] => 0
  | e :: rest => size e + sizeOfAll rest

def sizeOfOption : Option Effect → Nat
  | none => 0
  | some e => size e

def sizeOfModes : List (String × Effect) → Nat
  | [] => 0
  | (_, e) :: rest => size e + sizeOfModes rest

end

theorem size_pos (e : Effect) : 0 < e.size := by
  cases e <;> simp [size]

theorem allTyped_iff {es : List Effect} : AllTyped es ↔ ∀ e ∈ es, e.Typed := by
  induction es with
  | nil => simp [AllTyped]
  | cons e rest ih => rw [AllTyped, ih, List.forall_mem_cons]

theorem modesTyped_iff {modes : List (String × Effect)} :
    ModesTyped modes ↔ ∀ e ∈ modes.map (·.2), e.Typed := by
  induction modes with
  | nil => simp [ModesTyped]
  | cons mode rest ih =>
    rw [show ModesTyped (mode :: rest) ↔ mode.2.Typed ∧ ModesTyped rest from Iff.rfl, ih,
      List.map_cons, List.forall_mem_cons]

theorem sizeOfAll_eq (es : List Effect) : sizeOfAll es = (es.map size).sum := by
  induction es with
  | nil => rfl
  | cons e rest ih => rw [sizeOfAll, ih, List.map_cons, List.sum_cons]

theorem sizeOfModes_eq (modes : List (String × Effect)) :
    sizeOfModes modes = (modes.map fun mode => size mode.2).sum := by
  induction modes with
  | nil => rfl
  | cons mode rest ih =>
    rw [show sizeOfModes (mode :: rest) = mode.2.size + sizeOfModes rest from rfl, ih,
      List.map_cons, List.sum_cons]

theorem length_le_sizeOfAll (es : List Effect) : es.length ≤ sizeOfAll es := by
  induction es with
  | nil => exact Nat.zero_le _
  | cons e rest ih =>
    have hfirst := e.size_pos
    rw [List.length_cons, sizeOfAll]
    omega

end Effect

/-- What is divided by an answer is an amount. -/
def Question.Typed : Question → Prop
  | .distribution total _ _ => (total : Int) ≤ maxAmount
  | _ => True

namespace Suspension

def Typed : Suspension → Prop
  | .effects remaining ctx => Effect.AllTyped remaining ∧ ctx.Typed
  | .search player _ _ => player.Typed
  | .may e ctx | .chooseTargets e ctx => e.Typed ∧ ctx.Typed
  | .modal modes ctx => Effect.ModesTyped modes ∧ ctx.Typed
  | .payOrSuffer _ cost suffer ctx => cost.Typed ∧ suffer.Typed ∧ ctx.Typed
  | .payCost _ cost => cost.Typed
  | _ => True

/-- The number of parts of suspended work. -/
def size : Suspension → Nat
  | .effects remaining _ => Effect.sizeOfAll remaining + 1
  | .may e _ | .chooseTargets e _ | .payOrSuffer _ _ e _ => e.size + 1
  | .modal modes _ => Effect.sizeOfModes modes + 1
  | _ => 1

theorem size_pos (work : Suspension) : 0 < work.size := by
  cases work <;> simp [size]

end Suspension

namespace Game

/-- The number of parts of all suspended work. -/
def weight (g : Game) : Nat := (g.stack.map fun f => f.work.size).sum

/-- No counter of the game has run out, and everything in it can be held. -/
structure Typed (g : Game) : Prop where
  facets : ∀ o, (g.facets o).Typed
  floating : ∀ e ∈ g.floating, e.modification.change.Typed
  active : g.turn.active.Typed
  work : ∀ f ∈ g.stack, f.work.Typed
  question : ∀ d ∈ g.pending, d.question.Typed
  nextObject : g.nextObject ≤ maxWord
  nextTimestamp : g.nextTimestamp ≤ maxLong
  nextFloating : g.nextFloating ≤ maxWord
  nextDecision : g.nextDecision ≤ maxWord

variable {g : Game}

theorem length_stack_le_weight (g : Game) : g.stack.length ≤ g.weight := by
  unfold weight
  induction g.stack with
  | nil => exact Nat.zero_le _
  | cons f rest ih =>
    have hfirst := f.work.size_pos
    rw [List.length_cons, List.map_cons, List.sum_cons]
    omega

/-- Players have numbers of one byte, and owners are recorded so. -/
theorem Typed.owner? (h : g.Typed) {o : ObjectId} {s : Seat} (howner : g.owner? o = some s) :
    s.Typed := by
  unfold Game.owner? at howner
  rcases Option.or_eq_some_iff.mp howner with hseat | ⟨-, howner⟩
  · unfold Game.seat? ObjectId.seat? at hseat
    split at hseat
    · cases hseat
      have hmod : o.val % Seat.limit < 256 := Nat.mod_lt _ (by decide)
      exact Nat.le_of_lt_succ hmod
    · cases hseat
  · exact (h.facets o).owner howner

end Game

end CardGame
