import CardGame.Proofs.Projection.Control
import CardGame.Proofs.Resolve.Blameless
import CardGame.Proofs.Resolve.Resume

/-!
Which question goes with which suspended work. The check of an answer looks at the question only and
carrying it out looks at the work only, so the two have to match: `Suspension.Consumes` says when
they do. Then an answer that passes the check is one that the work can go on with
(`Suspension.Receives`), and it is never turned down by the work.
-/

namespace CardGame

open Resolve

/-- The question of a choice in turn order. -/
def PlayerChoice.Consumes : PlayerChoice → Question → Prop
  | .discard _, .cards .. | .sacrifice _ _, .cards .. | .creatureType, .option _ => True
  | _, _ => False

namespace Suspension

/-- Whether suspended work can go on with every answer to a question. -/
def Consumes : Suspension → Question → Prop
  | .search _ _ _, .cards .. | .scry _, .cards .. | .payCost _ _, .cards .. => True
  | .reorder _, .order _ => True
  | .separatePiles _ revealed _, .piles objects => objects = revealed
  | .choosePile _ _ _, .option options => options.length = 2
  | .may _ _, .yesNo | .payOrSuffer _ _ _ _, .yesNo => True
  | .modal modes _, .modes descriptions _ _ => descriptions = modes.map (·.1)
  | .chooseColor _ _ _, .color _ => True
  | .chooseTargets _ _, .targets .. => True
  | .distributeCounters _ _, .distribution .. | .divideDamage _, .distribution .. => True
  | .eachPlayerChooses choice _ _ _ _, question => choice.Consumes question
  | _, _ => False

/-- Work, the question that it waits for, and an answer that it can go on with. -/
inductive Receives : Suspension → Question → Answer → Prop
  | search {player : Seat} {destination : ZoneKind} {tapped ordered : Bool}
      {options chosen : List ObjectId} {fewest most : Nat}
      (h : Question.Selects options fewest most chosen) :
      Receives (.search player destination tapped) (.cards options fewest most ordered)
        (.cards chosen)
  | scry {player : Seat} {ordered : Bool} {options chosen : List ObjectId} {fewest most : Nat}
      (h : Question.Selects options fewest most chosen) :
      Receives (.scry player) (.cards options fewest most ordered) (.cards chosen)
  | reorder {player : Seat} {objects chosen : List ObjectId}
      (h : Question.Selects objects objects.length objects.length chosen) :
      Receives (.reorder player) (.order objects) (.order chosen)
  | separatePiles {chooser : Seat} {revealed pile : List ObjectId} {source : Option ObjectId}
      (honce : pile.Nodup) (hamong : pile ⊆ revealed) :
      Receives (.separatePiles chooser revealed source) (.piles revealed) (.firstPile pile)
  | choosePile {player : Seat} {first second : List ObjectId} {options : List String} {index : Nat}
      (hindex : index < 2) :
      Receives (.choosePile player first second) (.option options) (.option index)
  | may {effect : Effect} {ctx : Context} {yes : Bool} :
      Receives (.may effect ctx) .yesNo (.yesNo yes)
  | modal {modes : List Mode} {ctx : Context} {fewest most : Nat} {chosen : List Nat}
      (h : Question.Selects (List.range modes.length) fewest most chosen) :
      Receives (.modal modes ctx) (.modes (modes.map (·.1)) fewest most) (.modes chosen)
  | payOrSuffer {payer : Seat} {cost : Cost} {suffer : Effect} {ctx : Context} {yes : Bool} :
      Receives (.payOrSuffer payer cost suffer ctx) .yesNo (.yesNo yes)
  | payCost {payer : Seat} {cost : Cost} {ordered : Bool} {options chosen : List ObjectId}
      {fewest most : Nat} (h : Question.Selects options fewest most chosen) :
      Receives (.payCost payer cost) (.cards options fewest most ordered) (.cards chosen)
  | chooseColor {target : ObjectId} {duration : Duration} {ctx : Context} {options : List Color}
      {color : Color} : Receives (.chooseColor target duration ctx) (.color options) (.color color)
  | chooseTargets {effect : Effect} {ctx : Context} {legal chosen : List ObjectId}
      {fewest most : Nat} :
      Receives (.chooseTargets effect ctx) (.targets legal fewest most) (.targets chosen)
  | distributeCounters {kind : CounterKind} {ctx : Context} {total minimum : Nat}
      {recipients : List ObjectId} {shares : SortedMap ObjectId Nat}
      (h : Question.Divides total recipients minimum shares) :
      Receives (.distributeCounters kind ctx) (.distribution total recipients minimum)
        (.distribution shares)
  | divideDamage {ctx : Context} {total minimum : Nat} {recipients : List ObjectId}
      {shares : SortedMap ObjectId Nat} (h : Question.Divides total recipients minimum shares) :
      Receives (.divideDamage ctx) (.distribution total recipients minimum) (.distribution shares)
  | pickObjects {choice : PlayerChoice} {current : Seat} {remaining : List Seat}
      {picks : List (Seat × Pick)} {ctx : Context} {ordered : Bool}
      {options chosen : List ObjectId} {fewest most : Nat}
      (h : Question.Selects options fewest most chosen) :
      Receives (.eachPlayerChooses choice current remaining picks ctx)
        (.cards options fewest most ordered) (.cards chosen)
  | pickType {choice : PlayerChoice} {current : Seat} {remaining : List Seat}
      {picks : List (Seat × Pick)} {ctx : Context} {options : List String} {index : Nat}
      (hindex : index < options.length) :
      Receives (.eachPlayerChooses choice current remaining picks ctx) (.option options)
        (.option index)

/-- Work that goes with a question can go on with every answer that fits. -/
theorem Consumes.receives {work : Suspension} {q : Question} {a : Answer}
    (hconsumes : work.Consumes q) (haccepts : q.Accepts a) : work.Receives q a := by
  unfold Consumes at hconsumes
  split at hconsumes
  · cases a with
    | cards chosen => exact .search haccepts
    | _ => cases haccepts
  · cases a with
    | cards chosen => exact .scry haccepts
    | _ => cases haccepts
  · cases a with
    | cards chosen => exact .payCost haccepts
    | _ => cases haccepts
  · cases a with
    | order chosen => exact .reorder haccepts
    | _ => cases haccepts
  · subst hconsumes
    cases a with
    | firstPile pile => exact .separatePiles haccepts.1 haccepts.2
    | _ => cases haccepts
  · next options =>
    cases a with
    | option index =>
      have hindex : index < options.length := haccepts
      exact .choosePile (hconsumes ▸ hindex)
    | _ => cases haccepts
  · cases a with
    | yesNo yes => exact .may
    | _ => cases haccepts
  · cases a with
    | yesNo yes => exact .payOrSuffer
    | _ => cases haccepts
  · subst hconsumes
    cases a with
    | modes chosen =>
      have hselects := haccepts
      rw [Question.Accepts, List.length_map] at hselects
      exact .modal hselects
    | _ => cases haccepts
  · cases a with
    | color color => exact .chooseColor
    | _ => cases haccepts
  · cases a with
    | targets chosen => exact .chooseTargets
    | _ => cases haccepts
  · cases a with
    | distribution shares => exact .distributeCounters haccepts
    | _ => cases haccepts
  · cases a with
    | distribution shares => exact .divideDamage haccepts
    | _ => cases haccepts
  · unfold PlayerChoice.Consumes at hconsumes
    split at hconsumes
    · cases a with
      | cards chosen => exact .pickObjects haccepts
      | _ => cases haccepts
    · cases a with
      | cards chosen => exact .pickObjects haccepts
      | _ => cases haccepts
    · cases a with
      | option index => exact .pickType haccepts
      | _ => cases haccepts
    · cases hconsumes
  · cases hconsumes

theorem exists_modeEffects {modes : List Mode} {chosen : List Nat}
    (h : ∀ i ∈ chosen, i < modes.length) : ∃ es, modeEffects modes chosen = .ok es := by
  induction chosen with
  | nil => exact ⟨[], rfl⟩
  | cons i rest ih =>
    obtain ⟨es, hes⟩ := ih fun j hj => h j (List.mem_cons_of_mem _ hj)
    obtain ⟨⟨description, e⟩, hmode⟩ : ∃ mode, modes[i]? = some mode :=
      ⟨_, List.getElem?_eq_getElem (h i List.mem_cons_self)⟩
    refine ⟨e :: es, ?_⟩
    simp only [modeEffects, hmode, hes]
    rfl

/-- The effects of chosen modes leave nothing to chance if those of all modes do not. -/
theorem isRandomMode_of_chosen {modes : List Mode} {chosen : List Nat} {es : List Effect}
    (hes : modeEffects modes chosen = .ok es) (h : Effect.isRandomAmong es = true) :
    Effect.isRandomMode modes = true := by
  obtain ⟨-, rfl⟩ := modeEffects_eq_ok hes
  rw [Effect.isRandomAmong_eq_any, List.any_eq_true] at h
  obtain ⟨e, he, hrandom⟩ := h
  obtain ⟨i, -, hi⟩ := List.mem_filterMap.mp he
  obtain ⟨mode, hmode, rfl⟩ := List.mem_map.mp (List.mem_of_getElem? hi)
  rw [Effect.isRandomMode_eq_any]
  exact List.any_eq_true.mpr ⟨mode, hmode, hrandom⟩

variable {chance : Prop} {holder : Seat → Prop}

theorem woven_resolveModes (rules : Rules) (player : Seat) {modes : List Mode}
    {chosen : List Nat} (ctx : Context) (hctx : holder ctx.controller)
    (h : chosen ⊆ List.range modes.length)
    (hchance : Effect.isRandomMode modes = true → chance) :
    Woven chance holder (resolveModes rules player modes chosen ctx) := by
  have hchosen : ∀ i ∈ (SortedSet.ofList chosen).toList, i < modes.length := by
    intro i hi
    rw [SortedSet.mem_toList_iff, SortedSet.contains_ofList] at hi
    exact List.mem_range.mp (h (of_decide_eq_true hi))
  obtain ⟨es, hes⟩ := exists_modeEffects hchosen
  unfold resolveModes
  simp only [hes]
  exact .bind (.act (.announce rfl)) fun _ =>
    Effect.woven_resolveAll es ctx hctx fun hrandom =>
      hchance (isRandomMode_of_chosen hes hrandom)

theorem woven_payOrElse (rules : Rules) (payer : Seat) (cost : Cost) (suffer : Effect)
    (ctx : Context) (hctx : holder ctx.controller) (h : suffer.isRandom = true → chance) :
    Woven chance holder (payOrElse rules payer cost suffer ctx) := by
  refine .bind (.view rules) fun v => ?_
  exact .ite (cost.woven_pay rules ctx payer) (suffer.woven_resolve ctx hctx h)

/-- Going on with what is received is put together from actions, apart from putting cards on the
bottom of a library: that is no action, since no event says which cards are moved. -/
theorem woven_resume (rules : Rules) {d : Decision} {work : Suspension} {q : Question}
    {answer : Answer} (hquestion : d.question = q) (h : work.Receives q answer)
    (hscry : ∀ player, work ≠ .scry player) (hgrants : work.GrantsTo holder)
    (hchance : work.isRandom = true → chance) :
    Woven chance holder (work.resume rules d answer) := by
  cases h with
  | search => exact LibraryEffect.woven_finishSearch (hchance rfl) hgrants _ _ _
  | scry => exact absurd rfl (hscry _)
  | reorder => exact .act (.reorder _ _)
  | separatePiles => exact woven_pause _ _ _ _ _ trivial
  | choosePile hindex => exact LibraryEffect.woven_takePile _ _ _ _ hindex
  | may => exact .ite (Effect.woven_resolve _ _ hgrants hchance) (.pure _)
  | modal h => exact woven_resolveModes rules _ _ hgrants h.among hchance
  | payOrSuffer =>
    exact .ite (woven_payOrElse rules _ _ _ _ hgrants hchance)
      (Effect.woven_resolve _ _ hgrants hchance)
  | payCost => exact .bind (Cost.woven_payWith rules _ _ _) fun _ => .pure _
  | chooseColor => exact ContinuousEffect.woven_protect _ _ _ _ _
  | chooseTargets => exact Effect.woven_resolve _ _ hgrants hchance
  | distributeCounters => exact .bind (PermanentEffect.woven_placeShares _ _) fun _ => .pure _
  | divideDamage => exact .bind (DamageEffect.woven_dealShares rules _ _) fun _ => .pure _
  | pickObjects =>
    simp only [resume, PlayerChoice.pickOf]
    exact PlayerChoice.woven_goOn rules _ _ _ _
  | pickType hindex =>
    simp only [resume, hquestion, PlayerChoice.pickOf, List.getElem?_eq_getElem hindex]
    exact PlayerChoice.woven_goOn rules _ _ _ _

theorem blameless_resume (rules : Rules) {d : Decision} {work : Suspension} {q : Question}
    {answer : Answer} (hquestion : d.question = q) (h : work.Receives q answer) :
    Blameless (work.resume rules d answer) := by
  by_cases hscry : ∃ player, work = .scry player
  · obtain ⟨player, rfl⟩ := hscry
    cases h with
    | scry => exact blameless_finishScry _ _
  · exact (work.woven_resume rules hquestion h (fun player hplayer => hscry ⟨player, hplayer⟩)
      work.grantsTo_anybody fun _ => trivial).blameless

end Suspension

end CardGame
