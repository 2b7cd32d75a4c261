import CardGame.Proofs.Play.Status
import CardGame.Proofs.Resolve.Certain

/-!
What no resolution touches. Cards stay what they are, face up or face down, and with their owners;
nobody gets poisoned; and attacks, blocks and attachments end but never begin. Only tokens come into
being and cease to be. The order and the numbers of the turn are the scheduler's, and the random
numbers to come are the same unless something shuffles or picks at random
(`Game.Arranged.untouched_execute`, `Game.Arranged.untouched_resume`).
-/

namespace CardGame

open Resolve

namespace Facets

variable {fs fs' fs'' : Facets}

/-- The facets that an object has for as long as it exists. -/
def lastingFacets : List FacetKind := [.card, .owner, .token, .faceDown]

/-- A player's poison counters. -/
def poison? (fs : Facets) : Option Nat := fs.player?.map (·.2)

/-- The lasting facets and the poison counters are the same, and marks of combat are as they were or
gone. -/
structure Lasts (fs fs' : Facets) : Prop where
  lasting : ∀ kind ∈ lastingFacets, fs'.byKind.find? kind = fs.byKind.find? kind
  poison : fs'.poison? = fs.poison?
  combat : ∀ kind ∈ Game.combatFacets,
    fs'.byKind.find? kind = none ∨ fs'.byKind.find? kind = fs.byKind.find? kind

namespace Lasts

theorem refl (fs : Facets) : Lasts fs fs := ⟨fun _ _ => rfl, rfl, fun _ _ => .inr rfl⟩

theorem trans (h : Lasts fs fs') (h' : Lasts fs' fs'') : Lasts fs fs'' where
  lasting kind hkind := (h'.lasting kind hkind).trans (h.lasting kind hkind)
  poison := h'.poison.trans h.poison
  combat kind hkind := by
    rcases h'.combat kind hkind with hnone | hsame
    · exact .inl hnone
    · exact (h.combat kind hkind).imp hsame.trans hsame.trans

/-- Recording a facet of another kind. -/
theorem insert {f : Facet} (hlasting : f.kind ∉ lastingFacets)
    (hcombat : f.kind ∉ Game.combatFacets) (hplayer : f.kind ≠ .player) :
    Lasts fs (fs.insert f) := by
  have hother {kind : FacetKind} (hne : f.kind ≠ kind) :
      (fs.insert f).byKind.find? kind = fs.byKind.find? kind := by simp [Facets.insert, hne]
  refine ⟨fun kind hkind => hother ?_, ?_, fun kind hkind => .inr (hother ?_)⟩
  · rintro rfl
    exact hlasting hkind
  · rw [poison?, poison?, player?, player?, hother hplayer]
  · rintro rfl
    exact hcombat hkind

/-- Another life total. -/
theorem insert_player {life life' : Int} {poison : Nat}
    (hbefore : fs.player? = some (life, poison)) : Lasts fs (fs.insert (.player life' poison)) := by
  have hother {kind : FacetKind} (hne : .player ≠ kind) :
      (fs.insert (.player life' poison)).byKind.find? kind = fs.byKind.find? kind := by
    simp [Facets.insert, Facet.kind, hne]
  refine ⟨fun kind hkind => hother ?_, ?_, fun kind hkind => .inr (hother ?_)⟩
  · rintro rfl
    simp [lastingFacets] at hkind
  · have hsame : fs.poison? = some poison := by rw [poison?, hbefore, Option.map_some]
    rw [hsame]
    simp [poison?, player?, Facets.insert, Facet.kind]
  · rintro rfl
    simp [Game.combatFacets] at hkind

theorem erase {kind : FacetKind} (hlasting : kind ∉ lastingFacets) (hplayer : kind ≠ .player) :
    Lasts fs (fs.erase kind) := by
  have hother {kind' : FacetKind} (hne : kind ≠ kind') :
      (fs.erase kind).byKind.find? kind' = fs.byKind.find? kind' := by simp [Facets.erase, hne]
  refine ⟨fun kind' hkind => hother ?_, ?_, fun kind' _ => ?_⟩
  · rintro rfl
    exact hlasting hkind
  · rw [poison?, poison?, player?, player?, hother hplayer]
  · by_cases hkind : kind = kind'
    · exact .inl (by simp [Facets.erase, hkind])
    · exact .inr (hother hkind)

end Lasts

end Facets

namespace Game

variable {g g' g'' : Game} {o : ObjectId}

/-- The same objects at the same table in the same turn, with what lasts about each. -/
structure Marked (g g' : Game) : Prop where
  seats : g'.seats = g.seats
  turn : g'.turn = g.turn
  nextObject : g'.nextObject = g.nextObject
  contains : ∀ o, g'.contains o = g.contains o
  facets : ∀ o, (g.facets o).Lasts (g'.facets o)

namespace Marked

theorem of_eq (hseats : g'.seats = g.seats) (hturn : g'.turn = g.turn)
    (hnext : g'.nextObject = g.nextObject) (hobjects : g'.objects = g.objects) : Marked g g' where
  seats := hseats
  turn := hturn
  nextObject := hnext
  contains o := by rw [Game.contains, hobjects, Game.contains]
  facets o := by
    rw [show g'.facets o = g.facets o by rw [Game.facets, hobjects, Game.facets]]
    exact .refl _

theorem trans (h : Marked g g') (h' : Marked g' g'') : Marked g g'' where
  seats := h'.seats.trans h.seats
  turn := h'.turn.trans h.turn
  nextObject := h'.nextObject.trans h.nextObject
  contains o := (h'.contains o).trans (h.contains o)
  facets o := (h.facets o).trans (h'.facets o)

/-- A change to the facets of one object. -/
theorem modify {F : Facets → Facets} (h : (g.facets o).Lasts (F (g.facets o))) :
    Marked g { g with objects := g.objects.modify o F } where
  seats := rfl
  turn := rfl
  nextObject := rfl
  contains o' := by rw [Game.contains, SortedMap.contains_modify, Game.contains]
  facets o' := by
    by_cases ho : o = o'
    · subst ho
      have hafter : ({ g with objects := g.objects.modify o F } : Game).facets o =
          ((g.objects.find? o).map F).getD .empty := by simp [Game.facets]
      rw [hafter]
      rw [Game.facets] at h ⊢
      cases hfind : g.objects.find? o with
      | none => exact .refl _
      | some fs =>
        rw [hfind] at h
        exact h
    · rw [facets_modify_of_ne ho]
      exact .refl _

theorem eraseFacets {kinds : List FacetKind}
    (hkinds : ∀ kind ∈ kinds, kind ∈ permanentFacets) (o : ObjectId) :
    Marked g (g.eraseFacets o kinds) := by
  induction kinds generalizing g with
  | nil => exact .of_eq rfl rfl rfl rfl
  | cons kind rest ih =>
    have hkind := hkinds kind List.mem_cons_self
    have hfirst : Marked g (g.eraseFacet o kind) := by
      refine .modify (.erase ?_ ?_)
      · revert hkind
        cases kind <;> decide
      · rintro rfl
        simp [permanentFacets] at hkind
    exact hfirst.trans (ih fun kind' hkind' => hkinds kind' (List.mem_cons_of_mem _ hkind'))

theorem enterBattlefield {controller : Seat} {u : Unit}
    (h : Game.enterBattlefield o controller g = .ok u g') : Marked g g' := by
  rw [enterBattlefield_eq_ok h]
  have hentered : Marked g { g with
      objects := g.objects.modify o (·.insert (.entered g.turn.number g.nextTimestamp)) } :=
    .modify (.insert (by simp [Facet.kind, Facets.lastingFacets])
      (by simp [Facet.kind, combatFacets]) (by simp [Facet.kind]))
  have hcontrolled := hentered.trans (.modify (o := o) (F := (·.insert (.controller controller)))
    (.insert (by simp [Facet.kind, Facets.lastingFacets]) (by simp [Facet.kind, combatFacets])
      (by simp [Facet.kind])))
  exact hcontrolled.trans (.of_eq rfl rfl rfl rfl)

end Marked

/-- The same table and turn. What there still is has what lasts, no new poison and no new mark of
combat. What there was not is a token with no mark of combat, under an identity not used before, and
what there is no longer was a token. -/
structure Untouched (g g' : Game) : Prop where
  seats : g'.seats = g.seats
  turn : g'.turn = g.turn
  next : g.nextObject ≤ g'.nextObject
  kept : ∀ o, g.contains o = true → g'.contains o = true → (g.facets o).Lasts (g'.facets o)
  created : ∀ o, g.contains o = false → g'.contains o = true → g.nextObject ≤ o.val ∧
    g'.has o .token = true ∧ ∀ kind ∈ combatFacets, g'.has o kind = false
  ceased : ∀ o, g.contains o = true → g'.contains o = false → g.has o .token = true

namespace Untouched

theorem of_marked (h : Marked g g') : Untouched g g' where
  seats := h.seats
  turn := h.turn
  next := h.nextObject.ge
  kept o _ _ := h.facets o
  created o hnot hthere := by
    rw [h.contains, hnot] at hthere
    cases hthere
  ceased o hthere hnot := by
    rw [h.contains, hthere] at hnot
    cases hnot

theorem refl (g : Game) : Untouched g g := .of_marked (.of_eq rfl rfl rfl rfl)

theorem has_token_of_lasts {fs fs' : Facets} (h : fs.Lasts fs') :
    fs'.has .token = fs.has .token := by
  have hsame := h.lasting .token (by simp [Facets.lastingFacets])
  rw [Facets.has, Facets.has, SortedMap.contains, SortedMap.contains, hsame]

theorem trans (hsound : g.Sound) (h : Untouched g g') (h' : Untouched g' g'') :
    Untouched g g'' where
  seats := h'.seats.trans h.seats
  turn := h'.turn.trans h.turn
  next := h.next.trans h'.next
  kept o hthere hthere'' := by
    cases hthere' : g'.contains o with
    | true => exact (h.kept o hthere hthere').trans (h'.kept o hthere' hthere'')
    | false =>
      -- identities are not used twice, so what has ceased to be does not come back
      have hold := hsound.housed.fresh hthere
      have hnew := (h'.created o hthere' hthere'').1
      have hnext := h.next
      omega
  created o hnot hthere'' := by
    cases hthere' : g'.contains o with
    | true =>
      obtain ⟨hnew, htoken, hcombat⟩ := h.created o hnot hthere'
      have hkept := h'.kept o hthere' hthere''
      refine ⟨hnew, (has_token_of_lasts hkept).trans htoken, fun kind hkind => ?_⟩
      have hbefore : (g'.facets o).byKind.find? kind = none :=
        SortedMap.find?_eq_none (hcombat kind hkind)
      have hafter : (g''.facets o).byKind.find? kind = none := by
        rcases hkept.combat kind hkind with hnone | hsame
        · exact hnone
        · exact hsame.trans hbefore
      rw [has, Facets.has, SortedMap.contains, hafter]
      rfl
    | false =>
      obtain ⟨hnew, htoken⟩ := h'.created o hthere' hthere''
      exact ⟨h.next.trans hnew, htoken⟩
  ceased o hthere hnot'' := by
    cases hthere' : g'.contains o with
    | true =>
      have htoken := h'.ceased o hthere' hnot''
      exact (has_token_of_lasts (h.kept o hthere hthere')).symm.trans htoken
    | false => exact h.ceased o hthere hthere'

theorem leaveBattlefield (g : Game) (o : ObjectId) : Untouched g (g.leaveBattlefield o) where
  seats := by rw [leaveBattlefield_frame]
  turn := by rw [leaveBattlefield_frame]
  next := by rw [leaveBattlefield_frame]
  kept o' hthere hthere' := by
    by_cases ho : o = o'
    · subst ho
      rw [contains_leaveBattlefield] at hthere'
      rw [facets_leaveBattlefield_self]
      split at hthere'
      · cases hthere'
      · next hnontoken =>
        rw [if_neg fun htoken => hnontoken ⟨htoken, rfl⟩]
        exact (Marked.eraseFacets (fun _ hkind => hkind) o).facets o
    · rw [facets_leaveBattlefield_of_ne ho]
      exact .refl _
  created o' hnot hthere := by
    rw [contains_leaveBattlefield, hnot, ite_self] at hthere
    cases hthere
  ceased o' hthere hnot := by
    rw [contains_leaveBattlefield, hthere] at hnot
    split at hnot
    · next htoken => exact htoken.2 ▸ htoken.1
    · cases hnot

theorem move {target origin : Zone} {p : Position} {controller : Option Seat}
    (h : Game.move o target p controller g = .ok origin g') (hsound : g.Sound) :
    Untouched g g' := by
  obtain ⟨zones, -, hcases⟩ := move_eq_ok h
  have hmoved : Marked g { g with zones } := .of_eq rfl rfl rfl rfl
  rcases hcases with ⟨-, -, rfl⟩ | ⟨-, rfl⟩ | ⟨-, -, henter⟩
  · exact (of_marked hmoved).trans hsound (leaveBattlefield _ o)
  · exact of_marked hmoved
  · exact of_marked (hmoved.trans (.enterBattlefield henter))

theorem bare_combat {fs : Facets} (h : fs.Bare) {kind : FacetKind} (hkind : kind ∈ combatFacets) :
    fs.has kind = false :=
  h.lacks kind (mem_permanentFacets_of_status (mem_statusFacets_of_combat hkind))

/-- A new token. -/
theorem spawn {card : Card} {s : Seat} {kind : ZoneKind}
    (h : Game.spawn card s kind true g = .ok o g') (hsound : g.Sound) : Untouched g g' := by
  obtain ⟨-, zones, -, hcases⟩ := spawn_eq_ok h
  have harrived : Untouched g (g.arrival card s true zones) := {
    seats := rfl
    turn := rfl
    next := Nat.le_succ _
    kept := fun o' hthere _ => by
      rw [facets_arrival, if_neg]
      · exact .refl _
      · rintro rfl
        rw [hsound.housed.next_not_contained] at hthere
        cases hthere
    created := fun o' hnot hthere => by
      rw [contains_arrival, hnot, Bool.or_false] at hthere
      have hnew := of_decide_eq_true hthere
      subst hnew
      have hfacets : (g.arrival card s true zones).facets ⟨g.nextObject⟩ =
          newFacets card s true := by rw [facets_arrival, if_pos rfl]
      refine ⟨Nat.le_refl _, ?_, fun kind hkind => ?_⟩
      · rw [has, hfacets, has_token_newFacets]
      · rw [has, hfacets]
        exact bare_combat (bare_newFacets card s true) hkind
    ceased := fun o' hthere hnot => by
      rw [contains_arrival, hthere, Bool.or_true] at hnot
      cases hnot }
  rcases hcases with ⟨-, rfl⟩ | ⟨-, henter⟩
  · exact harrived
  · exact harrived.trans hsound (of_marked (.enterBattlefield henter))

/-- No elementary change of a resolution touches it. -/
theorem alter {lasting : Duration → Prop} (h : Alter lasting g g') (hsound : g.Sound) :
    Untouched g g' := by
  cases h with
  | move howner h => exact move h hsound
  | @mark _ o f _ hrecords hthere h =>
    obtain ⟨-, rfl⟩ := setFacet_eq_ok h
    refine of_marked (.modify (.insert ?_ ?_ ?_)) <;> cases hrecords <;>
      simp [Facet.kind, Facets.lastingFacets, combatFacets]
  | unmark o kinds hkinds =>
    exact of_marked (.eraseFacets (fun kind hkind => mem_permanentFacets_of_status
      (hkinds kind hkind)) o)
  | life h =>
    obtain ⟨before, poison, hplayer, hset⟩ := player?_of_setLife h
    obtain ⟨-, rfl⟩ := setFacet_eq_ok hset
    exact of_marked (.modify (.insert_player hplayer))
  | create h => exact spawn h hsound
  | _ => exact of_marked (.of_eq rfl rfl rfl rfl)

/-- Nor does a course of them. -/
theorem changes {p q : Progress} (h : Progress.Changes (fun _ => True) p q)
    (hsound : p.game.Sound) : Untouched p.game q.game := by
  have hboth : q.game.Sound ∧ Untouched p.game q.game := by
    refine h.keeps (I := fun q => q.game.Sound ∧ Untouched p.game q.game) ?_ ⟨hsound, refl _⟩
    rintro q r hchange ⟨hq, hsofar⟩
    refine ⟨hchange.sound hq, ?_⟩
    cases hchange with
    | alter halter => exact hsofar.trans hsound (alter halter hq)
    | tell => exact hsofar
  exact hboth.2

end Untouched

end Game

namespace Resolve

/-- A plan leaves the random numbers to come as the part of the resolution does that follows it. -/
theorem Certain.random_of_plan {r : Resolve Outcome} {plan : Resolve (Option Stop)}
    {p q : Progress} {stop : Option Stop} (h : Certain r) (heq : r p = (plan >>= suspend) p)
    (hrun : plan p = .ok (stop, q)) : q.game.random = p.game.random := by
  rw [bind_of_ok hrun] at heq
  cases stop with
  | none => exact h.keeps heq
  | some stop =>
    rw [suspend_some] at heq
    have hkept := h.keeps heq
    exact hkept

end Resolve

namespace Rules

variable {rules : Rules}

/-- So do effects put off, if none of them shuffles or picks at random. -/
theorem random_planGroups {groups : List Group}
    (hcertain : ∀ group ∈ groups, Effect.isRandomAmong group.1 = false) {p q : Progress}
    {stop : Option Stop} (hsound : p.game.Sound)
    (hrun : rules.planGroups groups p = .ok (stop, q)) : q.game.random = p.game.random := by
  induction groups generalizing p with
  | nil =>
    cases hrun
    rfl
  | cons group rest ih =>
    obtain ⟨first, r, hfirst, hrest⟩ := bind_eq_ok hrun
    have hgroup := (Effect.certain_resolveAll rules (hcertain group List.mem_cons_self)
      group.2).random_of_plan (Effect.resolveAll_eq_plan group.1 group.2 hsound) hfirst
    cases first with
    | some stop =>
      cases hrest
      exact hgroup
    | none =>
      have hdirectly : Directly (fun _ => True) (fun _ => True)
          (Effect.planAll rules group.1 group.2) Stopping :=
        Effect.directly_planAll _ _ fun _ _ => trivial
      have hr := (hdirectly.runs hsound trivial hfirst).1.sound hsound
      exact (ih (fun group' hgroup' => hcertain group' (List.mem_cons_of_mem _ hgroup')) hr
        hrest).trans hgroup

/-- So does an answer, if neither the work that waits for it nor what was put off does. -/
theorem random_planAnswer {d : Decision} {work : Suspension} {answer : Answer}
    {groups : List Group} (hwork : work.isRandom = false)
    (hgroups : ∀ group ∈ groups, Effect.isRandomAmong group.1 = false) {p q : Progress}
    {stop : Option Stop} (hsound : p.game.Sound) (hready : work.Ready answer p.game)
    (hrun : rules.planAnswer d work answer groups p = .ok (stop, q)) :
    q.game.random = p.game.random := by
  obtain ⟨first, r, hfirst, hrest⟩ := bind_eq_ok hrun
  have hanswered := (work.certain_resume rules d hwork answer).random_of_plan
    (work.resume_eq_plan answer hsound hready) hfirst
  cases first with
  | some stop =>
    cases hrest
    exact hanswered
  | none =>
    have hr := ((work.directly_plan answer).runs hsound hready hfirst).1.sound hsound
    exact (random_planGroups hgroups hr hrest).trans hanswered

end Rules

namespace Game

variable {g g' : Game} {rules : Rules}

/-- A game that comes up when objects are also marked for combat, as attached or as face down, and
these marks taken off again. -/
inductive Arranged : Game → Prop
  | start {s : TableSettings} {g : Game} (h : start s = .ok g) : Arranged g
  | move {g : Game} (m : Move) (h : Arranged g) (hseated : m.Seated g) : Arranged (m.apply g)
  | mark {g g' : Game} {o : ObjectId} {f : Facet} {u : Unit} (h : Arranged g)
      (hkind : f.kind = .faceDown ∨ f.kind ∈ combatFacets) (hset : setFacet o f g = .ok u g') :
      Arranged g'
  | clear {g : Game} (o : ObjectId) {kind : FacetKind} (h : Arranged g)
      (hkind : kind = .faceDown ∨ kind ∈ combatFacets) : Arranged (g.eraseFacet o kind)

theorem Arranged.sound_poised (h : g.Arranged) : g.Sound ∧ g.Poised := by
  have hkinds {kind : FacetKind} (hkind : kind = .faceDown ∨ kind ∈ combatFacets) :
      kind ≠ .owner ∧ kind ≠ .token := by
    rcases hkind with rfl | hkind
    · decide
    · exact kind_ne_of_permanent (mem_permanentFacets_of_status (mem_statusFacets_of_combat hkind))
  have hstanding {g g' : Game} (hsame : SameStanding g g') (hcontrol : SameControl g g')
      (hzones : g'.zones = g.zones) (hfloating : g'.floating = g.floating)
      (hnext : g'.nextFloating = g.nextFloating) (h : g.Sound ∧ g.Poised) :
      g'.Sound ∧ g'.Poised :=
    ⟨h.1.congr hsame (hzones ▸ h.1.housed.consistent) hfloating hnext,
      h.2.congr hcontrol fun o z hzone => (hsame.zone? o).trans hzone⟩
  induction h with
  | start h => exact ⟨sound_start h, poised_start h⟩
  | move m _ hseated ih => exact sound_poised_apply ih.1 ih.2 m hseated
  | @mark g g' o f u _ hkind hset ih =>
    obtain ⟨howner, htoken⟩ := hkinds hkind
    obtain ⟨-, rfl⟩ := setFacet_eq_ok hset
    exact hstanding (sameStanding_insert howner htoken o) ⟨rfl, rfl, rfl⟩ rfl rfl rfl ih
  | @clear g o kind _ hkind ih =>
    obtain ⟨howner, htoken⟩ := hkinds hkind
    have hsame : SameStanding g (g.eraseFacet o kind) := sameStanding_modify
      (fun _ => Facets.owner?_erase howner) (fun _ => Facets.has_erase htoken) o
    exact hstanding hsame ⟨rfl, rfl, rfl⟩ rfl rfl rfl ih

/-- What a plan comes to leaves untouched what its changes do. -/
theorem untouched_conclude {P : Game → Prop} {plan : Resolve (Option Stop)} {p : Progress}
    (hplan : Directly (fun _ => True) P plan Stopping) (hsound : g.Sound) (hp : P p.game)
    (hpsound : p.game.Sound) (hbefore : Untouched g p.game) :
    Untouched g (Result.conclude g (plan p)).game := by
  cases hrun : plan p with
  | error failure => exact .refl g
  | ok result =>
    obtain ⟨stop, q⟩ := result
    have hq : Untouched g q.game :=
      hbefore.trans hsound (.changes (hplan.runs hpsound hp hrun).1 hpsound)
    cases stop with
    | none => exact hq.trans hsound (.of_marked (.of_eq rfl rfl rfl rfl))
    | some stop => exact hq.trans hsound (.of_marked (.of_eq rfl rfl rfl rfl))

theorem random_conclude {plan : Resolve (Option Stop)} {p : Progress}
    (hbefore : p.game.random = g.random)
    (hplan : ∀ {stop q}, plan p = .ok (stop, q) → q.game.random = p.game.random) :
    (Result.conclude g (plan p)).game.random = g.random := by
  cases hrun : plan p with
  | error failure => rfl
  | ok result =>
    obtain ⟨stop, q⟩ := result
    cases stop <;> exact (hplan hrun).trans hbefore

theorem Untouched.poison (h : Untouched g g') (hsound : g.Sound) (hsound' : g'.Sound) {s : Seat}
    (hs : s.index < g.seats) : (g'.facets (.ofSeat s)).poison? = (g.facets (.ofSeat s)).poison? :=
  (h.kept _ (hsound.housed.players hs) (hsound'.housed.players (h.seats ▸ hs))).poison

theorem untouched_execute (rules : Rules) (hsound : g.Sound) (e : Effect) (ctx : Context) :
    Untouched g (rules.execute g e ctx).game ∧
      (e.isRandom = false → (rules.execute g e ctx).game.random = g.random) := by
  cases hpending : g.pending with
  | some d =>
    have hfailed : (rules.execute g e ctx).game = g := by
      unfold Rules.execute
      rw [hpending]
      rfl
    rw [hfailed]
    exact ⟨.refl g, fun _ => rfl⟩
  | none =>
    rw [Rules.execute_eq hsound hpending]
    have hplan : Directly (fun _ => True) (fun _ => True) (e.plan rules ctx) Stopping :=
      e.directly_plan ctx fun _ _ => trivial
    refine ⟨untouched_conclude hplan hsound trivial hsound (.refl g), fun hcertain => ?_⟩
    refine random_conclude rfl fun hrun => ?_
    exact (e.certain_resolve rules hcertain ctx).random_of_plan (e.resolve_eq_plan ctx hsound) hrun

theorem untouched_resume (rules : Rules) (hsound : g.Sound) (hpoised : g.Poised) (r : Response) :
    Untouched g (rules.resume g r).game ∧ ((∀ f ∈ g.stack, f.work.isRandom = false) →
      (rules.resume g r).game.random = g.random) := by
  have hfailed {failure : Failure} (h : rules.resume g r = .failed g failure) :
      Untouched g (rules.resume g r).game ∧ ((∀ f ∈ g.stack, f.work.isRandom = false) →
        (rules.resume g r).game.random = g.random) := by
    rw [h]
    exact ⟨.refl g, fun _ => rfl⟩
  cases hpoised with
  | idle hpending => exact hfailed (Rules.resume_idle hpending r)
  | waiting d work groups hpending hstack hgroups hissued hfits =>
    cases hobjection : Rules.objection d r with
    | some failure =>
      have hrefused : rules.resume g r = .failed g failure := by
        rw [Rules.resume_waiting hpending hstack, hobjection]
      exact hfailed hrefused
    | none =>
      rcases Rules.resume_eq hsound hfits hpending hstack hobjection with ⟨-, hlong⟩ | hplan
      · exact hfailed hlong
      · have hready := Suspension.ready_of_fits hfits (Rules.objection_eq_none hobjection).2
        have hready' : work.Ready r.answer { g with pending := none, stack := [] } :=
          hready.congr fun _ _ => id
        have hanswering := Rules.sound_answering hsound
        rw [hplan]
        refine ⟨untouched_conclude (Rules.directly_planAnswer d work r.answer groups hgroups)
          hsound hready' hanswering (.of_marked (.of_eq rfl rfl rfl rfl)), fun hcertain => ?_⟩
        rw [hstack, List.forall_mem_cons, List.forall_mem_map] at hcertain
        exact random_conclude rfl fun hrun =>
          Rules.random_planAnswer hcertain.1 hcertain.2 hanswering hready' hrun

/-- Neither executing an effect nor any answer touches the turn, what lasts about objects or
anybody's poison, or marks anything for combat or as attached, and only tokens come into being and
cease to be. The random numbers to come stay the same if the effect, or all that is suspended,
neither shuffles nor picks at random. -/
theorem Arranged.untouched (h : g.Arranged) (rules : Rules) :
    (∀ e ctx, let g' := (rules.execute g e ctx).game
      g.Untouched g' ∧
      (∀ s : Seat, s.index < g.seats →
        (g'.facets (.ofSeat s)).poison? = (g.facets (.ofSeat s)).poison?) ∧
      (e.isRandom = false → g'.random = g.random)) ∧
    ∀ r, let g' := (rules.resume g r).game
      g.Untouched g' ∧
      (∀ s : Seat, s.index < g.seats →
        (g'.facets (.ofSeat s)).poison? = (g.facets (.ofSeat s)).poison?) ∧
      ((∀ f ∈ g.stack, f.work.isRandom = false) → g'.random = g.random) := by
  obtain ⟨hsound, hpoised⟩ := h.sound_poised
  constructor
  · intro e ctx
    obtain ⟨huntouched, hrandom⟩ := untouched_execute rules hsound e ctx
    have hsound' := ((rules.proper_execute hsound hpoised e ctx).sound_poised hsound hpoised).1
    exact ⟨huntouched, fun s hs => huntouched.poison hsound hsound' hs, hrandom⟩
  · intro r
    obtain ⟨huntouched, hrandom⟩ := untouched_resume rules hsound hpoised r
    have hsound' := ((rules.proper_resume hsound hpoised r).sound_poised hsound hpoised).1
    exact ⟨huntouched, fun s hs => huntouched.poison hsound hsound' hs, hrandom⟩

/-- An attacker that regenerates is out of combat, what is attached to it stays so and face down,
and a token comes into being. -/
theorem untouched_of_regenerated : ∃ g₀ g, start {} = .ok g₀ ∧
    let bear : CardDefinition := .creature ⟨7⟩ "Bear" 2 2
    let bears := (Move.spawn bear ⟨1⟩ .battlefield).apply
      ((Move.spawn bear ⟨0⟩ .battlefield).apply g₀)
    let e : Effect := .composite [.continuous (.regenerate (.target 0)), .destroyTarget,
      .library (.createToken (.creature "Wolf" 2 2) (.fixed 1) .you)]
    let g' := (Rules.execute {} g e { targets := [⟨2⟩] }).game
    g = { bears with
      objects := ((bears.objects.modify ⟨2⟩ (·.insert (.attacking ⟨1⟩))).modify ⟨3⟩
        (·.insert (.attached ⟨2⟩))).modify ⟨3⟩ (·.insert .faceDown) } ∧
    (g.facets ⟨2⟩).kinds = [.card, .owner, .controller, .entered, .attacking] ∧
    (g'.facets ⟨2⟩).kinds = [.card, .owner, .controller, .tapped, .entered] ∧
    (g'.facets ⟨3⟩).kinds = [.card, .owner, .controller, .entered, .attached, .faceDown] ∧
    (g'.facets ⟨4⟩).kinds = [.card, .owner, .controller, .entered, .token] ∧
    g.Untouched g' ∧ g'.random = g.random := by
  have hspawned {g : Game} (s : Seat) (hs : s.index < g.seats) (h : g.Arranged) :
      ((Move.spawn (.creature ⟨7⟩ "Bear" 2 2) s .battlefield).apply g).Arranged := .move _ h hs
  have hbears := hspawned ⟨1⟩ Nat.one_lt_two
    (hspawned ⟨0⟩ Nat.zero_lt_two (Arranged.start (s := {}) rfl))
  have hmark {g : Game} {o : ObjectId} {f : Facet} (h : g.Arranged)
      (hkind : f.kind = .faceDown ∨ f.kind ∈ combatFacets) (ho : g.contains o = true) :
      ({ g with objects := g.objects.modify o (·.insert f) } : Game).Arranged :=
    h.mark hkind (if_pos ho)
  have hstill {g : Game} {o o' : ObjectId} {f : Facet} (ho' : g.contains o' = true) :
      ({ g with objects := g.objects.modify o (·.insert f) } : Game).contains o' = true :=
    (SortedMap.contains_modify _ _ _ _).trans ho'
  have hmarked {g : Game} (h : g.Arranged) (hattacker : g.contains ⟨2⟩ = true)
      (hguard : g.contains ⟨3⟩ = true) : ({ g with
        objects := ((g.objects.modify ⟨2⟩ (·.insert (.attacking ⟨1⟩))).modify ⟨3⟩
          (·.insert (.attached ⟨2⟩))).modify ⟨3⟩ (·.insert .faceDown) } : Game).Arranged :=
    hmark (hmark (hmark h (.inr (by decide)) hattacker) (.inr (by decide)) (hstill hguard))
      (.inl rfl) (hstill (hstill hguard))
  refine ⟨_, _, rfl, rfl, by decide +kernel, by decide +kernel, by decide +kernel,
    by decide +kernel, ?_⟩
  obtain ⟨huntouched, -, hrandom⟩ := (Arranged.untouched (hmarked hbears (by decide +kernel)
    (by decide +kernel)) {}).1 (.composite [.continuous (.regenerate (.target 0)), .destroyTarget,
      .library (.createToken (.creature "Wolf" 2 2) (.fixed 1) .you)]) { targets := [⟨2⟩] }
  exact ⟨huntouched, hrandom rfl⟩

end Game

end CardGame
