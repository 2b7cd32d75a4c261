import CardGame.Proofs.Play.InTurn
import CardGame.Proofs.Play.Searching
import CardGame.Proofs.Resolve.Counting
import CardGame.Proofs.Resolve.Shelving

/-!
Players who look into their libraries: who put cards on the bottom or back on top, search, or have
piles separated. No card moves while somebody is asked, no answer that is accepted fails, and the
last answer puts every card where it should be, in order (`Game.Reachable.perused`).
-/

namespace CardGame

open Resolve

/-- Whether an effect lets its controller look at cards of the library. -/
def LibraryEffect.perusesLibrary : LibraryEffect → Bool
  | .scry _ | .reorderTop _ | .search .. | .separate .. => true
  | _ => false

/-- The topmost cards of the controller's library, as many as an amount says. -/
def Rules.lookedAt (rules : Rules) (g : Game) (ctx : Context) (count : Amount) : List ObjectId :=
  g.topOfLibrary ctx.controller ((rules.view g).evaluateCount ctx count)

/-- Whether an effect finds too few cards to ask about any. -/
def LibraryEffect.FindsTooFew (rules : Rules) (ctx : Context) (g : Game) : LibraryEffect → Prop
  | .scry count | .separate count _ => rules.lookedAt g ctx count = []
  | .reorderTop count => (rules.lookedAt g ctx count).length < 2
  | .search f count _ _ => g.found f ctx = [] ∨ count = 0
  | _ => False

/-- All zones but some list the same objects in the same order. -/
def Game.SameZonesBut (zones : List Zone) (g g' : Game) : Prop :=
  ∀ z, z ∉ zones → g'.zones.objects z = g.zones.objects z

/-- Where the cards are after the answers to what an effect asks about its controller's library. An
effect that finds too few to ask about leaves them where they are, but a search shuffles. -/
inductive LibraryEffect.Arranges (rules : Rules) (ctx : Context) (g g' : Game) :
    LibraryEffect → List Answer → Prop
  | unasked {e : LibraryEffect} (tooFew : e.FindsTooFew rules ctx g)
      (zones : g'.zones = g.zones) : Arranges rules ctx g g' e []
  | shuffled {f : ObjectFilter} {count : Nat} {destination : ZoneKind} {tapped : Bool}
      (tooFew : (search f count destination tapped).FindsTooFew rules ctx g)
      (library : (g'.library ctx.controller).Perm (g.library ctx.controller))
      (others : g.SameZonesBut [.library ctx.controller] g') :
      Arranges rules ctx g g' (.search f count destination tapped) []
  | scried {count : Amount} {chosen : List ObjectId}
      (among : chosen ⊆ rules.lookedAt g ctx count)
      (library : g'.library ctx.controller =
        chosen.reverse ++ (g.library ctx.controller).filter (!chosen.contains ·))
      (others : g.SameZonesBut [.library ctx.controller] g') :
      Arranges rules ctx g g' (.scry count) [.cards chosen]
  | reordered {count : Amount} {order : List ObjectId}
      (perm : order.Perm (rules.lookedAt g ctx count))
      (library : g'.library ctx.controller =
        (g.library ctx.controller).filter (!order.contains ·) ++ order.reverse)
      (onTop : g'.topOfLibrary ctx.controller order.length = order)
      (others : g.SameZonesBut [.library ctx.controller] g') :
      Arranges rules ctx g g' (.reorderTop count) [.order order]
  | searched {f : ObjectFilter} {count : Nat} {destination : ZoneKind} {tapped : Bool}
      {chosen : List ObjectId} (among : chosen ⊆ g.found f ctx) (atMost : chosen.length ≤ count)
      (owned : ∀ o ∈ chosen, g.owner? o = some ctx.controller)
      (library : (g'.library ctx.controller).Perm (if destination = .library
        then g.library ctx.controller
        else (g.library ctx.controller).filter (!chosen.contains ·)))
      (moved : destination ≠ .library → g'.zone ctx.controller destination =
        g.zone ctx.controller destination ++ chosen)
      (others : g.SameZonesBut [.library ctx.controller, ⟨ctx.controller, destination⟩] g') :
      Arranges rules ctx g g' (.search f count destination tapped) [.cards chosen]
  | separated {count : Amount} {separator : Selector} {revealed pile others : List ObjectId}
      {index : Nat}
      (top : revealed = rules.lookedAt g ctx count) (among : pile ⊆ revealed)
      (rest : others = revealed.filter (!pile.contains ·))
      (library : g'.library ctx.controller =
        (g.library ctx.controller).filter (!revealed.contains ·))
      (hand : g'.hand ctx.controller =
        g.hand ctx.controller ++ if index = 0 then pile else others)
      (graveyard : g'.graveyard ctx.controller =
        g.graveyard ctx.controller ++ if index = 0 then others else pile)
      (elsewhere : g.SameZonesBut
        [.library ctx.controller, .hand ctx.controller, .graveyard ctx.controller] g') :
      Arranges rules ctx g g' (.separate count separator) [.firstPile pile, .option index]

/-- What has come of an effect by answers that were accepted: somebody is still asked, and no card
has moved, or the cards are where they should be. Only where nobody is there to separate piles does
the effect fail, before anybody is asked. -/
inductive LibraryEffect.Perused (rules : Rules) (ctx : Context) (g : Game) (e : LibraryEffect)
    (answers : List Answer) : Result → Prop
  | refused {count : Amount} {separator : Selector} (effect : e = .separate count separator)
      (nobody : (rules.view g).players ctx separator = []) (unasked : answers = []) :
      Perused rules ctx g e answers (.failed g (.unboundSelector separator))
  | asking {g' : Game} {d : Decision} {es : List Event}
      (fewer : answers.length < e.questions g.seats) (still : g'.zones = g.zones) :
      Perused rules ctx g e answers (.paused g' d es)
  | finished {g' : Game} {es : List Event} (arranged : e.Arranges rules ctx g g' answers) :
      Perused rules ctx g e answers (.success g' es)

namespace LibraryEffect

/-- The question which of the topmost cards go to the bottom. -/
def scryRequest (ctx : Context) (top : List ObjectId) : Request where
  player := ctx.controller
  prompt := s!"Scry {top.length}: choose cards to put on the bottom"
  question := .cards top 0 top.length true
  source := ctx.source
  work := .scry ctx.controller

/-- The question in which order the topmost cards are put back. -/
def reorderRequest (ctx : Context) (top : List ObjectId) : Request where
  player := ctx.controller
  prompt := "Put the cards back in any order (first is on top)"
  question := .order top
  source := ctx.source
  work := .reorder ctx.controller

/-- The question how the topmost cards are separated. -/
def separationRequest (ctx : Context) (s : Seat) (revealed : List ObjectId) : Request where
  player := s
  prompt := "Separate the revealed cards into two piles"
  question := .piles revealed
  source := ctx.source
  work := .separatePiles ctx.controller revealed ctx.source

/-- The question which of two piles goes to the hand. -/
def pilesRequest (chooser : Seat) (source : Option ObjectId) (pile others : List ObjectId) :
    Request where
  player := chooser
  prompt := "Choose a pile to put into your hand"
  question := .option
    [s!"First pile ({pile.length} cards)", s!"Second pile ({others.length} cards)"]
  source := source
  work := .choosePile chooser pile others

variable {rules : Rules} {ctx : Context} {n : Nat} {p : Progress} {top : List ObjectId}

theorem askScry_apply (htop : p.game.topOfLibrary ctx.controller n = top) :
    askScry ctx n p =
      if top = [] then .ok (.done, p) else ask (some (scryRequest ctx top)) p := by
  unfold askScry
  rw [game_bind, htop]
  cases top <;> rfl

theorem askReorder_apply (htop : p.game.topOfLibrary ctx.controller n = top) :
    askReorder ctx n p =
      if top.length < 2 then .ok (.done, p) else ask (some (reorderRequest ctx top)) p := by
  unfold askReorder
  rw [game_bind, htop]
  split <;> rfl

/-- Separating piles needs a player who separates them. -/
theorem askSeparation_apply {separator : Selector}
    (htop : p.game.topOfLibrary ctx.controller n = top) :
    askSeparation rules ctx n separator p =
      if top = [] then .ok (.done, p) else
        match (rules.view p.game).players ctx separator with
        | [] => .error (.unboundSelector separator)
        | s :: _ => ask (some (separationRequest ctx s top))
          ⟨p.game, p.events ++ [.cardsRevealed ctx.controller top]⟩ := by
  unfold askSeparation
  rw [game_bind, htop]
  cases top with
  | nil => rfl
  | cons o rest =>
    rw [if_neg (List.cons_ne_nil _ _)]
    change (match (rules.view p.game).players ctx separator with
      | [] => _
      | s :: _ => _ : Resolve Outcome) p = _
    cases (rules.view p.game).players ctx separator <;> rfl

end LibraryEffect

/-- An effect that is done without asking takes no answer. -/
theorem Rules.answers_of_done {rules : Rules} {ctx : Context} {g : Game} {e : Effect} {q : Progress}
    {log : List (Decision × Answer)} {r : Result} (hidle : g.pending = none)
    (hrun : e.resolve rules ctx { game := g } = .ok (.done, q))
    (hanswers : rules.Answers (rules.execute g e ctx) log r) :
    log = [] ∧ r = .success q.settled.game q.settled.events := by
  rw [rules.execute_of_done hidle hrun] at hanswers
  cases hanswers
  exact ⟨rfl, rfl⟩

/-- Work that is all that is suspended takes one answer, if it comes to its end with each. -/
theorem Game.WaitsWith.answered_once {rules : Rules} {g : Game} {d : Decision} {es : List Event}
    {work : Suspension} {log : List (Decision × Answer)} {r : Result}
    {B : Answer → Zones → Prop} (h : g.WaitsWith d work)
    (hends : ∀ a, d.question.Accepts a → Succeeds (fun h => h.zones = g.zones)
      (work.resume rules d a) fun outcome h => outcome = .done ∧ B a h.zones)
    (hanswers : rules.Answers (.paused g d es) log r) :
    (log = [] ∧ r = .paused g d es) ∨ ∃ a g' es', log = [(d, a)] ∧ d.question.Accepts a ∧
      r = .success g' es' ∧ B a g'.zones := by
  cases hanswers with
  | none => exact .inl ⟨rfl, rfl⟩
  | @next _ _ _ a rest _ hcheck hrest =>
    have haccepts := Question.check_eq_ok_iff.mp hcheck
    obtain ⟨outcome, q, hrun, -, rfl, hB⟩ :=
      (hends a haccepts).runs (p := .resolving g d) (Rules.furnished_answering h.furnished) rfl
    rw [rules.resume_eq_ofRun h hcheck, settled_apply, hrun] at hrest
    cases hrest
    exact .inr ⟨a, _, _, rfl, haccepts, rfl, hB⟩

/-- Cards of a library that are among its topmost ones are listed in it. -/
theorem Game.mem_library_of_top {g : Game} {s : Seat} {n : Nat} {o : ObjectId}
    (ho : o ∈ g.topOfLibrary s n) : o ∈ g.zones.objects (.library s) :=
  List.mem_reverse.mp (List.mem_of_mem_take ho)

/-- Cards of a library that are put into the hand, and others that are then put into the graveyard,
are all that changes. -/
theorem Zones.Stacks.piles {zs moved zs' : Zones} {s : Seat} {kept rest revealed : List ObjectId}
    (hhand : zs.Stacks (.hand s) kept moved) (hgraveyard : moved.Stacks (.graveyard s) rest zs')
    (hcons : zs.Consistent) (hmoved : moved.Consistent) (honce : revealed.Nodup)
    (hperm : (kept ++ rest).Perm revealed)
    (hlisted : ∀ o ∈ revealed, o ∈ zs.objects (.library s)) :
    zs'.objects (.library s) = (zs.objects (.library s)).filter (!revealed.contains ·) ∧
      zs'.objects (.hand s) = zs.objects (.hand s) ++ kept ∧
      zs'.objects (.graveyard s) = zs.objects (.graveyard s) ++ rest ∧
      ∀ z, z ∉ [.library s, .hand s, .graveyard s] → zs'.objects z = zs.objects z := by
  have hnodup := hperm.symm.nodup honce
  have hcards : ∀ o ∈ kept ++ rest, o ∈ zs.objects (.library s) :=
    fun o ho => hlisted o (hperm.mem_iff.mp ho)
  obtain ⟨hkept, hrest⟩ := List.forall_mem_append.mp hcards
  have hrest' : ∀ o ∈ rest, o ∈ moved.objects (.library s) := fun o ho =>
    hhand.mem_objects (hrest o ho) fun ho' => (List.nodup_append'.mp hnodup).2.2 ho' ho
  have hother {z : Zone} (hz : z ≠ .library s) : zs'.objects z = zs.objects z ++
      (if z = .hand s then kept else []) ++ if z = .graveyard s then rest else [] := by
    rw [hgraveyard.objects_of_elsewhere hmoved hrest' hz,
      hhand.objects_of_elsewhere hcons hkept hz]
  have hlibrary {z : Zone} (hz : z.kind ≠ .library) : z ≠ .library s :=
    fun heq => hz (congrArg Zone.kind heq)
  refine ⟨?_, ?_, ?_, fun z hz => ?_⟩
  · rw [hgraveyard, hhand, if_neg (by simp [Zone.library, Zone.hand]),
      if_neg (by simp [Zone.library, Zone.graveyard]), List.append_nil, List.append_nil,
      List.filter_filter]
    refine List.filter_congr fun o _ => ?_
    have hsame : revealed.contains o = (kept.contains o || rest.contains o) := by
      rw [Bool.eq_iff_iff]
      simp [← hperm.mem_iff]
    rw [hsame, Bool.not_or, Bool.and_comm]
  · rw [hother (hlibrary (by simp [Zone.hand])), if_pos rfl,
      if_neg (by simp [Zone.hand, Zone.graveyard]), List.append_nil]
  · rw [hother (hlibrary (by simp [Zone.graveyard])), if_pos rfl,
      if_neg (by simp [Zone.hand, Zone.graveyard]), List.append_nil]
  · simp only [List.mem_cons, List.not_mem_nil, or_false, not_or] at hz
    rw [hother hz.1, if_neg hz.2.1, if_neg hz.2.2, List.append_nil, List.append_nil]

namespace Game.Reachable

variable {rules : Rules} {ctx : Context} {g : Game} {log : List (Decision × Answer)} {r : Result}
  {told : List Event}

/-- An effect that asks before it changes anything is all that is suspended. -/
theorem waitsWith_of_asks (h : g.Reachable) (hidle : g.pending = none) {e : Effect}
    {request : Request} (hrun : e.resolve rules ctx { game := g } = ask (some request) ⟨g, told⟩)
    (hsimple : request.work.isSimple = true) :
    (g.waiting request).WaitsWith (request.decision ⟨g.nextDecision⟩) request.work := by
  have hmoved := Reachable.move (.execute rules e ctx) h trivial
  rw [Move.apply, rules.execute_of_asks_telling hidle h.swept hrun] at hmoved
  exact hmoved.waitsWith rfl (stack_waiting (h.poised.stack_eq_nil hidle) request) hsimple

/-- An effect that asks once, before any card moves, needs the right answer to put the cards where
they should be. -/
theorem perused_of_asks (h : g.Reachable) (hidle : g.pending = none) {e : LibraryEffect}
    {request : Request} (honce : e.questions g.seats = 1)
    (hrun : (Effect.library e).resolve rules ctx { game := g } = ask (some request) ⟨g, told⟩)
    (hsimple : request.work.isSimple = true)
    (hends : ∀ a, request.question.Accepts a → Succeeds (fun h => h.zones = g.zones)
      (request.work.resume rules (request.decision ⟨g.nextDecision⟩) a) fun outcome h =>
        outcome = .done ∧ ∀ g', g'.zones = h.zones → e.Arranges rules ctx g g' [a])
    (hanswers : rules.Answers (rules.execute g (.library e) ctx) log r) :
    e.Perused rules ctx g (log.map (·.2)) r := by
  rw [rules.execute_of_asks_telling hidle h.swept hrun] at hanswers
  let B (a : Answer) (zones : Zones) : Prop :=
    ∀ g', g'.zones = zones → e.Arranges rules ctx g g' [a]
  obtain ⟨rfl, rfl⟩ | ⟨a, g', es', rfl, -, rfl, harranges⟩ :=
    (h.waitsWith_of_asks hidle hrun hsimple).answered_once (B := B) hends hanswers
  · exact .asking (honce ▸ Nat.one_pos) rfl
  · exact .finished (harranges g' rfl)

theorem perused_scry (h : g.Reachable) (hidle : g.pending = none) {count : Amount}
    (hanswers : rules.Answers (rules.execute g (.library (.scry count)) ctx) log r) :
    (LibraryEffect.scry count).Perused rules ctx g (log.map (·.2)) r := by
  let top := rules.lookedAt g ctx count
  have hrun : (Effect.library (.scry count)).resolve rules ctx { game := g } =
      if top = [] then .ok (.done, { game := g })
      else ask (some (LibraryEffect.scryRequest ctx top)) ⟨g, []⟩ :=
    LibraryEffect.askScry_apply rfl
  by_cases htop : top = []
  · rw [if_pos htop] at hrun
    obtain ⟨rfl, rfl⟩ := Rules.answers_of_done hidle hrun hanswers
    exact .finished (.unasked htop rfl)
  · rw [if_neg htop] at hrun
    refine h.perused_of_asks hidle rfl hrun rfl (fun a haccepts => ?_) hanswers
    cases a with
    | cards chosen =>
      obtain ⟨-, -, honce, hamong⟩ := haccepts
      have hcards : ∀ o ∈ chosen, o ∈ g.zones.objects (.library ctx.controller) :=
        fun o ho => mem_library_of_top (hamong ho)
      refine (LibraryEffect.succeeds_finishScry_sinks honce hcards).mono (fun _ => id) ?_
      rintro outcome h' ⟨hdone, hsinks⟩
      refine ⟨hdone, fun g' hzones => .scried hamong ?_ fun z hz => ?_⟩
      · change g'.zones.objects (.library ctx.controller) = _
        rw [hzones, hsinks (.library ctx.controller), if_pos rfl]
        rfl
      · have hne : z ≠ .library ctx.controller := fun heq => hz (List.mem_singleton.mpr heq)
        rw [hzones, hsinks.objects_of_elsewhere h.sound.housed.consistent hcards hne, if_neg hne,
          List.nil_append]
    | _ => exact haccepts.elim

theorem perused_reorderTop (h : g.Reachable) (hidle : g.pending = none) {count : Amount}
    (hanswers : rules.Answers (rules.execute g (.library (.reorderTop count)) ctx) log r) :
    (LibraryEffect.reorderTop count).Perused rules ctx g (log.map (·.2)) r := by
  let top := rules.lookedAt g ctx count
  have hrun : (Effect.library (.reorderTop count)).resolve rules ctx { game := g } =
      if top.length < 2 then .ok (.done, { game := g })
      else ask (some (LibraryEffect.reorderRequest ctx top)) ⟨g, []⟩ :=
    LibraryEffect.askReorder_apply rfl
  by_cases htop : top.length < 2
  · rw [if_pos htop] at hrun
    obtain ⟨rfl, rfl⟩ := Rules.answers_of_done hidle hrun hanswers
    exact .finished (.unasked htop rfl)
  · rw [if_neg htop] at hrun
    refine h.perused_of_asks hidle rfl hrun rfl (fun a haccepts => ?_) hanswers
    cases a with
    | order order =>
      have hperm : order.Perm top := Question.Selects.perm haccepts
      obtain ⟨henough, -, honce, hamong⟩ := haccepts
      have hsome : order ≠ [] := by
        rintro rfl
        simp only [List.length_nil] at henough
        omega
      refine (LibraryEffect.succeeds_finishReorder_zones hsome honce fun o ho =>
        mem_library_of_top (hamong ho)).mono (fun _ => id) ?_
      rintro outcome h' ⟨hdone, hrearranged⟩
      refine ⟨hdone, fun g' hzones => ?_⟩
      rw [hrearranged] at hzones
      have hlibrary : g'.zones.objects (.library ctx.controller) =
          (g.library ctx.controller).filter (!order.contains ·) ++ order.reverse := by
        rw [hzones, Zones.objects_rearrange, if_pos rfl]
        rfl
      refine .reordered hperm hlibrary ?_ fun z hz => ?_
      · rw [topOfLibrary, Zones.top, hlibrary, List.reverse_append, List.reverse_reverse,
          List.take_left]
      · rw [hzones, Zones.objects_rearrange, if_neg fun heq => hz (List.mem_singleton.mpr heq)]
    | _ => exact haccepts.elim

/-- Cards that a search has put on top of their destination before the library was shuffled. -/
theorem arranges_search (h : g.Reachable) {f : ObjectFilter} {n : Nat} {destination : ZoneKind}
    {tapped : Bool} {chosen : List ObjectId} {moved : Zones} {g' : Game} (honce : chosen.Nodup)
    (hamong : chosen ⊆ g.found f ctx) (hmost : chosen.length ≤ n)
    (hstacks : g.zones.Stacks ⟨ctx.controller, destination⟩ chosen moved)
    (hperm : (g'.zones.objects (.library ctx.controller)).Perm
      (moved.objects (.library ctx.controller)))
    (hothers : ∀ z, z ≠ .library ctx.controller → g'.zones.objects z = moved.objects z) :
    (LibraryEffect.search f n destination tapped).Arranges rules ctx g g' [.cards chosen] := by
  have hconsistent := h.sound.housed.consistent
  have hcards : ∀ o ∈ chosen, o ∈ g.zones.objects (.library ctx.controller) :=
    fun o ho => (List.mem_filter.mp (hamong ho)).1
  have howned (o : ObjectId) (ho : o ∈ chosen) : g.owner? o = some ctx.controller :=
    h.sound.housed.owner?_of_zone? (hconsistent.located (hcards o ho))
  refine .searched hamong hmost howned (hperm.trans ?_) (fun hother => ?_) fun z hz => ?_
  · rw [hstacks (.library ctx.controller)]
    by_cases hsame : destination = .library
    · rw [if_pos (by rw [hsame]; rfl), if_pos hsame]
      exact (LibraryEffect.perm_filter_append (hconsistent.nodup_objects _) honce hcards).symm
    · rw [if_neg (fun heq => hsame (congrArg Zone.kind heq).symm), if_neg hsame, List.append_nil]
      exact .refl _
  · have hne : (⟨ctx.controller, destination⟩ : Zone) ≠ .library ctx.controller :=
      fun heq => hother (congrArg Zone.kind heq)
    change g'.zones.objects _ = _
    rw [hothers _ hne, hstacks.objects_of_elsewhere hconsistent hcards hne, if_pos rfl]
    rfl
  · obtain ⟨hlibrary, hdestination⟩ : z ≠ .library ctx.controller ∧
        z ≠ ⟨ctx.controller, destination⟩ := by simpa using hz
    rw [hothers z hlibrary, hstacks.objects_of_elsewhere hconsistent hcards hlibrary,
      if_neg hdestination, List.append_nil]

theorem perused_search (h : g.Reachable) (hidle : g.pending = none) {f : ObjectFilter} {n : Nat}
    {destination : ZoneKind} {tapped : Bool} (hanswers : rules.Answers
      (rules.execute g (.library (.search f n destination tapped)) ctx) log r) :
    (LibraryEffect.search f n destination tapped).Perused rules ctx g (log.map (·.2)) r := by
  let found := g.found f ctx
  have hrun : (Effect.library (.search f n destination tapped)).resolve rules ctx { game := g } =
      if found.isEmpty || n = 0 then
        .ok (.done, ⟨g.shuffleLibrary ctx.controller, [.libraryShuffled ctx.controller]⟩)
      else ask (some (LibraryEffect.searchRequest ctx found n destination tapped)) ⟨g, []⟩ :=
    LibraryEffect.askSearch_apply
  by_cases hnothing : (found.isEmpty || n = 0) = true
  · rw [if_pos hnothing] at hrun
    obtain ⟨rfl, rfl⟩ := Rules.answers_of_done hidle hrun hanswers
    obtain ⟨hperm, hothers⟩ := g.zones.objects_shuffle (.library ctx.controller) g.random
    have htooFew : found = [] ∨ n = 0 := by simpa using hnothing
    refine .finished (.shuffled htooFew hperm fun z hz => ?_)
    exact hothers z fun heq => hz (List.mem_singleton.mpr heq)
  · rw [if_neg hnothing] at hrun
    refine h.perused_of_asks hidle rfl hrun rfl (fun a haccepts => ?_) hanswers
    cases a with
    | cards chosen =>
      obtain ⟨-, hmost, honce, hamong⟩ := haccepts
      refine (LibraryEffect.succeeds_finishSearch_stacks destination tapped honce fun o ho =>
        (List.mem_filter.mp (hamong ho)).1).mono (fun _ => id) ?_
      rintro outcome h' ⟨hdone, moved, hstacks, hperm, hothers⟩
      refine ⟨hdone, fun g' hzones => ?_⟩
      rw [← hzones] at hperm hothers
      exact h.arranges_search honce hamong (hmost.trans (Nat.min_le_right _ _)) hstacks hperm
        hothers
    | _ => exact haccepts.elim

/-- Two piles are separated, and the second answer says which of them goes to the hand. -/
theorem perused_piles {d : Decision} {es : List Event} {revealed : List ObjectId}
    {source : Option ObjectId} {s : Seat} (h : g.Reachable)
    (hwaits : g.WaitsWith d (.separatePiles s revealed source))
    (hquestion : d.question = .piles revealed) (honce : revealed.Nodup)
    (hlisted : ∀ o ∈ revealed, o ∈ g.zones.objects (.library s))
    (hanswers : rules.Answers (.paused g d es) log r) :
    (log.length < 2 ∧ ∃ g' d' es', r = .paused g' d' es' ∧ g'.zones = g.zones) ∨
      ∃ pile index g' es', log.map (·.2) = [.firstPile pile, .option index] ∧ pile ⊆ revealed ∧
        r = .success g' es' ∧
        let others := revealed.filter (!pile.contains ·)
        g'.library s = (g.library s).filter (!revealed.contains ·) ∧
        g'.hand s = g.hand s ++ (if index = 0 then pile else others) ∧
        g'.graveyard s = g.graveyard s ++ (if index = 0 then others else pile) ∧
        g.SameZonesBut [.library s, .hand s, .graveyard s] g' := by
  cases hanswers with
  | none => exact .inl ⟨Nat.two_pos, g, d, es, rfl, rfl⟩
  | @next _ _ _ a rest _ hcheck hrest =>
    have haccepts := Question.check_eq_ok_iff.mp hcheck
    rw [hquestion] at haccepts
    cases a with
    | firstPile pile =>
      obtain ⟨hpile, hamong⟩ := haccepts
      let others := revealed.filter (!pile.contains ·)
      let request := LibraryEffect.pilesRequest s source pile others
      have hasks : (Suspension.separatePiles s revealed source).resume rules d (.firstPile pile)
          (.resolving g d) = ask (some request) (.resolving g d) := rfl
      have hresume :=
        rules.resume_of_asks h.swept hwaits.pending hwaits.stack hcheck hasks
      have hreachable := Reachable.move (.resume rules ⟨d.id, .firstPile pile⟩) h trivial
      rw [Move.apply, hresume] at hreachable
      rw [hresume] at hrest
      have hpiles : (pile ++ others).Perm revealed := List.perm_append_comm.trans
        (LibraryEffect.perm_filter_append honce hpile hamong).symm
      have hwaits' : ((Progress.resolving g d).game.waiting request).WaitsWith
          (request.decision ⟨g.nextDecision⟩) (.choosePile s pile others) :=
        hreachable.waitsWith rfl rfl rfl
      let B (a : Answer) (zones : Zones) : Prop := ∃ index moved, a = .option index ∧
        moved.Consistent ∧ g.zones.Stacks (.hand s) (if index = 0 then pile else others) moved ∧
        moved.Stacks (.graveyard s) (if index = 0 then others else pile) zones
      have hends (a : Answer) (haccepts : request.question.Accepts a) :
          Succeeds (fun h => h.zones = g.zones) ((Suspension.choosePile s pile others).resume rules
            (request.decision ⟨g.nextDecision⟩) a) fun outcome h =>
              outcome = .done ∧ B a h.zones := by
        cases a with
        | option index =>
          refine (LibraryEffect.succeeds_takePile_stacks _ haccepts (hpiles.symm.nodup honce)
            fun o ho => hlisted o (hpiles.mem_iff.mp ho)).mono (fun _ => id) ?_
          rintro outcome h ⟨hdone, moved, hmoved⟩
          exact ⟨hdone, index, moved, rfl, hmoved⟩
        | _ => exact haccepts.elim
      obtain ⟨rfl, rfl⟩ | ⟨a, g', es', rfl, -, rfl, index, moved, rfl, hmoved, hhand, hgraveyard⟩ :=
        hwaits'.answered_once (B := B) hends hrest
      · exact .inl ⟨Nat.one_lt_two, _, _, _, rfl, rfl⟩
      · have hswapped : ((if index = 0 then pile else others) ++
            if index = 0 then others else pile).Perm revealed := by
          split
          · exact hpiles
          · exact List.perm_append_comm.trans hpiles
        obtain ⟨hlibrary, hhand, hgraveyard, hothers⟩ := hhand.piles hgraveyard
          h.sound.housed.consistent hmoved honce hswapped hlisted
        exact .inr ⟨pile, index, g', es', rfl, hamong, rfl, hlibrary, hhand, hgraveyard, hothers⟩
    | _ => exact haccepts.elim

theorem perused_separate (h : g.Reachable) (hidle : g.pending = none) {count : Amount}
    {separator : Selector}
    (hanswers : rules.Answers (rules.execute g (.library (.separate count separator)) ctx) log r) :
    (LibraryEffect.separate count separator).Perused rules ctx g (log.map (·.2)) r := by
  let top := rules.lookedAt g ctx count
  have hread : g.topOfLibrary ctx.controller ((rules.view g).evaluateCount ctx count) = top := rfl
  have hrun : (Effect.library (.separate count separator)).resolve rules ctx { game := g } = _ :=
    LibraryEffect.askSeparation_apply hread
  by_cases htop : top = []
  · rw [if_pos htop] at hrun
    obtain ⟨rfl, rfl⟩ := Rules.answers_of_done hidle hrun hanswers
    exact .finished (.unasked htop rfl)
  · rw [if_neg htop] at hrun
    cases hplayers : (rules.view g).players ctx separator with
    | nil =>
      rw [hplayers] at hrun
      rw [rules.execute_of_fails hidle hrun] at hanswers
      cases hanswers
      exact .refused rfl hplayers rfl
    | cons s rest =>
      rw [hplayers] at hrun
      rw [rules.execute_of_asks_telling hidle h.swept hrun] at hanswers
      have hwaits := h.waitsWith_of_asks hidle hrun rfl
      have hreachable := Reachable.move
        (.execute rules (.library (.separate count separator)) ctx) h trivial
      rw [Move.apply, rules.execute_of_asks_telling hidle h.swept hrun] at hreachable
      obtain ⟨hfewer, g', d', es', rfl, hstill⟩ | ⟨pile, index, g', es', hlog, hamong, rfl,
          hlibrary, hhand, hgraveyard, hothers⟩ := hreachable.perused_piles hwaits rfl
        (h.sound.housed.nodup_topOfLibrary _ _) (fun o ho => mem_library_of_top ho) hanswers
      · refine .asking ?_ hstill
        rw [List.length_map]
        exact hfewer
      · rw [hlog]
        exact .finished (.separated rfl hamong rfl hlibrary hhand hgraveyard hothers)

/-- Looking into a library fails only where nobody is there to separate piles. Else, whatever
answers are accepted, no card has moved as long as somebody is asked, and with the last answer every
card is where it should be. Cards put on the bottom end beneath the others, each under the one
before; cards put back on top end above them, the first topmost; of the piles one ends in the hand
and the other in the graveyard; and what is taken in a search ends on top of its destination, while
the library is shuffled. Nobody is asked only if there are too few cards to ask about. -/
theorem perused (h : g.Reachable) (hidle : g.pending = none) (rules : Rules) (ctx : Context)
    {e : LibraryEffect} (hperuses : e.perusesLibrary = true)
    (hanswers : rules.Answers (rules.execute g (.library e) ctx) log r) :
    e.Perused rules ctx g (log.map (·.2)) r := by
  cases e with
  | scry count => exact h.perused_scry hidle hanswers
  | reorderTop count => exact h.perused_reorderTop hidle hanswers
  | search f n destination tapped => exact h.perused_search hidle hanswers
  | separate count separator => exact h.perused_separate hidle hanswers
  | _ => cases hperuses

end Game.Reachable

/-- A library of four cards: one of the topmost two is put on the bottom, the topmost three are put
back in another order, two of the topmost three are taken as a pile, and two are put onto the
battlefield. -/
theorem Game.perused_of_four_cards : ∃ g₀, start {} = .ok g₀ ∧
    let bear : Move := .spawn (.creature ⟨7⟩ "Bear" 2 2) ⟨0⟩ .library
    let g := bear.apply (bear.apply (bear.apply (bear.apply g₀)))
    let two : LibraryEffect := .scry (.fixed 2)
    let three : LibraryEffect := .reorderTop (.fixed 3)
    let piles : LibraryEffect := .separate (.fixed 3) (.specific ⟨1⟩)
    let search : LibraryEffect := .search .anything 2 .battlefield true
    (∃ r, two.Perused {} {} g [.cards [⟨5⟩]] r ∧
      r.game.library ⟨0⟩ = [⟨5⟩, ⟨2⟩, ⟨3⟩, ⟨4⟩]) ∧
    (∃ r, three.Perused {} {} g [.order [⟨3⟩, ⟨5⟩, ⟨4⟩]] r ∧
      r.game.library ⟨0⟩ = [⟨2⟩, ⟨4⟩, ⟨5⟩, ⟨3⟩]) ∧
    (∃ r, piles.Perused {} {} g [.firstPile [⟨5⟩], .option 1] r ∧
      r.game.library ⟨0⟩ = [⟨2⟩] ∧ r.game.hand ⟨0⟩ = [⟨4⟩, ⟨3⟩] ∧ r.game.graveyard ⟨0⟩ = [⟨5⟩]) ∧
    ∃ r, search.Perused {} {} g [.cards [⟨3⟩, ⟨5⟩]] r ∧ r.game.zone ⟨0⟩ .battlefield = [⟨3⟩, ⟨5⟩] ∧
      (r.game.library ⟨0⟩).Perm [⟨2⟩, ⟨4⟩] := by
  have honce (g : Game) (h : g.Reachable) (hidle : g.pending = none) (e : LibraryEffect)
      (hperuses : e.perusesLibrary = true) (d : Decision) (a : Answer) (asked : Result)
      (hasked : Rules.execute {} g (.library e) {} = asked)
      (hpaused : asked = .paused asked.game d asked.events)
      (hcheck : d.question.check a = .ok ()) :
      e.Perused {} {} g [a] (Rules.resume {} asked.game ⟨d.id, a⟩) := by
    have hanswers : Rules.Answers {} (Rules.execute {} g (.library e) {}) [(d, a)]
        (Rules.resume {} asked.game ⟨d.id, a⟩) := by
      rw [hasked, hpaused]
      exact .next hcheck .none
    exact h.perused hidle {} {} hperuses hanswers
  have htwice (g : Game) (h : g.Reachable) (hidle : g.pending = none) (e : LibraryEffect)
      (hperuses : e.perusesLibrary = true) (d d' : Decision) (a a' : Answer) (asked again : Result)
      (hasked : Rules.execute {} g (.library e) {} = asked)
      (hpaused : asked = .paused asked.game d asked.events)
      (hcheck : d.question.check a = .ok ())
      (hagain : Rules.resume {} asked.game ⟨d.id, a⟩ = again)
      (hpaused' : again = .paused again.game d' again.events)
      (hcheck' : d'.question.check a' = .ok ()) :
      e.Perused {} {} g [a, a'] (Rules.resume {} again.game ⟨d'.id, a'⟩) := by
    have hanswers : Rules.Answers {} (Rules.execute {} g (.library e) {}) [(d, a), (d', a')]
        (Rules.resume {} again.game ⟨d'.id, a'⟩) := by
      rw [hasked, hpaused]
      refine .next hcheck ?_
      rw [hagain, hpaused']
      exact .next hcheck' .none
    exact h.perused hidle {} {} hperuses hanswers
  have hspawned {g : Game} (hs : 0 < g.seats) (h : g.Reachable) :
      ((Move.spawn (.creature ⟨7⟩ "Bear" 2 2) ⟨0⟩ .library).apply g).Reachable := .move _ h hs
  have hcards := hspawned Nat.zero_lt_two (hspawned Nat.zero_lt_two
    (hspawned Nat.zero_lt_two (hspawned Nat.zero_lt_two (Reachable.start (s := {}) rfl))))
  refine ⟨_, rfl, ?_, ?_, ?_, ?_⟩
  · exact ⟨_, honce _ hcards rfl (.scry (.fixed 2)) rfl ⟨⟨1⟩, ⟨0⟩,
      "Scry 2: choose cards to put on the bottom", none, .cards [⟨5⟩, ⟨4⟩] 0 2 true⟩ _ _ rfl
      (by decide +kernel) (by decide +kernel), by decide +kernel⟩
  · exact ⟨_, honce _ hcards rfl (.reorderTop (.fixed 3)) rfl ⟨⟨1⟩, ⟨0⟩,
      "Put the cards back in any order (first is on top)", none, .order [⟨5⟩, ⟨4⟩, ⟨3⟩]⟩ _ _ rfl
      (by decide +kernel) (by decide +kernel), by decide +kernel⟩
  · exact ⟨_, htwice _ hcards rfl (.separate (.fixed 3) (.specific ⟨1⟩)) rfl
      ⟨⟨1⟩, ⟨1⟩, "Separate the revealed cards into two piles", none,
        .piles [⟨5⟩, ⟨4⟩, ⟨3⟩]⟩
      ⟨⟨2⟩, ⟨0⟩, "Choose a pile to put into your hand", none,
        .option ["First pile (1 cards)", "Second pile (2 cards)"]⟩ _ _ _ _ rfl
      (by decide +kernel) (by decide +kernel) rfl (by decide +kernel) (by decide +kernel),
      by decide +kernel⟩
  · exact ⟨_, honce _ hcards rfl (.search .anything 2 .battlefield true) rfl ⟨⟨1⟩, ⟨0⟩,
      "Search your library for up to 2 card(s)", none, .cards [⟨2⟩, ⟨3⟩, ⟨4⟩, ⟨5⟩] 0 2 false⟩ _ _
      rfl (by decide +kernel) (by decide +kernel), by decide +kernel⟩

end CardGame
