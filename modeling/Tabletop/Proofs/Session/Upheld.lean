import Tabletop.Proofs.Flow.Safety
import Tabletop.Proofs.Flow.TakenSteps
import Tabletop.Proofs.Session.FollowUps
import Tabletop.Proofs.Session.Steps

/-! # What operations uphold

An operation comes by the flows under way in a few ways only: it looks up the running
flow, which goes on by itself or has a move taken at one of its stops, it enters flows and
follow-ups, and it leaves the running flow. A property of sessions that all of these uphold
is upheld by every operation, and the only errors about flows that are missing are those of
flows that were looked up in vain. No operation runs into a trail that does not fit.

Main statements: `Upheld.play`, `Upheld.submit`, `Upheld.force` and `Upheld.replay`.
-/

namespace Tabletop

variable {G : Type} {α β : Type}

/-! ### Errors about flows and trails -/

/-- The error is about a flow that is not there, or a trail that does not fit. -/
def PlayError.isLost : PlayError → Bool
  | unknownFlow _ | invalidTrail .. => true
  | _ => false

/-- A result is good, and an error is about something else than flows and trails. -/
structure Playing.Arrives (good : α → Prop) (result : Playing α) : Prop where
  good_of_eq_ok : ∀ a, result = .ok a → good a
  not_lost : ∀ e, result = .error e → e.isLost = false

namespace Playing.Arrives

variable {good : α → Prop} {good' : β → Prop} {result : Playing α}

theorem ok {a : α} (h : good a) : Arrives good (.ok a) := by
  refine ⟨?_, nofun⟩
  rintro _ ⟨⟩
  exact h

theorem error {e : PlayError} (h : e.isLost = false) : Arrives good (.error e : Playing α) := by
  refine ⟨nofun, ?_⟩
  rintro _ ⟨⟩
  exact h

theorem bind {next : α → Playing β} (h : result.Arrives good)
    (goes_on : ∀ a, good a → (next a).Arrives good') : (result >>= next).Arrives good' := by
  cases result with
  | ok a => exact goes_on a (h.good_of_eq_ok a rfl)
  | error e => exact error (h.not_lost e rfl)

theorem checked (result : Checked α) : (ofChecked result).Arrives fun _ => True := by
  cases result with
  | ok a => exact ok trivial
  | error fault => exact error rfl

theorem of_returns [Game G] {flow : Flow G} (h : flow.Returns good result) :
    result.Arrives good := by
  cases h with
  | ok h => exact ok h
  | fault _ => exact error rfl

end Playing.Arrives

theorem Drive.Ends.arriving {t : Table G} {good : α → Table G → Prop} {good' : α → Prop}
    {fair : PlayError → Table G → Prop} {result : Playing α} (h : result.Arrives good')
    (ok : ∀ a, result = .ok a → good' a → good a t) (error : ∀ e, e.isLost = false → fair e t) :
    (liftM result : Drive G α).Ends t good fair :=
  .playing (fun a eq => ok a eq (h.good_of_eq_ok a eq)) fun e eq => error e (h.not_lost e eq)

/-! ### Sessions -/

/-- A game that is played has a flow under way. -/
def Session.Live (s : Session) : Prop := s.status = .playing → s.stack ≠ []

namespace Rules

/-- The flow that an identity stands for. A follow-up tells its own. -/
def flowOf? (rules : Rules G) : FlowId → Option (Flow G)
  | .main => some rules.flows.main
  | .subflow name => rules.flows.subflows.get? name
  | .followUp id f => if rules.repertoire.contains f.name then some (f.flow id) else none

variable {rules : Rules G} {s : Session} {top : Activation} {flow : Flow G} {trail : Trail}

theorem top?_setTrail (on_top : s.top? = some top) :
    (s.setTrail trail).top? = some { top with trail } := by
  obtain ⟨status, stack, dice, followUps, history, messages⟩ := s
  cases stack with
  | nil => cases on_top
  | cons a stack =>
      cases on_top
      rfl

theorem mem_stack_of_top? (on_top : s.top? = some top) : top ∈ s.stack :=
  List.mem_of_mem_head? on_top

theorem live_of_top? (on_top : s.top? = some top) : s.Live :=
  fun _ => List.ne_nil_of_mem (mem_stack_of_top? on_top)

/-- Flows that are no follow-ups are found whatever follow-ups there are. -/
theorem get?_of_plain {id : FlowId} (plain : id.followUp? = none) (followUps : FollowUps) :
    rules.flows.get? followUps id = rules.flowOf? id := by
  cases id with
  | followUp => cases plain
  | _ => rfl

/-- The property of sessions is upheld, up to some errors: it does not depend on more
than the flows under way and the follow-ups, the running flow is found with a trail that
fits unless the error is one of those, and flows are entered, played and left under it. -/
structure Upheld [Game G] (rules : Rules G) (I : Session → Prop) (E : PlayError → Prop) : Prop where
  new : ∀ config, I (.new config)
  aside : ∀ {s s' : Session}, I s → s'.stack = s.stack → s'.followUps = s.followUps → I s'
  finds : ∀ {s : Session} {top : Activation}, I s → s.top? = some top →
    (rules.flows.get? s.followUps top.flow = none ∧ E (.unknownFlow top.flow.display)) ∨
      ∃ flow, rules.flows.get? s.followUps top.flow = some flow ∧ flow.Fits top.trail ∧
        ∀ trail, flow.Fits trail → flow.GoesTo (.ofArgs top.args) top.trail trail →
          I (s.setTrail trail)
  push : ∀ {s : Session} {a : Activation} {flow : Flow G}, I s → a.flow.followUp? = none →
    rules.flowOf? a.flow = some flow → flow.EntersAt a.trail → I (s.push a)
  pop : ∀ {s : Session}, I s → I s.pop
  add : ∀ {s : Session} {f : FollowUp} {trail : Trail}, I s → s.followUps.next ≠ FollowUps.last →
    rules.repertoire.contains f.name → (f.flow s.followUps.next : Flow G).EntersAt trail →
      I ({ s with followUps := (s.followUps.add f).2 }.push ⟨(s.followUps.add f).1, .empty, trail⟩)
  undeclared : ∀ {name : String}, rules.flows.subflows.get? name = none → E (.unknownFlow name)
  other : ∀ {e : PlayError}, e.isLost = false → E e

/-- A move that is taken at a stop of the running flow leaves a session of the property. -/
def KeptByMoves [Game G] (rules : Rules G) (I : Session → Prop) (s : Session) : Prop :=
  ∀ ⦃top : Activation⦄ ⦃flow : Flow G⦄ ⦃stop : Stop G⦄ ⦃g : G⦄ ⦃move : Taken⦄ ⦃trail : Trail⦄,
    s.top? = some top → rules.flows.get? s.followUps top.flow = some flow →
      stop ∈ flow.stops top.trail (.ofArgs top.args) →
        stop.settle g (.taken move) top.trail = .ok trail → flow.Fits trail → I (s.setTrail trail)

/-- From the table on, an operation with a result leaves a session of the property that
is `good` besides, and with an error it is one of those and the session one of the
property. -/
def Leaves (I : Session → Prop) (E : PlayError → Prop) (good : Session → Prop) (d : Drive G α)
    (t : Table G) : Prop :=
  d.Ends t (fun _ t' => I t'.session ∧ good t'.session) fun e t' => E e ∧ I t'.session

/-! ### Steps and stops -/

section Stops

variable [Game G]

/-- A trail at which a flow is entered fits. -/
theorem fits_of_entersAt (h : flow.EntersAt trail) : flow.Fits trail := by
  obtain ⟨g, scope, entered⟩ := h
  exact (Flow.reset_returns flow g scope).good_of_eq_ok (congrArg Playing.ofChecked entered)

/-- Skipping stops of a trail that fits leaves one that fits, to which the flow went on by
itself: a stop that is skipped is that of other players than the stops that follow. -/
theorem skipStops_arrives {g : G} {scope : Scope} {stops : List (Stop G)}
    (fits : flow.Fits trail) (wait : ∀ s ∈ stops, Flow.Waits trail flow scope s)
    (apart : stops.Pairwise fun s s' => s.place.Apart s'.place) :
    (rules.skipStops g stops trail).Arrives fun p =>
      flow.Fits p.1 ∧ flow.GoesTo scope trail p.1 := by
  induction stops generalizing trail with
  | nil => exact .ok ⟨fits, .refl⟩
  | cons s rest ih =>
      obtain ⟨waits, rest_wait⟩ := List.forall_mem_cons.1 wait
      obtain ⟨s_apart, rest_apart⟩ := List.pairwise_cons.1 apart
      unfold skipStops
      split
      · exact ih fits rest_wait rest_apart
      refine .bind (.checked _) fun players _ => .bind (.checked _) fun playable _ => ?_
      split
      · exact ih fits rest_wait rest_apart
      have admits : s.step.Admits .skipped := trivial
      have settles : (s.settle g .skipped trail).Arrives fun settled =>
          flow.Fits settled ∧ Flow.Turn (· = .skipped) trail flow scope settled ∧
            ∀ s' ∈ rest, Flow.Waits settled flow scope s' := by
        have returns := Flow.settle_returns (g := g) waits admits fits
        refine ⟨fun settled eq => ⟨returns.good_of_eq_ok eq, .settle rfl waits eq, fun s' mem => ?_⟩,
          (Playing.Arrives.of_returns returns).not_lost⟩
        exact Flow.waits_of_apart (rest_wait s' mem) (s_apart s' mem) eq
      refine .bind settles ?_
      rintro settled ⟨settled_fits, turn, still_wait⟩
      refine .bind (ih settled_fits still_wait rest_apart) ?_
      rintro p ⟨left_fits, goes⟩
      exact .ok ⟨left_fits, .head turn goes⟩

theorem mem_of_findFor {g : G} {player : Player} {stops : List (Stop G)} {s : Stop G}
    (h : Stop.findFor g player stops = .ok (some s)) : s ∈ stops := by
  induction stops with
  | nil => cases h
  | cons first rest ih =>
      obtain ⟨players, -, h⟩ := bind_eq_ok.1 h
      split at h
      · cases h
        exact List.mem_cons_self
      · exact List.mem_cons_of_mem _ (ih h)

omit [Game G] in
/-- A move that was carried out is one the step accepts. -/
theorem accepts_of_perform {s : Stop G} {g : G} {dice : Dice} {move : Move}
    {performed : Performed G} (h : rules.perform s g dice move = .ok (.ok performed)) :
    s.step.accepts move.name := by
  unfold perform at h
  split at h
  · rename_i passes
    split at h
    · rename_i optional
      simp [ActionStep.accepts, passes, optional]
    · cases h
  · split at h
    · cases h
    · rename_i entry found
      simp [ActionStep.accepts, found]

omit [Game G] in
theorem accepts_of_performForced {s : Stop G} {g : G} {dice : Dice} {move : Move}
    {performed : Performed G} (h : rules.performForced s g dice move = .ok performed) :
    s.step.accepts move.name := by
  unfold performForced at h
  split at h
  · assumption
  · cases h

omit [Game G] in
theorem actionOf_arrives (s : Stop G) (name : String) (g : G) (player : Player) :
    (rules.actionOf s name g player).Arrives fun _ => True := by
  refine .bind (.checked _) fun action _ => ?_
  split
  · exact .ok trivial
  · exact .error rfl

omit [Game G] in
theorem perform_arrives (s : Stop G) (g : G) (dice : Dice) (move : Move) :
    (rules.perform s g dice move).Arrives fun _ => True := by
  unfold perform
  split
  · split <;> exact .ok trivial
  · split
    · exact .ok trivial
    · exact .bind (actionOf_arrives _ _ _ _) fun _ _ => .checked _

omit [Game G] in
theorem performForced_arrives (s : Stop G) (g : G) (dice : Dice) (move : Move) :
    (rules.performForced s g dice move).Arrives fun _ => True := by
  unfold performForced
  split
  · split
    · exact .ok trivial
    · exact .bind (actionOf_arrives _ _ _ _) fun _ _ => .checked _
  · exact .error rfl

end Stops

/-! ### Operations -/

section Require

variable {t : Table G} {good : β → Table G → Prop} {fair : PlayError → Table G → Prop}

theorem requirePlaying_ends {k : Unit → Drive G β}
    (unready : ∀ e, e.isLost = false → fair e t) (next : (k ()).Ends t good fair) :
    (requirePlaying >>= k).Ends t good fair := by
  refine .bind (.session ?_)
  split
  · exact .throw (unready _ rfl)
  · exact .throw (unready _ rfl)
  · exact .pure next

theorem requireTop_ends {k : Activation → Drive G β} (unready : ∀ e, e.isLost = false → fair e t)
    (next : ∀ top, t.session.top? = some top → (k top).Ends t good fair) :
    (requireTop >>= k).Ends t good fair := by
  refine .bind (.session ?_)
  split
  · rename_i top on_top
    exact .pure (next top on_top)
  · exact .throw (unready _ rfl)

end Require

namespace Upheld

variable [Game G] {I : Session → Prop} {E : PlayError → Prop} {t : Table G}

/-- What is done with the running flow can count on a trail that fits, and on the
property for every trail that fits and to which the flow goes on by itself. -/
theorem topFlow (u : rules.Upheld I E) (h : I t.session) (on_top : t.session.top? = some top)
    {k : Flow G → Drive G β} {good : β → Table G → Prop}
    (next : ∀ flow, rules.flows.get? t.session.followUps top.flow = some flow →
      flow.Fits top.trail →
        (∀ trail, flow.Fits trail → flow.GoesTo (.ofArgs top.args) top.trail trail →
          I (t.session.setTrail trail)) →
            (k flow).Ends t good fun e t' => E e ∧ I t'.session) :
    (rules.flow top.flow >>= k).Ends t good fun e t' => E e ∧ I t'.session := by
  refine .bind (.session ?_)
  rcases u.finds h on_top with ⟨missing, fair⟩ | ⟨flow, found, fits, still⟩
  · refine .playing (fun flow found => ?_) fun e fails => ?_
    · rw [FlowBook.get_eq_ok, missing] at found
      cases found
    · rw [FlowBook.get, missing] at fails
      cases fails
      exact ⟨fair, h⟩
  · exact .playing_of_eq (FlowBook.get_eq_ok.2 found) (next flow found fits still)

/-- A flow of the rules that is entered has a trail that fits. -/
theorem enterFlow (u : rules.Upheld I E) {id : FlowId} (h : I t.session)
    (plain : id.followUp? = none) (args : Args) :
    Leaves I E (·.stack ≠ []) (rules.enterFlow id args) t := by
  refine .bind (.session (.playing (fun flow got => ?_) fun e fails => ?_))
  · have found : rules.flowOf? id = some flow := by
      rw [← get?_of_plain plain t.session.followUps]
      exact FlowBook.get_eq_ok.1 got
    refine .game (.bind (.checked (fun trail entered => ?_) fun _ => ⟨u.other rfl, h⟩))
    exact .change ⟨u.push h plain found ⟨_, _, entered⟩, List.cons_ne_nil _ _⟩
  · have missing : rules.flows.get? t.session.followUps id = none := by
      cases found : rules.flows.get? t.session.followUps id with
      | none => rfl
      | some flow =>
          rw [FlowBook.get_eq_ok.2 found] at fails
          cases fails
    rw [FlowBook.get, missing] at fails
    cases fails
    cases id with
    | main => cases missing
    | subflow name => exact ⟨u.undeclared missing, h⟩
    | followUp => cases plain

theorem enterCalls (u : rules.Upheld I E) (h : I t.session) (calls : List SubflowCall) :
    (rules.enterCalls calls).Ends t (fun _ t' => I t'.session) fun e t' => E e ∧ I t'.session :=
  .forM h fun call _ h => (u.enterFlow h rfl call.args).mono fun _ _ ends => ends.1

/-- A follow-up of a declared action is kept from when its flow is entered. -/
theorem enterFollowUp (u : rules.Upheld I E) (h : I t.session) (f : FollowUp) :
    (rules.enterFollowUp f).Ends t (fun _ t' => I t'.session) fun e t' => E e ∧ I t'.session := by
  by_cases declared : rules.repertoire.contains f.name
  · obtain ⟨trail, entered, ends⟩ := on_enterFollowUp (t := t) .faults declared
    cases goes_on : FollowUps.goOn .faults t.session.followUps.next with
    | ok _ =>
        rw [Drive.Ends, ends, goes_on]
        exact u.add h (FollowUps.goOn_faults_eq_ok.1 goes_on) declared ⟨_, _, entered⟩
    | error fault =>
        rw [Drive.Ends, ends, goes_on]
        exact ⟨u.other rfl, h⟩
  · rw [Rules.enterFollowUp, if_neg declared]
    exact .throw ⟨u.other rfl, h⟩

theorem takeOutcome (u : rules.Upheld I E) (h : I t.session) (outcome : Outcome) :
    (rules.takeOutcome outcome).Ends t (fun _ t' => I t'.session)
      fun e t' => E e ∧ I t'.session :=
  .bind (.change (.forM (u.aside h rfl rfl) fun f _ h => u.enterFollowUp h f))

theorem start (u : rules.Upheld I E) (h : I t.session) : Leaves I E Session.Live rules.start t := by
  refine .session ?_
  have enter : Leaves I E Session.Live (do
      rules.enterFlow .main .empty
      Drive.change fun s => { s with status := .playing }) t := by
    refine .bind ((u.enterFlow h rfl _).mono fun _ t' => ?_)
    rintro ⟨h, stack_ne⟩
    exact .change ⟨u.aside h rfl rfl, fun _ => stack_ne⟩
  split
  · exact .bind (.throw ⟨u.other rfl, h⟩)
  · exact enter

/-- The game is over, or there is a flow under way. -/
theorem closeUnit (u : rules.Upheld I E) (h : I t.session) (p : Progress Trail G) :
    Leaves I E Session.Live (rules.closeUnit p) t := by
  refine .bind ((u.enterCalls h _).mono fun _ t' h => .session ?_)
  split
  · exact .bind (.change (.pure ⟨u.aside h rfl rfl, nofun⟩))
  · rename_i nonempty
    exact .pure ⟨h, fun _ empty => nonempty (List.isEmpty_iff.2 empty)⟩

/-- The trail of the running flow may change together with the dice. -/
theorem setTrail_dice (u : rules.Upheld I E) (h : I (s.setTrail trail)) (dice : Dice) :
    I ({ s with dice }.setTrail trail) := by
  obtain ⟨status, stack, dice', followUps, history, messages⟩ := s
  cases stack <;> exact u.aside h rfl rfl

/-- A unit of play leaves the running flow with a trail that fits, or it leaves the
flow. -/
theorem playTop (u : rules.Upheld I E) (h : I t.session) (on_top : t.session.top? = some top) :
    Leaves I E Session.Live (rules.playTop top) t := by
  rw [playTop_eq]
  refine u.topFlow h on_top fun flow _ fits still => ?_
  have plays := Flow.playsSafely top.trail flow (.ofArgs top.args) t.game t.session.dice fits
  refine .get (.bind (.arriving (.of_returns plays) (fun p played fits' => ?_)
    fun e others => ⟨u.other others, h⟩))
  refine .bind (.putGame (.bind (.change ?_)))
  have h := u.setTrail_dice (still p.trail fits' (.single (.unit played))) p.dice
  split
  · exact .throw ⟨u.other rfl, h⟩
  · dsimp only
    split
    · exact .bind (.change (u.closeUnit (u.pop h) _))
    · exact u.closeUnit h _

theorem playOne (u : rules.Upheld I E) (h : I t.session) :
    Leaves I E Session.Live rules.playOne t := by
  refine .session ?_
  split
  · exact .throw ⟨u.other rfl, h⟩
  · rename_i finished
    exact .pure ⟨h, fun playing => by simp [finished] at playing⟩
  · exact .bind (.change (.pure ⟨u.aside h rfl rfl, nofun⟩))
  · exact u.playTop h ‹_›

theorem skipUnplayable (u : rules.Upheld I E) (h : I t.session) (live : t.session.Live) :
    Leaves I E Session.Live rules.skipUnplayable t := by
  refine .session ?_
  split
  · exact .pure ⟨h, live⟩
  · rename_i top on_top
    refine .game (.bind (u.topFlow h on_top fun flow _ fits still => .pure ?_))
    have skips : (rules.skipStops t.game (flow.stops top.trail (.ofArgs top.args))
        top.trail).Arrives fun p => flow.Fits p.1 ∧ flow.GoesTo (.ofArgs top.args) top.trail p.1 :=
      skipStops_arrives fits (fun s mem => Flow.waits_of_mem_stops mem) (Flow.stops_apart _ _ _)
    refine .bind (.arriving skips (fun p _ left => ?_) fun e others => ⟨u.other others, h⟩)
    exact .bind (.change (.pure ⟨still p.1 left.1 left.2, live_of_top? (top?_setTrail on_top)⟩))

theorem playWithin (u : rules.Upheld I E) (units : Nat) (h : I t.session) :
    Leaves I E Session.Live (rules.playWithin units) t := by
  induction units generalizing t with
  | zero => exact .throw ⟨u.other rfl, h⟩
  | succ units ih =>
      refine .bind ((u.playOne h).mono fun signal t h => .session ?_)
      split
      · exact .pure h
      split
      · refine .bind ((u.skipUnplayable h.1 h.2).mono fun skipped t h => ?_)
        split
        · exact ih h.1
        · exact .pure h
      · exact ih h.1

theorem play (u : rules.Upheld I E) (h : I t.session) : Leaves I E Session.Live rules.play t :=
  u.playWithin _ h

/-- A move that was carried out leaves the running flow with a trail that fits. -/
theorem settleMove (u : rules.Upheld I E) (h : I t.session)
    (kept : rules.KeptByMoves I t.session) (on_top : t.session.top? = some top)
    (found : rules.flows.get? t.session.followUps top.flow = some flow)
    (fits : flow.Fits top.trail) {stop : Stop G}
    (mem : stop ∈ flow.stops top.trail (.ofArgs top.args)) {move : Move}
    (accepts : stop.step.accepts move.name) (performed : Performed G) :
    (Rules.settleMove stop move performed).Ends t (fun _ t' => I t'.session)
      fun e t' => E e ∧ I t'.session := by
  obtain ⟨outcome, g, dice⟩ := performed
  have h : I { t.session with dice } := u.aside h rfl rfl
  refine .bind (.putGame (requireTop_ends (fun e others => ⟨u.other others, h⟩) ?_))
  intro top' on_top'
  obtain rfl : top = top' := Option.some.inj (on_top.symm.trans on_top')
  have admits : stop.step.Admits (.taken ⟨move.player, move.name, outcome.args⟩) := accepts
  have settles := Flow.settle_returns (g := g) (Flow.waits_of_mem_stops mem) admits fits
  refine .bind (.arriving (.of_returns settles) (fun trail settled settled_fits => ?_)
    fun e others => ⟨u.other others, h⟩)
  exact .change (u.setTrail_dice (kept on_top found mem settled settled_fits) dice)

theorem record (u : rules.Upheld I E) (h : I s) (config : Config) (move : Move) :
    I (s.record config move) := by
  unfold Session.record
  split
  · exact u.aside h rfl rfl
  · exact h

theorem submit (u : rules.Upheld I E) (h : I t.session) (kept : rules.KeptByMoves I t.session)
    (move : Move) :
    Leaves I E Session.Live (rules.submit move) t := by
  have fails : ∀ e : PlayError, e.isLost = false → E e ∧ I t.session :=
    fun e others => ⟨u.other others, h⟩
  refine requirePlaying_ends fails (requireTop_ends fails fun top on_top => ?_)
  refine .bind (u.topFlow h on_top fun flow found fits _ => .pure ?_)
  dsimp only
  split
  · exact .bind (.throw (fails _ rfl))
  refine .get (.bind (.checked (fun found_stop finds => ?_) fun _ => fails _ rfl))
  split
  · exact .throw (fails _ rfl)
  rename_i stop
  have mem := mem_of_findFor finds
  refine .bind (.arriving (perform_arrives _ _ _ _) (fun result performs _ => ?_) fails)
  split
  · exact .pure ⟨h, live_of_top? on_top⟩
  rename_i performed
  have accepts := accepts_of_perform performs
  refine .bind ((u.settleMove h kept on_top found fits mem accepts performed).mono fun _ t h => ?_)
  refine .bind (.change (.bind ((u.takeOutcome (u.record h _ _) _).mono fun _ t h => ?_)))
  exact .bind ((u.play h).mono fun _ _ h => .pure h)

theorem force (u : rules.Upheld I E) (h : I t.session) (kept : rules.KeptByMoves I t.session)
    (move : Move) :
    Leaves I E Session.Live (rules.force move) t := by
  have fails : ∀ e : PlayError, e.isLost = false → E e ∧ I t.session :=
    fun e others => ⟨u.other others, h⟩
  unfold Rules.force
  dsimp only
  split
  · exact .bind (.throw (fails _ rfl))
  refine requirePlaying_ends fails (requireTop_ends fails fun top on_top => ?_)
  refine .bind (u.topFlow h on_top fun flow found fits _ => .pure ?_)
  refine .get (.bind (.checked (fun found_stop finds => ?_) fun _ => fails _ rfl))
  split
  · exact .throw (fails _ rfl)
  rename_i stop found_eq
  have mem : stop ∈ flow.stops top.trail (.ofArgs top.args) := by
    rcases Option.or_eq_some_iff.1 found_eq with rfl | ⟨-, first⟩
    · exact mem_of_findFor finds
    · exact List.mem_of_mem_head? first
  refine .bind (.arriving (performForced_arrives _ _ _ _) (fun performed performs _ => ?_) fails)
  have accepts := accepts_of_performForced performs
  refine .bind ((u.settleMove h kept on_top found fits mem accepts performed).mono fun _ t h => ?_)
  exact .bind ((u.takeOutcome h _).mono fun _ t h => u.play h)

theorem submitAll (u : rules.Upheld I E) (kept : ∀ s, I s → rules.KeptByMoves I s)
    (h : I t.session) (live : t.session.Live) (moves : List Move) (index : Nat) :
    Leaves I E Session.Live (rules.submitAll index moves) t := by
  induction moves generalizing t index with
  | nil => exact .pure ⟨h, live⟩
  | cons move rest ih =>
      refine .bind ((u.submit h (kept _ h) move).mono fun answer t h => ?_)
      split
      · exact .throw ⟨u.other rfl, h.1⟩
      · exact ih h.1 h.2 _

theorem replay (u : rules.Upheld I E) (kept : ∀ s, I s → rules.KeptByMoves I s) (t : Table G)
    (moves : List Move) :
    Leaves I E Session.Live (rules.replay moves) t := by
  refine .bind (.change (.bind ((u.start (u.new _)).mono fun _ t h => ?_)))
  refine .bind ((u.play h.1).mono fun _ t h => ?_)
  exact u.submitAll kept h.1 h.2 moves 0

end Upheld

end Rules

end Tabletop
