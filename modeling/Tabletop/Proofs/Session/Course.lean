import Tabletop.Proofs.Flow.Units
import Tabletop.Proofs.Session.Below
import Tabletop.Proofs.Session.Moments

/-! # The course of a game

What leads from one moment to the next is a beat, and a course leads from one table to
another through some moments. The moments of an operation are a course: so what each beat
keeps is kept by all operations.

Main statements: `course_run`, for every operation that goes on, `course_replay`, and
`course_runAll`.
-/

namespace Tabletop

variable {G : Type} {α β : Type}

/-- The flows are as they were, and so is the status. -/
structure Table.SameFlows (t t' : Table G) : Prop where
  status_eq : t'.session.status = t.session.status
  stack_eq : t'.session.stack = t.session.stack
  followUps_eq : t'.session.followUps = t.session.followUps

theorem Table.SameFlows.refl (t : Table G) : t.SameFlows t := ⟨rfl, rfl, rfl⟩

namespace Rules

variable [Game G]

/-- A beat leads from a table to another one, and runs some step callbacks of the running
flow. -/
inductive Beat (rules : Rules G) : Table G → List (CallbackRun G) → Table G → Prop
  /-- The running flow is played by a unit. -/
  | unit {t : Table G} {top : Activation} {flow : Flow G} {p : Progress Trail G}
      (playing : t.session.status = .playing) (on_top : t.session.top? = some top)
      (found : rules.flows.get? t.session.followUps top.flow = some flow)
      (played : flow.play top.trail (.ofArgs top.args) t.game t.session.dice = .ok p) :
      Beat rules t p.runs (rules.playOne.on t).2
  /-- A game without flows is over. -/
  | finish {t : Table G} (playing : t.session.status = .playing) (empty : t.session.stack = []) :
      Beat rules t [] (rules.playOne.on t).2
  | skip {t : Table G} : Beat rules t [] (rules.skipUnplayable.on t).2
  | settle {t : Table G} {s : Stop G} (mem : s ∈ rules.stopsNow t) (move : Move)
      (performed : Performed G) : Beat rules t [] ((settleMove s move performed).on t).2
  | follow {t : Table G} (playing : t.session.status = .playing) (nonempty : t.session.stack ≠ [])
      (outcome : Outcome) : Beat rules t [] ((rules.takeOutcome outcome).on t).2
  | start {t : Table G} : Beat rules t [] (rules.start.on t).2
  /-- Something is done that is not about the flows. -/
  | aside {t t' : Table G} (same : t.SameFlows t') : Beat rules t [] t'

/-- The moments on the way from a table to another one. -/
inductive Course (rules : Rules G) : Table G → List (Moment G) → Table G → Prop
  | nil {t : Table G} : Course rules t [] t
  | cons {t t₁ t' : Table G} {runs : List (CallbackRun G)} {moments : List (Moment G)}
      (beat : rules.Beat t runs t₁) (later : Course rules t₁ moments t') :
      Course rules t (⟨t, runs⟩ :: moments) t'

section Course

variable {rules : Rules G} {t t₁ t' : Table G} {moments later : List (Moment G)}
  {runs : List (CallbackRun G)}

theorem Course.append (h : rules.Course t moments t₁) (h' : rules.Course t₁ later t') :
    rules.Course t (moments ++ later) t' := by
  induction h with
  | nil => exact h'
  | cons beat _ ih => exact .cons beat (ih h')

/-- The first moment of a course is about the table where it starts. -/
theorem Course.exists_cons (h : rules.Course t moments t') :
    ∃ runs later, moments ++ [⟨t', []⟩] = ⟨t, runs⟩ :: later := by
  cases h with
  | nil => exact ⟨[], [], rfl⟩
  | cons beat later => exact ⟨_, _, rfl⟩

end Course

end Rules

/-! ### What operations leave behind -/

namespace Drive

variable {d : Drive G α} {k : α → Drive G β} {t : Table G} {left : Table G → Prop}

/-- Whatever its end is, the operation leaves such a table. -/
abbrev EndsIn (d : Drive G α) (t : Table G) (left : Table G → Prop) : Prop :=
  d.Ends t (fun _ => left) fun _ => left

theorem endsIn_iff : d.EndsIn t left ↔ left (d.on t).2 := by
  unfold EndsIn Ends
  rcases d.on t with ⟨_ | _, t'⟩ <;> rfl

theorem Ends.of_left (h : left (d.on t).2) : d.EndsIn t left := endsIn_iff.2 h

theorem EndsIn.holds (h : d.EndsIn t left) : left (d.on t).2 := endsIn_iff.1 h

end Drive

namespace Rules

variable [Game G] {rules : Rules G} {t t₀ t' : Table G} {top : Activation}

/-! ### A unit of play -/

omit [Game G] in
/-- The stack after a unit of the running flow. -/
theorem stack_afterUnit {rest : List Activation} {p : Progress Trail G}
    (stack_eq : t.session.stack = top :: rest) :
    (t.afterUnit p).session.stack =
      if p.signal = .complete then rest else { top with trail := p.trail } :: rest := by
  obtain ⟨⟨status, stack, dice, followUps, history, messages⟩, game⟩ := t
  obtain rfl : stack = top :: rest := stack_eq
  obtain ⟨id, args, trail⟩ := top
  by_cases ended : p.signal = .complete
  · cases id <;> simp [Table.afterUnit, Session.afterUnit, Session.setTrail, Session.pop, ended]
  · simp [Table.afterUnit, Session.afterUnit, Session.setTrail, ended]

omit [Game G] in
theorem status_afterUnit (t : Table G) (p : Progress Trail G) :
    (t.afterUnit p).session.status = t.session.status := by
  simp only [Table.afterUnit, Session.afterUnit]
  split <;> simp [Session.status_pop, Session.status_setTrail]

/-- A flow that was asked for in a unit could not be entered. -/
def CallFails (rules : Rules G) (t : Table G) (p : Progress Trail G) : Prop :=
  ∃ call e, p.calls = [call] ∧
    rules.entryTrail (t.afterUnit p) (.subflow call.name) call.args = .error e ∧
      rules.playOne.on t = (.error e, t.afterUnit p)

/-- How a unit ends: nothing follows it and a flow is left, or what it asked for could not
be entered; the game is over; or a flow is entered that was asked for. -/
inductive UnitEnds (rules : Rules G) (t : Table G) (p : Progress Trail G) : Table G → Prop
  | stays (left : (t.afterUnit p).session.stack ≠ [] ∨ rules.CallFails t p) :
      UnitEnds rules t p (t.afterUnit p)
  | finish (empty : (t.afterUnit p).session.stack = []) :
      UnitEnds rules t p { t.afterUnit p with session := (t.afterUnit p).session.finish }
  | enters {a : Activation} (asked : p.calls ≠ []) :
      UnitEnds rules t p { t.afterUnit p with session := (t.afterUnit p).session.push a }

omit [Game G] in
/-- A unit that does not leave its flow leaves a flow under way. -/
theorem stack_afterUnit_ne_nil {p : Progress Trail G} (on_top : t.session.top? = some top)
    (goes_on : p.signal ≠ .complete) : (t.afterUnit p).session.stack ≠ [] := by
  obtain ⟨rest, stack_eq⟩ := List.head?_eq_some_iff.1 on_top
  rw [stack_afterUnit stack_eq, if_neg goes_on]
  exact List.cons_ne_nil _ _

/-- At most one flow is asked for in a unit. -/
theorem calls_of_play {flow : Flow G} {trail : Trail} {scope : Scope} {g : G} {dice : Dice}
    {p : Progress Trail G} (played : flow.play trail scope g dice = .ok p) :
    p.calls = [] ∨ ∃ call, p.calls = [call] := by
  cases Flow.play_does played with
  | idle => exact .inl rfl
  | @ran signal trail callback scene r at_game at_dice returned =>
      cases r.control with
      | subflow call => exact .inr ⟨call, rfl⟩
      | _ => exact .inl rfl

/-- A unit that ends in an interrupt fails, after the flow was played. -/
theorem on_playTop_interrupt {flow : Flow G} {p : Progress Trail G} {i : Interrupt}
    (found : rules.flows.get? t.session.followUps top.flow = some flow)
    (played : flow.play top.trail (.ofArgs top.args) t.game t.session.dice = .ok p)
    (interrupts : p.signal = .interrupt i) :
    (rules.playTop top).on t = (.error (.unhandled i.display top.flow.display), t.afterUnit p) := by
  simp [playTop_eq, Drive.on_bind, on_flow, FlowBook.get_eq_ok.2 found, Drive.on_get,
    Drive.on_playing, played, Drive.on_putGame, Drive.on_change, interrupts, Drive.on_throw,
    Table.afterUnit, Session.afterUnit]

theorem enterCalls_singleton (call : SubflowCall) :
    (rules.enterCalls [call]).on t =
      (rules.enterFlow (.subflow call.name) call.args).on t := by
  change (do rules.enterFlow (.subflow call.name) call.args; pure () : Drive G Unit).on t = _
  rw [Drive.on_bind]
  rcases (rules.enterFlow (.subflow call.name) call.args).on t with ⟨_ | _, t'⟩ <;> rfl

/-- What follows a unit in which no flow was asked for. -/
theorem closeUnit_of_nil {p : Progress Trail G} (none : p.calls = []) :
    ((rules.closeUnit p).on t).2 =
      if t.session.stack = [] then { t with session := t.session.finish } else t := by
  rw [on_closeUnit, none, enterCalls_nil]
  dsimp only
  split <;> rfl

/-- What follows a unit in which a flow was asked for. -/
theorem closeUnit_of_call {p : Progress Trail G} {call : SubflowCall} (asked : p.calls = [call]) :
    (rules.closeUnit p).on t =
      match rules.entryTrail t (.subflow call.name) call.args with
      | .error e => (.error e, t)
      | .ok trail =>
          (.ok (if p.signal = .complete then .moved else p.signal),
            { t with session := t.session.push ⟨.subflow call.name, call.args, trail⟩ }) := by
  rw [on_closeUnit, asked, enterCalls_singleton, on_enterFlow]
  cases rules.entryTrail t (.subflow call.name) call.args with
  | error e => rfl
  | ok trail => exact if_neg (List.cons_ne_nil _ _)

theorem unitEnds {flow : Flow G} {p : Progress Trail G} (playing : t.session.status = .playing)
    (on_top : t.session.top? = some top)
    (found : rules.flows.get? t.session.followUps top.flow = some flow)
    (played : flow.play top.trail (.ofArgs top.args) t.game t.session.dice = .ok p) :
    rules.UnitEnds t p (rules.playOne.on t).2 := by
  have unit_eq : rules.playOne.on t = (rules.playTop top).on t := playOne_eq_playTop playing on_top
  by_cases interrupts : ∃ i, p.signal = .interrupt i
  · obtain ⟨i, interrupts⟩ := interrupts
    have goes_on : p.signal ≠ .complete := by simp [interrupts]
    rw [unit_eq, on_playTop_interrupt found played interrupts]
    exact .stays (.inl (stack_afterUnit_ne_nil on_top goes_on))
  have closes : rules.playOne.on t = (rules.closeUnit p).on (t.afterUnit p) :=
    unit_eq.trans (on_playTop found played (not_exists.1 interrupts))
  rcases calls_of_play played with none | ⟨call, asked⟩
  · rw [closes, closeUnit_of_nil none]
    split
    · rename_i empty
      exact .finish empty
    · rename_i some_flow
      exact .stays (.inl some_flow)
  · rw [closeUnit_of_call asked] at closes
    cases entered : rules.entryTrail (t.afterUnit p) (.subflow call.name) call.args with
    | error e =>
        rw [entered] at closes
        have fails : rules.CallFails t p := ⟨call, e, asked, entered, closes⟩
        rw [closes]
        exact .stays (.inr fails)
    | ok trail =>
        rw [entered] at closes
        rw [closes]
        exact .enters (by simp [asked])

/-! ### What a beat does to the stack -/

/-- The status is the same, and some flows may have been put on top. -/
structure Pushes (t t' : Table G) : Prop where
  status_eq : t'.session.status = t.session.status
  exists_pushed : ∃ pushed, t'.session.stack = pushed ++ t.session.stack

section Pushes

omit [Game G] in
theorem Pushes.of_eq (status_eq : t'.session.status = t.session.status)
    (stack_eq : t'.session.stack = t.session.stack) : Pushes t t' := ⟨status_eq, [], stack_eq⟩

omit [Game G] in
theorem Pushes.trans {t₁ : Table G} (h : Pushes t t₁) (h' : Pushes t₁ t') : Pushes t t' := by
  obtain ⟨pushed, stack_eq⟩ := h.exists_pushed
  obtain ⟨pushed', stack_eq'⟩ := h'.exists_pushed
  refine ⟨h'.status_eq.trans h.status_eq, pushed' ++ pushed, ?_⟩
  rw [stack_eq', stack_eq, List.append_assoc]

theorem enterFlow_pushes (id : FlowId) (args : Args) :
    (rules.enterFlow id args).EndsIn t (Pushes t) := by
  refine .of_left ?_
  rw [on_enterFlow]
  cases rules.entryTrail t id args with
  | error e => exact .of_eq rfl rfl
  | ok trail => exact ⟨rfl, [_], rfl⟩

theorem enterFollowUp_pushes (f : FollowUp) : (rules.enterFollowUp f).EndsIn t (Pushes t) := by
  unfold enterFollowUp
  split
  · refine .session (.bind (.checked (fun _ _ => ?_) fun _ => .of_eq rfl rfl))
    refine .bind (.change ?_)
    have kept : Pushes t { t with session := { t.session with
        followUps := (t.session.followUps.add f).2 } } := .of_eq rfl rfl
    exact (enterFlow_pushes _ _).imp (fun _ _ => kept.trans) fun _ _ => kept.trans
  · exact .throw (.of_eq rfl rfl)

theorem takeOutcome_pushes (rules : Rules G) (t : Table G) (outcome : Outcome) :
    (rules.takeOutcome outcome).EndsIn t (Pushes t) := by
  refine .bind (.change (.forM (.of_eq rfl rfl) ?_))
  intro f t₁ pushes
  exact (enterFollowUp_pushes f).imp (fun _ _ => pushes.trans) fun _ _ => pushes.trans

end Pushes

/-- The running flow may have moved on. -/
structure MovesTop (top : Activation) (rest : List Activation) (t t' : Table G) : Prop where
  status_eq : t'.session.status = t.session.status
  exists_trail : ∃ trail, t'.session.stack = { top with trail } :: rest

section MovesTop

variable {rest : List Activation}

omit [Game G] in
theorem MovesTop.of_eq (stack_eq : t.session.stack = top :: rest)
    (status_eq : t'.session.status = t.session.status)
    (same : t'.session.stack = t.session.stack) : MovesTop top rest t t' :=
  ⟨status_eq, top.trail, same.trans stack_eq⟩

omit [Game G] in
theorem MovesTop.setTrail (stack_eq : t.session.stack = top :: rest) (g : G) (dice : Dice)
    (trail : Trail) : MovesTop top rest t ⟨{ t.session with dice }.setTrail trail, g⟩ where
  status_eq := Session.status_setTrail trail
  exists_trail := ⟨trail, by simp [Session.setTrail, stack_eq]⟩

omit [Game G] in
/-- A flow is under way where one waits. -/
theorem exists_stack_eq (waits : rules.stopsNow t ≠ []) :
    ∃ top rest, t.session.stack = top :: rest := by
  obtain ⟨-, top, flow, on_top, -⟩ := exists_of_stopsNow_ne_nil waits
  obtain ⟨rest, stack_eq⟩ := List.head?_eq_some_iff.1 on_top
  exact ⟨top, rest, stack_eq⟩

theorem settleMove_moves (stack_eq : t.session.stack = top :: rest) (s : Stop G) (move : Move)
    (performed : Performed G) :
    (settleMove s move performed).EndsIn t (MovesTop top rest t) := by
  obtain ⟨outcome, g, dice⟩ := performed
  have on_top : t.session.top? = some top := congrArg List.head? stack_eq
  refine .of_left ?_
  rw [on_settleMove on_top]
  cases s.settle g (.taken ⟨move.player, move.name, outcome.args⟩) top.trail with
  | error e => exact .of_eq stack_eq rfl rfl
  | ok trail => exact .setTrail stack_eq g dice trail

theorem skipUnplayable_moves (stack_eq : t.session.stack = top :: rest) :
    rules.skipUnplayable.EndsIn t (MovesTop top rest t) := by
  have on_top : t.session.top? = some top := congrArg List.head? stack_eq
  have stays : MovesTop top rest t t := .of_eq stack_eq rfl rfl
  refine .session ?_
  rw [on_top]
  refine .game (.bind (.bind (.session (.playing (fun flow _ => ?_) fun _ _ => stays))))
  refine .pure ?_
  refine .bind (.playing (fun skipped _ => ?_) fun _ _ => stays)
  exact .bind (.change (.pure (.setTrail stack_eq t.game t.session.dice _)))

end MovesTop

/-- The main flow is entered under a game that is played from now on, or nothing is done. -/
theorem start_ends (rules : Rules G) (t : Table G) : rules.start.EndsIn t fun t' =>
    t' = t ∨ ∃ a, t'.session.status = .playing ∧ t'.session.stack = a :: t.session.stack := by
  have enters : (do
      rules.enterFlow .main .empty
      Drive.change fun s => { s with status := .playing } : Drive G Unit).EndsIn t fun t' =>
        t' = t ∨ ∃ a, t'.session.status = .playing ∧ t'.session.stack = a :: t.session.stack := by
    refine .of_left ?_
    rw [Drive.on_bind, on_enterFlow]
    cases rules.entryTrail t .main .empty with
    | error e => exact .inl rfl
    | ok trail => exact .inr ⟨_, rfl, rfl⟩
  refine .session ?_
  split
  · exact .bind (.throw (.inl rfl))
  · exact enters

/-! ### The moments of operations are courses -/

omit [Game G] in
/-- A move is kept aside from the flows. -/
theorem recordMove_same (rules : Rules G) (t : Table G) (move : Move) (performed : Performed G) :
    t.SameFlows ((rules.recordMove move performed).on t).2 := by
  rw [recordMove, Drive.on_change]
  unfold Session.record
  split
  · exact ⟨rfl, rfl, rfl⟩
  · exact .refl t

theorem runsOf_eq {flow : Flow G} {p : Progress Trail G} (playing : t.session.status = .playing)
    (on_top : t.session.top? = some top)
    (found : rules.flows.get? t.session.followUps top.flow = some flow)
    (played : flow.play top.trail (.ofArgs top.args) t.game t.session.dice = .ok p) :
    rules.runsOf t = p.runs := by
  simp only [runsOf, playing, if_true, on_top, found, played]

/-- Playing by a unit is a beat. -/
theorem beat_of_playOne (rules : Rules G) (t : Table G) :
    rules.Beat t (rules.runsOf t) (rules.playOne.on t).2 := by
  have nothing (same : (rules.playOne.on t).2 = t) (none : rules.runsOf t = []) :
      rules.Beat t (rules.runsOf t) (rules.playOne.on t).2 := by
    rw [same, none]
    exact .aside (.refl t)
  cases playing : t.session.status with
  | notStarted =>
      refine nothing ?_ (by simp [runsOf, playing])
      simp only [playOne, Drive.on_bind, Drive.on_session, playing, Drive.on_throw]
  | finished =>
      refine nothing ?_ (by simp [runsOf, playing])
      simp only [playOne, Drive.on_bind, Drive.on_session, playing, Drive.on_pure]
  | playing =>
      cases on_top : t.session.top? with
      | none =>
          have none : rules.runsOf t = [] := by simp [runsOf, on_top]
          rw [none]
          exact .finish playing (List.head?_eq_none_iff.1 on_top)
      | some top =>
          cases found : rules.flows.get? t.session.followUps top.flow with
          | none =>
              refine nothing ?_ (by simp [runsOf, on_top, found])
              rw [playOne_eq_playTop playing on_top]
              simp only [playTop, Drive.on_bind, on_flow, FlowBook.get, found]
          | some flow =>
              cases played :
                  flow.play top.trail (.ofArgs top.args) t.game t.session.dice with
              | error e =>
                  refine nothing ?_ (by simp [runsOf, on_top, found, played])
                  rw [playOne_eq_playTop playing on_top]
                  simp only [playTop, Drive.on_bind, on_flow, FlowBook.get_eq_ok.2 found,
                    Drive.on_get, Drive.on_playing, played]
              | ok p =>
                  rw [runsOf_eq playing on_top found played]
                  exact .unit playing on_top found played

/-- The operation leads through these moments. -/
def Leads (rules : Rules G) (d : Drive G α) (t : Table G) (moments : List (Moment G)) : Prop :=
  rules.Course t moments (d.on t).2

namespace Leads

variable {d : Drive G α} {k : α → Drive G β} {moments : List (Moment G)}
  {runs : List (CallbackRun G)} {later : α → Table G → List (Moment G)}

/-- Nothing is done. -/
theorem still (same : (d.on t).2 = t) : rules.Leads d t [] := by
  unfold Leads
  rw [same]
  exact .nil

theorem beat (beat : rules.Beat t runs (d.on t).2) : rules.Leads d t [⟨t, runs⟩] :=
  .cons beat .nil

theorem bind (h : rules.Leads d t moments)
    (next : ∀ a t', d.on t = (.ok a, t') → rules.Leads (k a) t' (later a t')) :
    rules.Leads (d >>= k) t (moments ++ d.after t later) := by
  unfold Leads Drive.after at *
  rw [Drive.on_bind]
  rcases ends : d.on t with ⟨e | a, t'⟩
  · rw [ends] at h
    simpa using h
  · rw [ends] at h
    exact h.append (next a t' ends)

theorem beat_bind (first : rules.Beat t runs (d.on t).2)
    (next : ∀ a t', d.on t = (.ok a, t') → rules.Leads (k a) t' (later a t')) :
    rules.Leads (d >>= k) t (⟨t, runs⟩ :: d.after t later) :=
  (beat first).bind next

theorem session {k : Session → Drive G β} (h : rules.Leads (k t.session) t moments) :
    rules.Leads (Drive.session >>= k) t moments := by
  unfold Leads at *
  rwa [Drive.on_bind, Drive.on_session]

/-- The result may be told in other words. -/
theorem map {f : α → β} (h : rules.Leads d t moments) :
    rules.Leads (d >>= fun a => pure (f a)) t moments := by
  unfold Leads at *
  rwa [Drive.on_bind_pure]

end Leads

theorem playWithin_leads (units : Nat) :
    rules.Leads (rules.playWithin units) t (rules.playMoments units t) := by
  induction units generalizing t with
  | zero => exact .still rfl
  | succ units ih =>
      refine .beat_bind (beat_of_playOne rules t) fun signal t₁ _ => .session ?_
      split
      · exact .still rfl
      split
      · refine .beat_bind .skip fun skipped t₂ _ => ?_
        split
        · exact ih
        · exact .still rfl
      · exact ih

theorem play_leads : rules.Leads rules.play t (rules.playMoments rules.config.maxSteps t) :=
  playWithin_leads _

/-- What was carried out at a stop leaves a game that is played with a flow under way. -/
theorem playing_of_settleMove {s : Stop G} {move : Move} {performed : Performed G}
    (mem : s ∈ rules.stopsNow t) (settles : (settleMove s move performed).on t = (.ok (), t')) :
    t'.session.status = .playing ∧ t'.session.stack ≠ [] := by
  have waits : rules.stopsNow t ≠ [] := List.ne_nil_of_mem mem
  obtain ⟨top, rest, stack_eq⟩ := exists_stack_eq waits
  have moves := (settleMove_moves stack_eq s move performed).holds
  rw [settles] at moves
  obtain ⟨trail, moved⟩ := moves.exists_trail
  refine ⟨moves.status_eq.trans (exists_of_stopsNow_ne_nil waits).1, ?_⟩
  rw [moved]
  exact List.cons_ne_nil _ _

theorem outcome_leads (playing : t.session.status = .playing) (nonempty : t.session.stack ≠ [])
    (outcome : Outcome) :
    rules.Leads (do rules.takeOutcome outcome; rules.play) t (rules.outcomeMoments outcome t) :=
  .beat_bind (.follow playing nonempty outcome) fun _ _ _ => play_leads

theorem submit_leads (move : Move) :
    rules.Leads (rules.submit move) t (rules.submitMoments move t) := by
  unfold submitMoments
  split
  · rename_i s finds
    unfold Leads
    rw [on_submit finds]
    cases performs : rules.perform s t.game t.session.dice move with
    | error e => exact .nil
    | ok result =>
        cases result with
        | error refusal => exact .nil
        | ok performed =>
            refine Leads.map (.beat_bind (.settle (mem_of_findFor finds) move performed) ?_)
            intro _ t₁ settles
            obtain ⟨playing, nonempty⟩ := playing_of_settleMove (mem_of_findFor finds) settles
            have same := recordMove_same rules t₁ move performed
            refine .beat_bind (.aside same) ?_
            intro _ t₂ records
            cases records
            exact outcome_leads (same.status_eq.trans playing) (same.stack_eq ▸ nonempty)
              performed.1
  · rename_i nowhere
    obtain ⟨e, -, fails⟩ := submit_fails nowhere
    exact .still (by rw [fails])

theorem force_leads (move : Move) :
    rules.Leads (rules.force move) t (rules.forceMoments move t) := by
  unfold forceMoments
  cases stop_eq : rules.forcedStop? move t with
  | none =>
      obtain ⟨e, -, fails⟩ := force_fails stop_eq
      exact .still (by rw [fails])
  | some s =>
      unfold Leads
      rw [on_force stop_eq]
      dsimp only
      cases performs : rules.performForced s t.game t.session.dice move with
      | error e => exact .nil
      | ok performed =>
          have mem : s ∈ rules.stopsNow t := mem_of_forcedStop? stop_eq
          refine Leads.beat_bind (.settle mem move performed) ?_
          intro _ t₁ settles
          obtain ⟨playing, nonempty⟩ := playing_of_settleMove mem settles
          exact outcome_leads playing nonempty performed.1

theorem submitAll_leads (index : Nat) (moves : List Move) :
    rules.Leads (rules.submitAll index moves) t (rules.submitAllMoments moves t) := by
  induction moves generalizing t index with
  | nil => exact .still rfl
  | cons move moves ih =>
      refine (submit_leads move).bind fun refusal t₁ _ => ?_
      cases refusal with
      | some refusal => exact .still rfl
      | none => exact ih (index + 1)

/-- What is done aside from the flows. -/
theorem aside_leads {d : Drive G α} (same : d.EndsIn t t.SameFlows) :
    rules.Leads d t [⟨t, []⟩] := .beat (.aside same.holds)

/-- Every operation that does not start over leads through its moments. -/
theorem course_run (op : Operation G) (goes_on : op.startsOver = false) :
    rules.Course t (rules.momentsOf t op) ((op.run rules).on t).2 := by
  change rules.Leads (op.run rules) t (rules.momentsOf t op)
  have same : t.SameFlows t := .refl t
  cases op with
  | start => exact .map (.beat .start)
  | playOne => exact .map (.beat (beat_of_playOne rules t))
  | play => exact .map play_leads
  | submit move => exact .map (submit_leads move)
  | force move => exact .map (force_leads move)
  | restore | restoreText | replay => cases goes_on
  | save => exact aside_leads (.session (.pure same))
  | drain => exact aside_leads (.session (.bind (.change (.pure ⟨rfl, rfl, rfl⟩))))
  | host change => exact aside_leads (.get (.bind (.putGame (.pure ⟨rfl, rfl, rfl⟩))))
  | draw use =>
      refine aside_leads (.session (.bind (.checked (fun _ _ => ?_) fun _ => same)))
      exact .bind (.change (.pure ⟨rfl, rfl, rfl⟩))
  | awaiting => exact aside_leads (.get (.bind (.checked (fun _ _ => .pure same) fun _ => same)))
  | menu player name args =>
      exact aside_leads (.get (.bind (.checked (fun _ _ => .pure same) fun _ => same)))

/-- Operations in a row that do not start over lead through their moments. -/
theorem course_runAll (ops : List (Operation G)) (go_on : ∀ op ∈ ops, op.startsOver = false) :
    rules.Course t (rules.moments ops t) (rules.runAll ops t).2 := by
  induction ops generalizing t with
  | nil => exact .nil
  | cons op ops ih =>
      obtain ⟨goes_on, go_on⟩ := List.forall_mem_cons.1 go_on
      exact (course_run op goes_on).append (ih go_on)

/-- A replay leads through its moments from a new table on. -/
theorem course_replay (moves : List Move) :
    rules.Course ⟨.new rules.config, t.game⟩ (rules.replayMoments moves t.game)
      ((rules.replay moves).on t).2 := by
  change rules.Leads (do
    rules.start
    rules.play
    rules.submitAll 0 moves) ⟨.new rules.config, t.game⟩ (rules.replayMoments moves t.game)
  refine .beat_bind .start fun _ t₁ _ => ?_
  exact play_leads.bind fun _ t₂ _ => submitAll_leads 0 moves

end Rules

end Tabletop
