import Tabletop.Proofs.Session.Restored

/-! # Steps that rest while a game goes on

A step that rests with a move is gone from its place when its flow goes on behind it or is
left, and a step rests there again only after another move was taken there. So as long as
a step rests there at all between two operations, it rests with the same move and below the
same marks, through all that the operations do.

Main statements: `upheld_restsOnly` and `Takes.restsWith_of_restsSince`.

## Implementation notes

Operations play several units, and the tables between two of these matter, since it is there
that the next callback is run. An operation under a lower limit on the units stops there, so
all tables on the way are left by operations under some limit.
-/

namespace Tabletop

variable {G : Type}

/-- A flow is under way over some others, at a trail where a step rests with a move at the
place. -/
def Session.RestsAt (s : Session) (id : FlowId) (args : Args) (rest : List Activation)
    (place : Place) : Prop :=
  ∃ upper trail, s.stack = upper ++ ⟨id, args, trail⟩ :: rest ∧ trail.TakenAt place

/-- A flow that is over the same ones as the running flow is the running flow. -/
theorem eq_of_over {a top : Activation} {upper rest : List Activation}
    (h : upper ++ a :: rest = top :: rest) : upper = [] ∧ a = top := by
  rw [← List.singleton_append, ← List.append_assoc] at h
  have same : upper ++ [a] = [top] := List.append_cancel_right h
  rcases List.append_eq_singleton_iff.1 same with ⟨rfl, ⟨⟩⟩ | ⟨-, none⟩
  · exact ⟨rfl, rfl⟩
  · cases none

/-- A step of a flow under way that rests with a move. -/
structure Resting (G : Type) where
  id : FlowId
  args : Args
  flow : Flow G
  /-- The flows that its flow is over. -/
  rest : List Activation
  place : Place
  /-- The marks around the step. -/
  marks : List (Mark Trail)
  /-- The name of the step. -/
  name : Option String
  move : Taken

namespace Resting

/-- At a trail of its flow the step rests. -/
def RestsIn (r : Resting G) (trail : Trail) : Prop :=
  Flow.RestsWith trail r.flow (.ofArgs r.args) r.place r.marks r.name r.move

/-- If a step rests at the place in some flows under way, it is this one. -/
def Only (r : Resting G) (stack : List Activation) : Prop :=
  ∀ upper trail, stack = upper ++ ⟨r.id, r.args, trail⟩ :: r.rest →
    trail.TakenAt r.place → r.RestsIn trail

variable {r : Resting G} {stack : List Activation} {a : Activation} {trail : Trail}

theorem only_nil : r.Only [] := by
  rintro (_ | ⟨a, upper⟩) trail ⟨⟩

/-- On top of the others may come the flow of the step if the step rests in it. -/
theorem Only.cons (only : r.Only stack)
    (top : ∀ trail, a = ⟨r.id, r.args, trail⟩ → stack = r.rest → trail.TakenAt r.place →
      r.RestsIn trail) : r.Only (a :: stack) := by
  rintro (_ | ⟨a', upper⟩) trail stack_eq taken
  · obtain ⟨a_eq, rest_eq⟩ := List.cons.inj stack_eq
    exact top trail a_eq rest_eq taken
  · exact only upper trail (List.cons.inj stack_eq).2 taken

theorem Only.tail (only : r.Only (a :: stack)) : r.Only stack := by
  rintro upper trail rfl taken
  exact only (a :: upper) trail rfl taken

theorem Only.pop {s : Session} (only : r.Only s.stack) : r.Only s.pop.stack := by
  obtain ⟨status, stack, dice, followUps, history, messages⟩ := s
  cases stack with
  | nil => exact only
  | cons a stack =>
      obtain ⟨id, args, trail⟩ := a
      cases id <;> exact only.tail

/-- The running flow may come to another trail. If it is that of the step, the step has to
rest there if a step does. -/
theorem Only.setTrail {s : Session} (only : r.Only s.stack)
    (still : ∀ trail', s.stack = ⟨r.id, r.args, trail'⟩ :: r.rest →
      (trail'.TakenAt r.place → r.RestsIn trail') → trail.TakenAt r.place → r.RestsIn trail) :
    r.Only (s.setTrail trail).stack := by
  obtain ⟨status, stack, dice, followUps, history, messages⟩ := s
  cases stack with
  | nil => exact only
  | cons top stack =>
      refine only.tail.cons fun trail' same rest_eq taken => ?_
      obtain ⟨id, args, before⟩ := top
      obtain ⟨⟩ := same
      subst rest_eq
      exact still before rfl (only [] before rfl) taken

/-- In a flow that is entered no step rests. -/
theorem Only.enter [Game G] {flow : Flow G} (only : r.Only stack)
    (enters : flow.EntersAt a.trail) : r.Only (a :: stack) := by
  refine only.cons ?_
  rintro trail rfl - taken
  exact absurd taken (enters.untaken r.place)

end Resting

namespace Rules

variable [Game G] {rules : Rules G} {lost : UInt32 → Prop} {r : Resting G} {t t' : Table G}

/-- A session of which the flows are tracked, and in which nothing else rests in place of
the step. -/
structure RestsOnly (rules : Rules G) (lost : UInt32 → Prop) (r : Resting G) (s : Session) : Prop where
  tracked : rules.Tracked lost s
  only : r.Only s.stack

/-- Through everything that a flow does by itself, a step that rests is this one. -/
theorem upheld_restsOnly (told : rules.flowOf? r.id = some r.flow) :
    rules.Upheld (rules.RestsOnly lost r) (rules.Excuses lost) where
  new := fun config => ⟨tracked_new config, Resting.only_nil⟩
  aside := fun h stack_eq followUps_eq =>
    ⟨upheld_tracked.aside h.tracked stack_eq followUps_eq, stack_eq ▸ h.only⟩
  finds := by
    intro s top h on_top
    refine (upheld_tracked.finds h.tracked on_top).imp_right ?_
    rintro ⟨flow, found, fits, still⟩
    refine ⟨flow, found, fits, fun trail fits goes => ⟨still trail fits goes, ?_⟩⟩
    refine h.only.setTrail fun trail' stack_eq rests taken => ?_
    obtain rfl := Option.some.inj (on_top.symm.trans (congrArg List.head? stack_eq))
    obtain ⟨⟩ := told.symm.trans (h.tracked.flowOf?_eq on_top found)
    exact Flow.restsWith_of_goesTo goes rests taken
  push := fun h plain found enters =>
    ⟨upheld_tracked.push h.tracked plain found enters, h.only.enter enters⟩
  pop := fun h => ⟨h.tracked.pop, h.only.pop⟩
  add := fun h more declared enters =>
    ⟨upheld_tracked.add h.tracked more declared enters, h.only.enter enters⟩
  undeclared := .inl
  other := upheld_tracked.other

/-- While the step rests no move is taken in its place. -/
theorem restsOnly_keptByMoves {s : Session}
    (told : rules.flowOf? r.id = some r.flow) (h : rules.RestsOnly lost r s)
    (rests : s.RestsAt r.id r.args r.rest r.place) :
    rules.KeptByMoves (rules.RestsOnly lost r) s := by
  intro top flow stop g move trail on_top found mem settles fits
  refine ⟨tracked_keptByMoves s h.tracked on_top found mem settles fits, ?_⟩
  refine h.only.setTrail fun trail' stack_eq in_trail taken => ?_
  obtain rfl := Option.some.inj (on_top.symm.trans (congrArg List.head? stack_eq))
  obtain ⟨⟩ := told.symm.trans (h.tracked.flowOf?_eq on_top found)
  -- The step rests in the running flow already, so the stop that is settled is another one.
  obtain ⟨upper, before, stack_eq', taken_before⟩ := rests
  obtain ⟨-, ⟨⟩⟩ := eq_of_over (stack_eq'.symm.trans stack_eq)
  have turn : Flow.Turn (fun _ => True) trail' r.flow (.ofArgs r.args) trail :=
    .settle trivial (Flow.waits_of_mem_stops mem) settles
  exact (in_trail taken_before).turn turn taken

/-! ### Operations that stop on the way -/

/-- The rules with a limit on the units of play in an operation. -/
def within (rules : Rules G) (units : Nat) : Rules G :=
  { rules with config := { rules.config with maxSteps := units } }

section Within

variable (units : Nat) {s : Session}

omit [Game G] in
theorem tracked_within : (rules.within units).Tracked lost s ↔ rules.Tracked lost s :=
  ⟨fun ⟨kept, apart, below, stands⟩ => ⟨kept, apart, below, stands⟩,
    fun ⟨kept, apart, below, stands⟩ => ⟨kept, apart, below, stands⟩⟩

omit [Game G] in
theorem restsOnly_within : (rules.within units).RestsOnly lost r s ↔ rules.RestsOnly lost r s :=
  ⟨fun ⟨tracked, only⟩ => ⟨(tracked_within units).1 tracked, only⟩,
    fun ⟨tracked, only⟩ => ⟨(tracked_within units).2 tracked, only⟩⟩

end Within

/-- Since a move was submitted, a step rests with a move at the place of a flow over some
others: when the operation that submits the move stops after some units of play, and when
other operations that go on stop after some units. -/
inductive RestsSince (rules : Rules G) (t : Table G) (move : Move) (id : FlowId) (args : Args)
    (rest : List Activation) (place : Place) : Table G → Prop
  | submitted (units : Nat)
      (rests : (((rules.within units).submit move).on t).2.session.RestsAt id args rest place) :
      RestsSince rules t move id args rest place (((rules.within units).submit move).on t).2
  | later {t' : Table G} {op : Operation G}
      (since : RestsSince rules t move id args rest place t')
      (goes_on : op.startsOver = false) (units : Nat)
      (rests : ((op.run (rules.within units)).on t').2.session.RestsAt id args rest place) :
      RestsSince rules t move id args rest place ((op.run (rules.within units)).on t').2

/-- A step that rests since a move was submitted is the one that rested then. -/
theorem restsOnly_of_restsSince {move : Move}
    (told : rules.flowOf? r.id = some r.flow)
    (submitted : ∀ units,
      rules.RestsOnly lost r (((rules.within units).submit move).on t).2.session)
    (since : rules.RestsSince t move r.id r.args r.rest r.place t') :
    rules.RestsOnly lost r t'.session ∧ t'.session.RestsAt r.id r.args r.rest r.place := by
  induction since with
  | submitted units rests => exact ⟨submitted units, rests⟩
  | later since goes_on units rests ih =>
      obtain ⟨only, rested⟩ := ih
      have only := (restsOnly_within units).2 only
      have upheld : (rules.within units).Upheld ((rules.within units).RestsOnly lost r) _ :=
        upheld_restsOnly told
      have ends := upheld.goOn goes_on only (restsOnly_keptByMoves told only rested)
      have left := ends.any_of_on (fun _ _ h => h.1) fun _ _ h => h.2
      exact ⟨(restsOnly_within units).1 left, rests⟩

/-! ### Moves that are taken -/

/-- The stop at which a move is taken: that of a step with a name, in the running flow, which
is over some others. -/
structure Takes (rules : Rules G) (t : Table G) (move : Move) (top : Activation)
    (rest : List Activation) (flow : Flow G) (s : Stop G) (stepName : Option String) : Prop where
  playing : t.session.status = .playing
  stack_eq : t.session.stack = top :: rest
  found : rules.flows.get? t.session.followUps top.flow = some flow
  finds : Stop.findFor t.game move.player (flow.stops top.trail (.ofArgs top.args)) = .ok (some s)
  named : ∃ position stepIndex below,
    top.trail.at? s.place = some (.cons ⟨stepName, position, stepIndex⟩ below)

section Takes

variable {move : Move} {top top' : Activation} {rest rest' : List Activation} {flow flow' : Flow G}
  {s s' : Stop G} {stepName stepName' : Option String}

theorem Takes.within (takes : rules.Takes t move top rest flow s stepName) (units : Nat) :
    (rules.within units).Takes t move top rest flow s stepName :=
  ⟨takes.playing, takes.stack_eq, takes.found, takes.finds, takes.named⟩

theorem Takes.on_top (takes : rules.Takes t move top rest flow s stepName) :
    t.session.top? = some top := congrArg List.head? takes.stack_eq

/-- The flow of the step is the one that the running flow tells. -/
theorem Takes.told (takes : rules.Takes t move top rest flow s stepName)
    (tracked : rules.Tracked lost t.session) : rules.flowOf? top.flow = some flow :=
  tracked.flowOf?_eq takes.on_top takes.found

/-- Where a move is taken is determined. -/
theorem Takes.unique (takes : rules.Takes t move top rest flow s stepName)
    (takes' : rules.Takes t move top' rest' flow' s' stepName') :
    top = top' ∧ rest = rest' ∧ flow = flow' ∧ s = s' ∧ stepName = stepName' := by
  obtain ⟨-, stack_eq, found, finds, position, stepIndex, below, at_place⟩ := takes
  obtain ⟨-, stack_eq', found', finds', position', stepIndex', below', at_place'⟩ := takes'
  obtain ⟨⟩ := stack_eq.symm.trans stack_eq'
  obtain ⟨⟩ := found.symm.trans found'
  obtain ⟨⟩ := finds.symm.trans finds'
  obtain ⟨⟩ := at_place.symm.trans at_place'
  exact ⟨rfl, rfl, rfl, rfl, rfl⟩

/-- An accepted move is taken at a stop, carried out and settled there. -/
theorem takes_of_submit (accepted : (rules.submit move).on t = (.ok none, t')) :
    ∃ top rest flow s stepName outcome g dice settled,
      rules.Takes t move top rest flow s stepName ∧
        rules.perform s t.game t.session.dice move = .ok (.ok (outcome, g, dice)) ∧
          s.settle g (.taken ⟨move.player, move.name, outcome.args⟩) top.trail = .ok settled := by
  obtain ⟨s, finds, ⟨refusal, -, ⟨⟩, -⟩ | ⟨⟨outcome, g, dice⟩, performs, carries, -⟩⟩ :=
    submit_eq_ok.1 accepted
  obtain ⟨playing, top, flow, on_top, found⟩ :=
    exists_of_stopsNow_ne_nil (List.ne_nil_of_mem (mem_of_findFor finds))
  rw [stopsNow_eq playing on_top found] at finds
  obtain ⟨⟨stepName, position, stepIndex⟩, below, at_place⟩ :=
    Stop.exists_at?_of_waits (Flow.waits_of_mem_stops (mem_of_findFor finds))
  obtain ⟨⟨⟩, t₁, put, -⟩ := Drive.on_bind_eq_ok.1 carries
  rw [on_settleMove on_top] at put
  obtain ⟨rest, stack_eq⟩ := List.head?_eq_some_iff.1 on_top
  split at put
  · cases put
  · rename_i settled settles
    exact ⟨top, rest, flow, s, stepName, outcome, g, dice, settled,
      ⟨playing, stack_eq, found, finds, position, stepIndex, below, at_place⟩, performs, settles⟩

/-- The step that rests with a move after it was taken, its arguments filled in. -/
def restingAfter (move : Move) (args : Args) (top : Activation) (rest : List Activation)
    (flow : Flow G) (s : Stop G) (stepName : Option String) : Resting G where
  id := top.flow
  args := top.args
  flow
  rest
  place := s.place
  marks := top.trail.around s.place
  name := stepName
  move := ⟨move.player, move.name, args⟩

/-- What is done after a move that was carried out is put into the running flow. -/
def playOn (rules : Rules G) (move : Move) (outcome : Outcome) : Drive G Unit := do
  Drive.change fun session => session.record rules.config { move with args := outcome.args }
  rules.takeOutcome outcome
  rules.play

theorem Upheld.playOn {I : Session → Prop} {E : PlayError → Prop} (u : rules.Upheld I E)
    (h : I t.session) (outcome : Outcome) :
    Leaves I E Session.Live (rules.playOn move outcome) t := by
  refine .bind (.change (.bind ?_))
  exact (u.takeOutcome (u.record h _ _) _).mono fun _ _ h => u.play h

section Carried

variable {outcome : Outcome} {g : G} {dice : Dice} {settled : Trail}
  (takes : rules.Takes t move top rest flow s stepName)
  (performs : rules.perform s t.game t.session.dice move = .ok (.ok (outcome, g, dice)))
  (settles : s.settle g (.taken ⟨move.player, move.name, outcome.args⟩) top.trail = .ok settled)
  (tracked : rules.Tracked lost t.session)

include takes performs settles

/-- The game plays on from where a move that is taken leaves the running flow. -/
theorem Takes.on_submit :
    (rules.submit move).on t =
      (do rules.playOn move outcome; return none : Drive G _).on
        ⟨{ t.session with dice }.setTrail settled, g⟩ := by
  have finds := takes.finds
  rw [← stopsNow_eq takes.playing takes.on_top takes.found] at finds
  have put : (settleMove s move (outcome, g, dice)).on t =
      (.ok (), ⟨{ t.session with dice }.setTrail settled, g⟩) := by
    rw [on_settleMove takes.on_top, settles]
  have carries : (rules.carryOn s move (outcome, g, dice)).on t =
      (rules.playOn move outcome).on ⟨{ t.session with dice }.setTrail settled, g⟩ := by
    refine Drive.on_bind.trans ?_
    rw [put]
    rfl
  rw [Rules.on_submit finds, performs]
  exact Drive.on_bind_pure.trans (carries ▸ Drive.on_bind_pure.symm)

include tracked

/-- When a move is settled its step rests with it, below the marks that it had around. -/
theorem Takes.restsOnly_setTrail :
    rules.RestsOnly lost (restingAfter move outcome.args top rest flow s stepName)
      ({ t.session with dice }.setTrail settled) := by
  have told := takes.told tracked
  have on_top := takes.on_top
  obtain ⟨-, stack_eq, found, finds, position, stepIndex, below, at_place⟩ := takes
  have mem := mem_of_findFor finds
  have waits := Flow.waits_of_mem_stops mem
  have fits : flow.Fits top.trail := by
    obtain ⟨flow', told', fits⟩ := tracked.stands top (mem_stack_of_top? on_top)
    obtain ⟨⟩ := told.symm.trans told'
    exact fits
  have admits : s.step.Admits (.taken ⟨move.player, move.name, outcome.args⟩) :=
    accepts_of_perform performs
  have settled_fits : flow.Fits settled :=
    (Flow.settle_returns waits admits fits).good_of_eq_ok settles
  refine ⟨upheld_tracked.setTrail_dice
    (tracked_keptByMoves _ tracked on_top found mem settles settled_fits) dice, ?_⟩
  intro upper trail upper_eq taken
  have stack_eq' : ({ t.session with dice }.setTrail settled).stack =
      ⟨top.flow, top.args, settled⟩ :: rest := by
    simp only [Session.setTrail, stack_eq]
  obtain ⟨-, ⟨⟩⟩ := eq_of_over (upper_eq.symm.trans stack_eq')
  exact Flow.RestsWith.of_settle waits at_place settles

/-- After a move was submitted the step at which it was taken rests with it. -/
theorem Takes.restsOnly_submit :
    rules.RestsOnly lost (restingAfter move outcome.args top rest flow s stepName)
      ((rules.submit move).on t).2.session := by
  have settled_only := takes.restsOnly_setTrail performs settles tracked
  have upheld : rules.Upheld
      (rules.RestsOnly lost (restingAfter move outcome.args top rest flow s stepName)) _ :=
    upheld_restsOnly (takes.told tracked)
  rw [takes.on_submit performs settles, Drive.on_bind_pure]
  exact (upheld.playOn settled_only outcome).any_of_on (fun _ _ h => h.1) fun _ _ h => h.2

/-- Whenever the running flow is that of a step that rests since a move was submitted, the
step rests with this move, below the marks that it had around. -/
theorem Takes.restsWith_of_restsSince {flow' : Flow G} {trail : Trail}
    (since : rules.RestsSince t move top.flow top.args rest s.place t')
    (found : rules.flows.get? t'.session.followUps top.flow = some flow')
    (stack_eq : t'.session.stack = ⟨top.flow, top.args, trail⟩ :: rest) :
    Flow.RestsWith trail flow' (.ofArgs top.args) s.place (top.trail.around s.place) stepName
      ⟨move.player, move.name, outcome.args⟩ := by
  let r := restingAfter move outcome.args top rest flow s stepName
  have told : rules.flowOf? r.id = some r.flow := takes.told tracked
  have since : rules.RestsSince t move r.id r.args r.rest r.place t' := since
  have submitted (units : Nat) :
      rules.RestsOnly lost r (((rules.within units).submit move).on t).2.session :=
    (restsOnly_within units).1 <|
      (takes.within units).restsOnly_submit performs settles ((tracked_within units).2 tracked)
  obtain ⟨⟨tracked', only⟩, upper, trail', upper_eq, taken⟩ :=
    restsOnly_of_restsSince told submitted since
  obtain ⟨-, ⟨⟩⟩ := eq_of_over (upper_eq.symm.trans stack_eq)
  have on_top : t'.session.top? = some ⟨top.flow, top.args, trail⟩ := congrArg List.head? stack_eq
  have told' := tracked'.flowOf?_eq on_top found
  obtain ⟨⟩ := told.symm.trans told'
  exact only [] trail stack_eq taken

end Carried

end Takes

end Rules

end Tabletop
