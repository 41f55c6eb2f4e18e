import Tabletop.Proofs.Session.Drive
import Tabletop.Session.Submit

/-! # Operations that have a result

What an operation did to a table, told from its result: a unit of the running flow, and
a move that is submitted. A unit leaves the flow where it stands, and what follows it
enters the flows that were asked for. Everything that is done after a move is checked
depends on the move only by its player, its name and the arguments that were filled in.

Main statements: `playTop_eq`, `playTop_eq_ok`, `on_submit` and `submit_eq_ok`.
-/

namespace Tabletop

variable {G : Type}

/-- The session after a unit of its running flow, before the flows that were asked for
are entered. -/
def Session.afterUnit (s : Session) (p : Progress Trail G) : Session :=
  let s := { s with dice := p.dice }.setTrail p.trail
  if p.signal = .complete then s.pop else s

theorem Session.stack_ne_nil_of_top? {s : Session} {top : Activation}
    (on_top : s.top? = some top) : s.stack ≠ [] := by
  intro empty
  rw [top?, empty] at on_top
  cases on_top

/-- The table after a unit of its running flow, before the flows that were asked for are
entered. -/
def Table.afterUnit (t : Table G) (p : Progress Trail G) : Table G :=
  ⟨t.session.afterUnit p, p.game⟩

namespace Rules

variable [Game G] {rules : Rules G} {t t' : Table G} {top : Activation} {flow : Flow G}

omit [Game G] in
theorem on_flow {id : FlowId} :
    (rules.flow id).on t = (rules.flows.get t.session.followUps id, t) := rfl

omit [Game G] in
theorem setTrail_of_top? {s : Session} (on_top : s.top? = some top) :
    s.setTrail top.trail = s := by
  obtain ⟨status, stack, dice, followUps, history, messages⟩ := s
  cases stack with
  | nil => cases on_top
  | cons a stack =>
      cases on_top
      rfl

omit [Game G] in
theorem on_stops (found : rules.flows.get? t.session.followUps top.flow = some flow) :
    (rules.stops top).on t = (.ok (flow.stops top.trail (.ofArgs top.args)), t) := by
  simp only [stops, Drive.on_bind, on_flow, FlowBook.get_eq_ok.2 found, Drive.on_pure]

/-- The trail at which a flow is entered. -/
def entryTrail (rules : Rules G) (t : Table G) (id : FlowId) (args : Args) : Playing Trail := do
  let flow ← rules.flows.get t.session.followUps id
  flow.reset t.game (.ofArgs args)

/-- A flow is entered on top, on the game as it stands. -/
theorem on_enterFlow {id : FlowId} {args : Args} :
    (rules.enterFlow id args).on t =
      match rules.entryTrail t id args with
      | .ok trail => (.ok (), { t with session := t.session.push ⟨id, args, trail⟩ })
      | .error e => (.error e, t) := by
  simp only [enterFlow, Drive.on_bind, on_flow, entryTrail]
  cases rules.flows.get t.session.followUps id with
  | error e => rfl
  | ok flow =>
      simp only [Drive.on_game, Drive.on_checked, bind, Except.bind]
      cases flow.reset t.game (.ofArgs args) <;> rfl

/-- The flow of a follow-up is entered without a callback of the author. -/
theorem reset_followUp (f : FollowUp) (id : UInt32) (g : G) (scope : Scope) :
    ∃ trail, (f.flow id).reset g scope = .ok trail := ⟨.cons _ (.cons _ .nil), rfl⟩

/-- A follow-up is entered under the next number, if there may be one after it. -/
theorem on_enterFollowUp {f : FollowUp} (overflow : Overflow)
    (declared : rules.repertoire.contains f.name) :
    ∃ trail, (f.flow t.session.followUps.next).reset t.game (.ofArgs .empty) = .ok trail ∧
      (rules.enterFollowUp f overflow).on t =
        match FollowUps.goOn overflow t.session.followUps.next with
        | .ok _ =>
            let (id, followUps) := t.session.followUps.add f
            (.ok (), { t with
              session := { t.session with followUps }.push ⟨id, .empty, trail⟩ })
        | .error fault => (.error (.fault fault), t) := by
  obtain ⟨trail, entered⟩ := reset_followUp f t.session.followUps.next t.game (.ofArgs .empty)
  refine ⟨trail, entered, ?_⟩
  have got : rules.flows.get (t.session.followUps.add f).2 (t.session.followUps.add f).1 =
      .ok (f.flow t.session.followUps.next) :=
    FlowBook.get_eq_ok.2 (congrArg (Option.map _) (t.session.followUps.get?_add f))
  rw [enterFollowUp, if_pos declared]
  simp only [Drive.on_bind, Drive.on_session, Drive.on_checked]
  cases FollowUps.goOn overflow t.session.followUps.next with
  | error fault => rfl
  | ok _ =>
      simp only [Playing.ofChecked_ok, Drive.on_change, on_enterFlow, entryTrail, got, bind,
        Except.bind, entered]
      rfl

/-! ### A unit of play -/

/-- What follows a unit of the running flow: the flows that were asked for are entered,
and the game is over if no flow is left. -/
def closeUnit (rules : Rules G) (p : Progress Trail G) : Drive G Signal := do
  rules.enterCalls p.calls
  if (← Drive.session).stack.isEmpty then
    Drive.change Session.finish
    return .complete
  else return if p.signal = .complete then .moved else p.signal

theorem on_closeUnit {p : Progress Trail G} :
    (rules.closeUnit p).on t =
      match (rules.enterCalls p.calls).on t with
      | (.error e, t₁) => (.error e, t₁)
      | (.ok (), t₁) =>
          if t₁.session.stack = [] then (.ok .complete, { t₁ with session := t₁.session.finish })
          else (.ok (if p.signal = .complete then .moved else p.signal), t₁) := by
  rw [closeUnit, Drive.on_bind]
  rcases (rules.enterCalls p.calls).on t with ⟨e | _, t₁⟩
  · rfl
  · dsimp only
    rw [Drive.on_bind, Drive.on_session]
    cases stack_eq : t₁.session.stack with
    | nil =>
        simp only [stack_eq, List.isEmpty_nil, if_true, Drive.on_bind, Drive.on_change,
          Drive.on_pure]
    | cons a stack =>
        simp only [stack_eq, List.isEmpty_cons, Bool.false_eq_true, if_false, Drive.on_pure,
          reduceCtorEq]

/-- A unit of the running flow, and what follows it. -/
theorem playTop_eq :
    rules.playTop top = (do
      let flow ← rules.flow top.flow
      let t ← get
      let p ← flow.play top.trail (Scope.ofArgs top.args) t.game t.session.dice
      Drive.putGame p.game p.dice
      Drive.change fun s => s.setTrail p.trail
      match p.signal with
      | .interrupt i => throw (.unhandled i.display top.flow.display)
      | signal =>
          if signal = .complete then Drive.change Session.pop
          rules.closeUnit p) := by
  unfold playTop
  refine bind_congr fun flow => bind_congr fun t => bind_congr fun p => bind_congr fun _ =>
    bind_congr fun _ => ?_
  cases signal_eq : p.signal <;> simp [closeUnit, signal_eq]

/-- A unit of the running flow, unless it ends in an interrupt. -/
theorem on_playTop {p : Progress Trail G}
    (found : rules.flows.get? t.session.followUps top.flow = some flow)
    (played : flow.play top.trail (.ofArgs top.args) t.game t.session.dice = .ok p)
    (no_interrupt : ∀ i, p.signal ≠ .interrupt i) :
    (rules.playTop top).on t = (rules.closeUnit p).on (t.afterUnit p) := by
  simp only [playTop_eq, Drive.on_bind, on_flow, FlowBook.get_eq_ok.2 found, Drive.on_get,
    Drive.on_playing, played, Drive.on_putGame, Drive.on_change]
  cases signal_eq : p.signal with
  | interrupt i => exact absurd signal_eq (no_interrupt i)
  | _ =>
      simp [Table.afterUnit, Session.afterUnit, signal_eq, Drive.on_bind, Drive.on_change]

/-- What a unit of the running flow does to a table. -/
theorem playTop_eq_ok {signal : Signal} (h : (rules.playTop top).on t = (.ok signal, t')) :
    ∃ flow p, rules.flows.get? t.session.followUps top.flow = some flow ∧
      flow.play top.trail (.ofArgs top.args) t.game t.session.dice = .ok p ∧
        (rules.closeUnit p).on (t.afterUnit p) = (.ok signal, t') := by
  have h' := h
  simp only [playTop, Drive.on_bind_eq_ok, on_flow, Drive.on_get, Drive.on_playing,
    Drive.on_putGame, Drive.on_change, Prod.mk.injEq] at h'
  obtain ⟨flow, _, ⟨found, rfl⟩, _, _, ⟨⟨⟩, rfl⟩, p, _, ⟨played, rfl⟩, _, _, ⟨-, rfl⟩, _, _,
    ⟨-, rfl⟩, h'⟩ := h'
  have found := FlowBook.get_eq_ok.1 found
  refine ⟨flow, p, found, played, ?_⟩
  rw [← on_playTop found played, h]
  intro i interrupts
  rw [interrupts] at h'
  cases h'

/-- Entering flows that were asked for leaves no session without a flow. -/
theorem enterCalls_nil : (rules.enterCalls []).on t = (.ok (), t) := rfl

/-- A unit of a game that ends in waiting is one of its running flow. -/
theorem playOne_eq_playTop (playing : t.session.status = .playing)
    (on_top : t.session.top? = some top) :
    rules.playOne.on t = (rules.playTop top).on t := by
  simp only [playOne, Drive.on_bind, Drive.on_session, playing, on_top]

/-! ### Submitting -/

section Submit

omit [Game G] in
theorem stopsNow_eq (playing : t.session.status = .playing) (on_top : t.session.top? = some top)
    (found : rules.flows.get? t.session.followUps top.flow = some flow) :
    rules.stopsNow t = flow.stops top.trail (.ofArgs top.args) := by
  simp only [stopsNow, playing, on_top, found, if_true]

omit [Game G] in
/-- A game that has stops is played, and they are those of its running flow. -/
theorem exists_of_stopsNow_ne_nil (h : rules.stopsNow t ≠ []) :
    t.session.status = .playing ∧ ∃ top flow, t.session.top? = some top ∧
      rules.flows.get? t.session.followUps top.flow = some flow := by
  unfold stopsNow at h
  split at h
  · rename_i playing
    refine ⟨playing, ?_⟩
    split at h
    · exact absurd rfl h
    · rename_i top on_top
      split at h
      · exact absurd rfl h
      · rename_i flow found
        exact ⟨top, flow, on_top, found⟩
  · exact absurd rfl h

/-- What is done after a move was carried out at a stop. -/
def carryOn (rules : Rules G) (s : Stop G) (move : Move) (performed : Performed G) :
    Drive G Unit := do
  settleMove s move performed
  Drive.change fun session => session.record rules.config { move with args := performed.1.args }
  rules.takeOutcome performed.1
  rules.play

omit [Game G] in
theorem requirePlaying_eq_ok :
    (requirePlaying : Drive G Unit).on t = (.ok (), t') ↔
      t.session.status = .playing ∧ t' = t := by
  simp only [requirePlaying, Drive.on_bind, Drive.on_session]
  cases t.session.status <;>
    simp [Drive.on_throw, Drive.on_pure, @eq_comm _ t]

omit [Game G] in
theorem requireTop_eq_ok :
    (requireTop : Drive G Activation).on t = (.ok top, t') ↔
      t.session.top? = some top ∧ t' = t := by
  simp only [requireTop, Drive.on_bind, Drive.on_session]
  cases t.session.top? <;>
    simp [Drive.on_throw, Drive.on_pure, @eq_comm _ t]

omit [Game G] in
theorem actionOf_eq_ok {s : Stop G} {name : String} {g : G} {player : Player} {action : Action G} :
    rules.actionOf s name g player = .ok action ↔
      rules.repertoire.make? name g player = .ok (some action) := by
  unfold actionOf
  cases rules.repertoire.make? name g player with
  | error fault => exact ⟨nofun, nofun⟩
  | ok found =>
      cases found with
      | none => exact ⟨nofun, nofun⟩
      | some found =>
          constructor
          · rintro ⟨⟩
            rfl
          · rintro ⟨⟩
            rfl

/-- A move that was carried out is put into the running flow. -/
theorem on_settleMove {s : Stop G} {move : Move} {outcome : Outcome} {g : G} {dice : Dice}
    (on_top : t.session.top? = some top) :
    (settleMove s move (outcome, g, dice)).on t =
      match s.settle g (.taken ⟨move.player, move.name, outcome.args⟩) top.trail with
      | .error e => (.error e, ⟨{ t.session with dice }, g⟩)
      | .ok trail => (.ok (), ⟨{ t.session with dice }.setTrail trail, g⟩) := by
  have topmost : (requireTop : Drive G Activation).on ⟨{ t.session with dice }, g⟩ =
      (.ok top, ⟨{ t.session with dice }, g⟩) := requireTop_eq_ok.2 ⟨on_top, rfl⟩
  simp only [settleMove, Drive.on_bind, Drive.on_putGame, topmost, Drive.on_playing]
  cases s.settle g (.taken ⟨move.player, move.name, outcome.args⟩) top.trail <;> rfl

omit [Game G] in
theorem stops_eq_ok {stops : List (Stop G)} :
    (rules.stops top).on t = (.ok stops, t') ↔
      (∃ flow, rules.flows.get? t.session.followUps top.flow = some flow ∧
        stops = flow.stops top.trail (.ofArgs top.args)) ∧ t' = t := by
  rw [Rules.stops, Drive.on_bind, on_flow]
  cases found : rules.flows.get t.session.followUps top.flow with
  | error e =>
      simp only [Prod.mk.injEq, reduceCtorEq, false_and, ← FlowBook.get_eq_ok, found, exists_false]
  | ok flow => simp [← FlowBook.get_eq_ok, found, Drive.on_pure, @eq_comm _ stops, @eq_comm _ t']

/-- A move of a player who may move at a stop is checked there, and carried out if it is
accepted. -/
theorem on_submit {move : Move} {s : Stop G}
    (finds : Stop.findFor t.game move.player (rules.stopsNow t) = .ok (some s)) :
    (rules.submit move).on t =
      match rules.perform s t.game t.session.dice move with
      | .error e => (.error e, t)
      | .ok (.error refusal) => (.ok (some refusal), t)
      | .ok (.ok performed) => (do rules.carryOn s move performed; return none : Drive G _).on t := by
  have some_stop : rules.stopsNow t ≠ [] := by
    intro none
    rw [none] at finds
    cases finds
  obtain ⟨playing, top, flow, on_top, found⟩ := exists_of_stopsNow_ne_nil some_stop
  have stops_eq : (rules.stops top).on t = (.ok (rules.stopsNow t), t) :=
    stops_eq_ok.2 ⟨⟨flow, found, stopsNow_eq playing on_top found⟩, rfl⟩
  have nonempty : (rules.stopsNow t).isEmpty = false := by simpa using some_stop
  simp only [submit, Drive.on_bind, requirePlaying_eq_ok.2 ⟨playing, rfl⟩,
    requireTop_eq_ok.2 ⟨on_top, rfl⟩, stops_eq, nonempty, Bool.false_eq_true, if_false,
    Drive.on_get, Drive.on_checked, finds, Playing.ofChecked_ok, Drive.on_playing]
  cases rules.perform s t.game t.session.dice move with
  | error e => rfl
  | ok result =>
      cases result with
      | error refusal => rfl
      | ok performed =>
          have carried : (do
              settleMove s move performed
              Drive.change fun session =>
                session.record rules.config { move with args := performed.1.args }
              rules.takeOutcome performed.1
              rules.play
              return none : Drive G (Option Refusal)) =
              (do rules.carryOn s move performed; return none) := by
            simp only [carryOn, bind_assoc]
          exact (congrArg (Drive.on · t) carried).trans Drive.on_bind

/-- A submitted move has an answer only where its player may move at a stop. -/
theorem findFor_of_submit {move : Move} {answer : Option Refusal}
    (h : (rules.submit move).on t = (.ok answer, t')) :
    ∃ s, Stop.findFor t.game move.player (rules.stopsNow t) = .ok (some s) := by
  obtain ⟨_, t₁, ready, h₁⟩ := Drive.on_bind_eq_ok.1 h
  obtain ⟨playing, rfl⟩ := requirePlaying_eq_ok.1 ready
  obtain ⟨top, t₂, topmost, h₂⟩ := Drive.on_bind_eq_ok.1 h₁
  obtain ⟨on_top, rfl⟩ := requireTop_eq_ok.1 topmost
  obtain ⟨stops, t₃, stops_eq, h₃⟩ := Drive.on_bind_eq_ok.1 h₂
  obtain ⟨⟨flow, found, rfl⟩, rfl⟩ := stops_eq_ok.1 stops_eq
  rw [← stopsNow_eq playing on_top found] at h₃
  cases nowhere : (rules.stopsNow t₃).isEmpty with
  | true =>
      rw [nowhere] at h₃
      cases h₃
  | false =>
      simp only [nowhere, Bool.false_eq_true, if_false, Drive.on_bind, Drive.on_get,
        Drive.on_checked] at h₃
      rcases finds : Stop.findFor t₃.game move.player (rules.stopsNow t₃) with fault | _ | s
      · simp [finds] at h₃
      · simp [finds, Drive.on_throw] at h₃
      · exact ⟨s, rfl⟩

/-- A submitted move has an answer if its player may move at a stop: the refusal, with
the table as it was, or none after it was carried out there. -/
theorem submit_eq_ok {move : Move} {answer : Option Refusal} :
    (rules.submit move).on t = (.ok answer, t') ↔
      ∃ s, Stop.findFor t.game move.player (rules.stopsNow t) = .ok (some s) ∧
        ((∃ refusal, rules.perform s t.game t.session.dice move = .ok (.error refusal) ∧
            answer = some refusal ∧ t' = t) ∨
          ∃ performed, rules.perform s t.game t.session.dice move = .ok (.ok performed) ∧
            (rules.carryOn s move performed).on t = (.ok (), t') ∧ answer = none) := by
  constructor
  · intro h
    obtain ⟨s, finds⟩ := findFor_of_submit h
    refine ⟨s, finds, ?_⟩
    rw [on_submit finds] at h
    split at h
    · cases h
    · rename_i refusal performs
      cases h
      exact .inl ⟨refusal, performs, rfl, rfl⟩
    · rename_i performed performs
      obtain ⟨_, t₁, carries, returns⟩ := Drive.on_bind_eq_ok.1 h
      cases returns
      exact .inr ⟨performed, performs, carries, rfl⟩
  · rintro ⟨s, finds, ⟨refusal, performs, rfl, rfl⟩ | ⟨performed, performs, carries, rfl⟩⟩
    · rw [on_submit finds, performs]
    · rw [on_submit finds, performs]
      exact Drive.on_bind_eq_ok.2 ⟨(), t', carries, rfl⟩

end Submit

end Rules

end Tabletop
