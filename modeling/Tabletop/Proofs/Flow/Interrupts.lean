import Tabletop.Proofs.Flow.Context
import Tabletop.Proofs.Flow.PlayOut
import Tabletop.Proofs.Flow.Safety

/-! # Interrupts

A callback may interrupt what runs around it. The innermost loop around the callback takes
the interrupt in: it starts its iteration again, or it goes on as if its block had run out
or as if it had been left. No interrupt leaves that loop, and what stands around it is as
after any other unit. Without a loop around the callback the interrupt leaves the flow,
which stays where it is.

## Implementation notes

What comes after an iteration is cut short, or a loop is left, is said by playing: the mark
of the loop is put behind its block, or behind its last iteration, and the flow is played
from there. Such a unit runs no callback, and passes the same players on its way.

Main statement: `interrupts_to_nearest_loop`.
-/

namespace Tabletop

variable {G : Type}

/-- What a unit did, with one more callback that was run before. -/
def Progress.after {τ : Type} (run : CallbackRun G) (p : Progress τ G) : Progress τ G :=
  { p with runs := run :: p.runs }

namespace Flow

/-! ### Loops around a place -/

/-- A node stands on the way to a place of the flow, or at the place. -/
def OnWay (trail : Trail) (flow : Flow G) (scope : Scope) (place outer : Place) (node : Flow G)
    (inner : Scope) : Prop :=
  Stands trail flow scope outer node inner ∧ ∃ rest, place = outer ++ rest

/-- There is no loop around a place of the flow. -/
def LoopFree (trail : Trail) (flow : Flow G) (scope : Scope) (place : Place) : Prop :=
  ∀ {outer node inner}, OnWay trail flow scope place outer node inner → node.isLoop = false

/-- The innermost loop around a place of the flow, with its mark and what is below it. -/
structure NearestLoop (trail : Trail) (flow : Flow G) (scope : Scope) (place outer : Place)
    (loop : Flow G) (inner : Scope) (mark : Mark Trail) (below : Trail) : Prop where
  on_way : OnWay trail flow scope place outer loop inner
  is_loop : loop.isLoop
  at_outer : trail.at? outer = some (.cons mark below)
  nearest : ∀ {outer' node inner'}, OnWay trail flow scope place outer' node inner' →
    node.isLoop → ∃ rest, outer = outer' ++ rest

section Way

variable {trail below side : Trail} {flow node child body loop : Flow G} {scope inner : Scope}
  {mark mark' : Mark Trail} {below' : Trail} {place outer : Place}

theorem onWay_root (place : Place) : OnWay trail flow scope place .here flow scope :=
  ⟨.here, place, rfl⟩

/-- On the way to the root stands nothing but the root. -/
theorem OnWay.eq_of_here (h : OnWay trail flow scope .here outer node inner) :
    outer = .here ∧ node = flow := by
  obtain ⟨stands, rest, place_eq⟩ := h
  cases stands with
  | here => exact ⟨rfl, rfl⟩
  | down next stands => cases place_eq
  | lane kind_eq position_eq at_lane at_player stands => cases place_eq

theorem OnWay.down (next : flow.next? mark = some (.node child))
    (h : OnWay below child (scope.enter flow mark) place outer node inner) :
    OnWay (.cons mark below) flow scope (.down place) (.down outer) node inner := by
  obtain ⟨stands, rest, rfl⟩ := h
  exact ⟨.down next stands, rest, rfl⟩

/-- Below a node stands the node, and what stands on the rest of the way. -/
theorem OnWay.cases_down (next : flow.next? mark = some (.node child))
    (h : OnWay (.cons mark below) flow scope (.down place) outer node inner) :
    outer = .here ∧ node = flow ∨
      ∃ outer', outer = .down outer' ∧
        OnWay below child (scope.enter flow mark) place outer' node inner := by
  obtain ⟨stands, rest, place_eq⟩ := h
  cases stands with
  | here => exact .inl ⟨rfl, rfl⟩
  | down next' stands =>
      obtain rfl := Step.node.inj (Option.some.inj (next.symm.trans next'))
      exact .inr ⟨_, rfl, stands, rest, Place.down.inj place_eq⟩
  | lane kind_eq position_eq at_lane at_player stands => cases place_eq

section Lane

variable {players : Option (G → Args → Checked (List Player))} {seated : List Player}
  {lanes : List Trail} {completed : List Bool} {index : Nat} {player : Player}

theorem OnWay.lane (kind_eq : flow.kind = .parallel players body)
    (position_eq : mark.position = .parallel seated lanes completed)
    (at_lane : lanes[index]? = some side) (at_player : seated[index]? = some player)
    (h : OnWay side body (scope.withPlayer player) place outer node inner) :
    OnWay (.cons mark below) flow scope (.lane index place) (.lane index outer) node inner := by
  obtain ⟨stands, rest, rfl⟩ := h
  exact ⟨.lane kind_eq position_eq at_lane at_player stands, rest, rfl⟩

theorem OnWay.cases_lane (kind_eq : flow.kind = .parallel players body)
    (position_eq : mark.position = .parallel seated lanes completed)
    (at_lane : lanes[index]? = some side) (at_player : seated[index]? = some player)
    (h : OnWay (.cons mark below) flow scope (.lane index place) outer node inner) :
    outer = .here ∧ node = flow ∨
      ∃ outer', outer = .lane index outer' ∧
        OnWay side body (scope.withPlayer player) place outer' node inner := by
  obtain ⟨stands, rest, place_eq⟩ := h
  cases stands with
  | here => exact .inl ⟨rfl, rfl⟩
  | down next stands => cases place_eq
  | lane kind_eq' position_eq' at_lane' at_player' stands =>
      obtain ⟨rfl, rest_eq⟩ := Place.lane.inj place_eq
      obtain ⟨-, rfl⟩ := FlowKind.parallel.inj (kind_eq.symm.trans kind_eq')
      obtain ⟨rfl, rfl, -⟩ := Position.parallel.inj (position_eq.symm.trans position_eq')
      obtain rfl := Option.some.inj (at_lane.symm.trans at_lane')
      obtain rfl := Option.some.inj (at_player.symm.trans at_player')
      exact .inr ⟨_, rfl, stands, rest, rest_eq⟩

/-- Nodes side by side are no loop. -/
theorem isLoop_of_parallel (kind_eq : flow.kind = .parallel players body) :
    flow.isLoop = false := by
  simp [isLoop, kind_eq]

theorem LoopFree.lane (kind_eq : flow.kind = .parallel players body)
    (position_eq : mark.position = .parallel seated lanes completed)
    (at_lane : lanes[index]? = some side) (at_player : seated[index]? = some player)
    (free : LoopFree side body (scope.withPlayer player) place) :
    LoopFree (.cons mark below) flow scope (.lane index place) := by
  intro outer node inner on_way
  rcases on_way.cases_lane kind_eq position_eq at_lane at_player with ⟨-, rfl⟩ | ⟨_, -, inside⟩
  · exact isLoop_of_parallel kind_eq
  · exact free inside

theorem NearestLoop.lane (kind_eq : flow.kind = .parallel players body)
    (position_eq : mark.position = .parallel seated lanes completed)
    (at_lane : lanes[index]? = some side) (at_player : seated[index]? = some player)
    (h : NearestLoop side body (scope.withPlayer player) place outer loop inner mark' below') :
    NearestLoop (.cons mark below) flow scope (.lane index place) (.lane index outer) loop inner
      mark' below' where
  on_way := h.on_way.lane kind_eq position_eq at_lane at_player
  is_loop := h.is_loop
  at_outer := (Trail.at?_lane position_eq at_lane).trans h.at_outer
  nearest := by
    intro outer' node inner' on_way is_loop
    rcases on_way.cases_lane kind_eq position_eq at_lane at_player with ⟨rfl, -⟩ | ⟨_, rfl, inside⟩
    · exact ⟨_, rfl⟩
    · obtain ⟨rest, rfl⟩ := h.nearest inside is_loop
      exact ⟨rest, rfl⟩

end Lane

theorem loopFree_here (not_loop : flow.isLoop = false) : LoopFree trail flow scope .here := by
  intro outer node inner on_way
  obtain ⟨-, rfl⟩ := on_way.eq_of_here
  exact not_loop

theorem LoopFree.down (next : flow.next? mark = some (.node child))
    (free : LoopFree below child (scope.enter flow mark) place) (not_loop : flow.isLoop = false) :
    LoopFree (.cons mark below) flow scope (.down place) := by
  intro outer node inner on_way
  rcases on_way.cases_down next with ⟨-, rfl⟩ | ⟨_, -, inside⟩
  · exact not_loop
  · exact free inside

theorem nearestLoop_here (is_loop : flow.isLoop) :
    NearestLoop (.cons mark below) flow scope .here .here flow scope mark below where
  on_way := onWay_root _
  is_loop := is_loop
  at_outer := rfl
  nearest := by
    intro outer' node inner' on_way _
    obtain ⟨rfl, -⟩ := on_way.eq_of_here
    exact ⟨_, rfl⟩

/-- A loop is the nearest one if there is none below it. -/
theorem LoopFree.nearestLoop (next : flow.next? mark = some (.node child))
    (free : LoopFree below child (scope.enter flow mark) place) (is_loop : flow.isLoop) :
    NearestLoop (.cons mark below) flow scope (.down place) .here flow scope mark below where
  on_way := onWay_root _
  is_loop := is_loop
  at_outer := rfl
  nearest := by
    intro outer' node inner' on_way node_loop
    rcases on_way.cases_down next with ⟨rfl, -⟩ | ⟨_, -, inside⟩
    · exact ⟨_, rfl⟩
    · rw [free inside] at node_loop
      cases node_loop

theorem NearestLoop.down (next : flow.next? mark = some (.node child))
    (h : NearestLoop below child (scope.enter flow mark) place outer loop inner mark' below') :
    NearestLoop (.cons mark below) flow scope (.down place) (.down outer) loop inner mark'
      below' where
  on_way := h.on_way.down next
  is_loop := h.is_loop
  at_outer := h.at_outer
  nearest := by
    intro outer' node inner' on_way is_loop
    rcases on_way.cases_down next with ⟨rfl, -⟩ | ⟨_, rfl, inside⟩
    · exact ⟨_, rfl⟩
    · obtain ⟨rest, rfl⟩ := h.nearest inside is_loop
      exact ⟨rest, rfl⟩

end Way

/-! ### What a loop makes of an interrupt -/

variable [Game G]

/-- What a unit leaves that ran a callback and then went on from something new at a place. -/
def playOn (trail : Trail) (flow : Flow G) (scope : Scope) (outer : Place) (new : Trail)
    (run : CallbackRun G) (r : StepResult G) : Playing (Progress Trail G) :=
  (play (trail.replaceAt outer new) flow scope r.game r.dice).map (Progress.after run)

/-- What a unit leaves after its callback has interrupted the loop at a place. -/
def interrupted (trail : Trail) (flow : Flow G) (scope : Scope) (outer : Place) (loop : Flow G)
    (inner : Scope) (mark : Mark Trail) (run : CallbackRun G) (r : StepResult G) :
    Interrupt → Playing (Progress Trail G)
  | .again => do
      let entered ← loop.enter r.game inner { mark with stepIndex := some 0 }
      pure ⟨.moved, trail.replaceAt outer entered, r.game, r.dice, [], [run]⟩
  | .skipOn => playOn trail flow scope outer (.cons (loop.atEnd mark) .nil) run r
  | .leave =>
      let left := { mark with position := mark.position.left, stepIndex := none }
      playOn trail flow scope outer (.cons left .nil) run r

section Loop

variable {flow : Flow G} {mark : Mark Trail} {step : Step G (Flow G)} {below : Trail} {g : G}
  {dice : Dice} {scope : Scope}

omit [Game G] in
/-- The step of a running loop is not part of its position. -/
theorem withStep_of_isLoop {index : Nat} (is_loop : flow.isLoop)
    (next : flow.next? mark = some step) :
    mark.withStep index = { mark with stepIndex := some index } := by
  obtain ⟨flowName, kind⟩ := flow
  obtain ⟨name, position, stepIndex⟩ := mark
  cases position with
  | sequence => cases kind <;> simp_all [isLoop, next?, liveBlock]
  | _ => rfl

omit [Game G] in
theorem waiting?_of_isLoop (is_loop : flow.isLoop) (mark : Mark Trail) :
    flow.waiting? mark = none := by
  obtain ⟨name, kind⟩ := flow
  cases kind <;> simp_all [isLoop, waiting?]

/-- A loop whose block has run out goes on after its iteration. -/
theorem play_atEnd (is_loop : flow.isLoop) (next : flow.next? mark = some step) :
    play (.cons (flow.atEnd mark) below) flow scope g dice = (do
      let (signal, trail) ← flow.nextIteration g scope mark
      pure ⟨signal, trail, g, dice, [], []⟩) := by
  obtain ⟨block, live, -⟩ := Option.bind_eq_some_iff.1 next
  have mark_eq : flow.atEnd mark = mark.withStep block.length := by
    simp [atEnd, live]
  have ran_out : flow.next? (flow.atEnd mark) = none := by
    rw [mark_eq, next?_eq (by simpa using live)]
    simp
  rw [play_finish (isParallel_of_next? next) (waiting?_of_isLoop is_loop _) ran_out, finishBlock,
    if_pos is_loop, mark_eq, withStep_of_isLoop is_loop next]
  rfl

omit [Game G] in
/-- A loop that was left stays left. -/
theorem nextPosition_left (is_loop : flow.isLoop) (next : flow.next? mark = some step)
    (args : Args) :
    nextPosition g args flow.kind mark.position.left = some mark.position.left := by
  obtain ⟨flowName, kind⟩ := flow
  obtain ⟨name, position, stepIndex⟩ := mark
  cases kind with
  | loop condition body =>
      cases position with
      | loop index value => simp [nextPosition, nextLoop, Position.left]
      | _ => cases next
  | count initial value test body =>
      cases position with
      | loop index value => rfl
      | _ => cases next
  | each collection setsPlayer body =>
      cases position with
      | each index value items => rfl
      | _ => cases next
  | _ => cases is_loop

/-- A loop that was left is finished. -/
theorem play_left (is_loop : flow.isLoop) (next : flow.next? mark = some step) :
    let left : Trail := .cons { mark with position := mark.position.left, stepIndex := none } .nil
    play left flow scope g dice = .ok ⟨.complete, left, g, dice, [], []⟩ := by
  intro left
  have stopped : mark.position.left.isRunning = false := by
    cases mark.position <;> rfl
  have finished : flow.next? { mark with position := mark.position.left, stepIndex := none } = none := by
    rw [next?, liveBlock_of_not_isRunning is_loop stopped]
    rfl
  rw [play_finish (isParallel_of_isLoop is_loop) (waiting?_of_isLoop is_loop _) finished, finishBlock,
    if_pos is_loop, nextIteration, nextPosition_left is_loop next]
  simp only [stopped]
  rfl

/-- The loop at the root takes the interrupt in. -/
theorem interrupted_here {run : CallbackRun G} {r : StepResult G} (is_loop : flow.isLoop)
    (next : flow.next? mark = some step) (i : Interrupt) :
    interrupted (.cons mark below) flow scope .here flow scope mark run r i = (do
      let (signal, trail) ← flow.takeIn r.game scope mark i
      pure ⟨signal, trail, r.game, r.dice, [], [run]⟩) := by
  cases i with
  | again =>
      rw [takeIn, withStep_of_isLoop is_loop next]
      simp only [interrupted, Trail.replaceAt]
      cases flow.enter r.game scope { mark with stepIndex := some 0 } <;> rfl
  | skipOn =>
      simp only [interrupted, playOn, Trail.replaceAt]
      rw [play_atEnd is_loop next, takeIn]
      cases flow.nextIteration r.game scope mark <;> rfl
  | leave =>
      simp only [interrupted, playOn, Trail.replaceAt]
      rw [play_left is_loop next]
      rfl

theorem interrupted_here_goesOn {run : CallbackRun G} {r : StepResult G} {i : Interrupt}
    {p : Progress Trail G} (is_loop : flow.isLoop) (next : flow.next? mark = some step)
    (h : interrupted (.cons mark below) flow scope .here flow scope mark run r i = .ok p) :
    p.signal.GoesOn := by
  rw [interrupted_here is_loop next] at h
  obtain ⟨⟨signal, trail⟩, ends, h⟩ := bind_eq_ok.1 h
  cases h
  exact takeIn_goesOn ends

end Loop

/-! ### What is around the loop -/

section Around

variable {below side : Trail} {flow child body loop : Flow G} {scope inner : Scope}
  {mark loopMark : Mark Trail} {outer : Place} {g : G} {dice : Dice} {run : CallbackRun G}
  {r : StepResult G} {i : Interrupt}

theorem playOn_down (next : flow.next? mark = some (.node child)) (new : Trail) :
    playOn (.cons mark below) flow scope (.down outer) new run r = (do
      let p ← (playOn below child (scope.enter flow mark) outer new run r).mapMismatch .deeper
      let (signal, trail) ← flow.goOn p.game scope mark p.trail p.signal
      pure { p with signal, trail }) := by
  simp only [playOn, Trail.replaceAt]
  rw [play_node (isParallel_of_next? next) (waiting?_of_next? next) next]
  cases play (below.replaceAt outer new) child (scope.enter flow mark) r.game r.dice with
  | error e => rfl
  | ok p =>
      change Except.map _ (flow.goOn p.game scope mark p.trail p.signal >>= _) =
        (flow.goOn p.game scope mark p.trail p.signal >>= _)
      cases flow.goOn p.game scope mark p.trail p.signal <;> rfl

/-- A node goes on with what is left below it after the interrupt, as after any unit. -/
theorem interrupted_down (next : flow.next? mark = some (.node child)) :
    interrupted (.cons mark below) flow scope (.down outer) loop inner loopMark run r i = (do
      let p ← (interrupted below child (scope.enter flow mark) outer loop inner loopMark run r
        i).mapMismatch .deeper
      let (signal, trail) ← flow.goOn p.game scope mark p.trail p.signal
      pure { p with signal, trail }) := by
  cases i with
  | again =>
      simp only [interrupted, Trail.replaceAt]
      cases loop.enter r.game inner { loopMark with stepIndex := some 0 } <;> rfl
  | skipOn => exact playOn_down next _
  | leave => exact playOn_down next _

section Lane

variable {players : Option (G → Args → Checked (List Player))} {seated : List Player}
  {lanes : List Trail} {completed : List Bool} {index : Nat} {player : Player}

/-- What a unit of nodes side by side leaves that was one of the node of a player. -/
def aside (mark : Mark Trail) (below : Trail) (seated : List Player) (lanes : List Trail)
    (completed : List Bool) (index : Nat) (p : Progress Trail G) : Progress Trail G :=
  let completed := completed.set index (p.signal == .complete)
  let position := .parallel seated (lanes.set index p.trail) completed
  { p with signal := laneSignal completed p.signal, trail := .cons { mark with position } below }

/-- Nodes side by side are played in the node of the player whose turn it is. -/
theorem play_lane (kind_eq : flow.kind = .parallel players body)
    (position_eq : mark.position = .parallel seated lanes completed)
    (turn : HasTurn body scope lanes seated completed index side player)
    (goes_on : ∀ p, play side body (scope.withPlayer player) g dice = .ok p →
      p.signal ≠ .awaiting) :
    play (.cons mark below) flow scope g dice =
      ((play side body (scope.withPlayer player) g dice).mapMismatch .inLane).map
        (aside mark below seated lanes completed index) := by
  obtain ⟨name, position, stepIndex⟩ := mark
  obtain rfl : position = .parallel seated lanes completed := position_eq
  rw [play_parallel kind_eq, playMark, playPosition, playLanes_of_hasTurn turn goes_on]
  cases play side body (scope.withPlayer player) g dice <;> rfl

omit [Game G] in
/-- A unit that does not finish the node of the player leaves the players to play. -/
theorem aside_eq {p : Progress Trail G} (not_done : completed[index]? = some false)
    (unfinished : p.signal ≠ .complete) (waits_not : p.signal ≠ .awaiting) :
    aside mark below seated lanes completed index p =
      let position := .parallel seated (lanes.set index p.trail) completed
      { p with trail := .cons { mark with position } below } := by
  obtain ⟨lt, not_done⟩ := List.getElem?_eq_some_iff.1 not_done
  obtain ⟨signal, trail, game, dice, calls, runs⟩ := p
  have same : completed.set index (signal == .complete) = completed := by
    rw [show (signal == .complete) = completed[index] by simpa [not_done] using unfinished,
      List.set_getElem_self]
  cases signal with
  | complete => exact absurd rfl unfinished
  | awaiting => exact absurd rfl waits_not
  | _ => simp only [aside, same, laneSignal]

omit [Game G] in
theorem aside_goesOn {p : Progress Trail G} (h : p.signal.GoesOn) :
    (aside mark below seated lanes completed index p).signal.GoesOn := laneSignal_goesOn h

theorem replaceAt_lane (position_eq : mark.position = .parallel seated lanes completed)
    (at_lane : lanes[index]? = some side) (new : Trail) :
    (Trail.cons mark below).replaceAt (.lane index outer) new =
      .cons { mark with
        position := .parallel seated (lanes.set index (side.replaceAt outer new)) completed }
        below := by
  simp only [Trail.replaceAt, position_eq, List.modify_eq_set, at_lane, Option.getD_some]

theorem playOn_lane (kind_eq : flow.kind = .parallel players body)
    (position_eq : mark.position = .parallel seated lanes completed)
    (turn : HasTurn body scope lanes seated completed index side player) {new : Trail}
    (goes_on : ∀ p, playOn side body (scope.withPlayer player) outer new run r = .ok p →
      p.signal.GoesOn) :
    playOn (.cons mark below) flow scope (.lane index outer) new run r =
      ((playOn side body (scope.withPlayer player) outer new run r).mapMismatch .inLane).map
        (aside mark below seated lanes completed index) := by
  simp only [playOn]
  rw [replaceAt_lane position_eq turn.at_lane.1, play_lane kind_eq rfl turn.set]
  · cases play (side.replaceAt outer new) body (scope.withPlayer player) r.game r.dice with
    | error e => rfl
    | ok p => simp [Except.map, aside, Progress.after]
  · intro p played
    have kept : p.signal.GoesOn := goes_on (p.after run) (by rw [playOn, played]; rfl)
    exact kept.ne_awaiting

/-- Nodes side by side go on with what is left of one of them after the interrupt, as after
any unit. -/
theorem interrupted_lane (kind_eq : flow.kind = .parallel players body)
    (position_eq : mark.position = .parallel seated lanes completed)
    (turn : HasTurn body scope lanes seated completed index side player)
    (goes_on : ∀ p, interrupted side body (scope.withPlayer player) outer loop inner loopMark run
      r i = .ok p → p.signal.GoesOn) :
    interrupted (.cons mark below) flow scope (.lane index outer) loop inner loopMark run r i =
      ((interrupted side body (scope.withPlayer player) outer loop inner loopMark run r
        i).mapMismatch .inLane).map (aside mark below seated lanes completed index) := by
  cases i with
  | again =>
      obtain ⟨at_lane, -, not_done⟩ := turn.at_lane
      simp only [interrupted, replaceAt_lane position_eq at_lane]
      cases loop.enter r.game inner { loopMark with stepIndex := some 0 } with
      | error fault => rfl
      | ok entered =>
          change Except.ok _ = Except.ok _
          rw [aside_eq not_done (by simp) (by simp)]
  | skipOn => exact playOn_lane kind_eq position_eq turn goes_on
  | leave => exact playOn_lane kind_eq position_eq turn goes_on

end Lane

end Around

/-! ### The nearest loop -/

variable {trail : Trail} {flow : Flow G} {scope inner : Scope} {place : Place}
  {callback : StepCallback G} {g : G} {dice : Dice} {r : StepResult G} {i : Interrupt}

/-- The interrupt of a callback was taken in by the nearest loop, or it leaves the flow. -/
def EndsAtLoop (trail : Trail) (flow : Flow G) (scope : Scope) (place : Place) (g : G)
    (dice : Dice) (run : CallbackRun G) (r : StepResult G) (i : Interrupt) : Prop :=
  (LoopFree trail flow scope place ∧
      play trail flow scope g dice = .ok ⟨.interrupt i, trail, r.game, r.dice, [], [run]⟩) ∨
    ∃ outer loop inner mark below,
      NearestLoop trail flow scope place outer loop inner mark below ∧
      (∀ p, play (.cons mark below) loop inner g dice = .ok p → p.signal.GoesOn) ∧
      (∀ p, play trail flow scope g dice = .ok p → p.signal.GoesOn) ∧
      play trail flow scope g dice = interrupted trail flow scope outer loop inner mark run r i

/-- A node whose step was interrupted takes the interrupt in if it is a loop, and else
hands it on. -/
theorem endsAtLoop_of_goOn {mark : Mark Trail} {below : Trail} {step : Step G (Flow G)}
    {run : CallbackRun G} (next : flow.next? mark = some step)
    (free : flow.isLoop = false → LoopFree (.cons mark below) flow scope place)
    (nearest : flow.isLoop → NearestLoop (.cons mark below) flow scope place .here flow scope mark
      below)
    (played : play (.cons mark below) flow scope g dice = (do
      let (signal, trail) ← flow.goOn r.game scope mark below (.interrupt i)
      pure ⟨signal, trail, r.game, r.dice, [], [run]⟩)) :
    EndsAtLoop (.cons mark below) flow scope place g dice run r i := by
  cases is_loop : flow.isLoop with
  | false =>
      refine .inl ⟨free is_loop, ?_⟩
      rw [played, goOn, if_neg (by simp [is_loop])]
      rfl
  | true =>
      rw [goOn, if_pos is_loop, ← interrupted_here is_loop next] at played
      have goes_on : ∀ p, play (.cons mark below) flow scope g dice = .ok p → p.signal.GoesOn := by
        intro p ended
        exact interrupted_here_goesOn is_loop next (played.symm.trans ended)
      exact .inr ⟨_, _, _, _, _, nearest is_loop, goes_on, goes_on, played⟩

/-- The callback that a unit comes to interrupts the nearest loop around it. -/
theorem endsAtLoop_of_runsAt (runs : RunsAt trail flow scope place callback inner)
    (returned : callback (inner.scene g dice) = .ok r) (asks : r.control = .interrupt i) :
    EndsAtLoop trail flow scope place g dice ⟨callback, inner.scene g dice⟩ r i := by
  induction runs with
  | @here mark below flow scope callback next =>
      apply endsAtLoop_of_goOn next loopFree_here nearestLoop_here
      rw [play_call (isParallel_of_next? next) (waiting?_of_next? next) next, runCallback, returned]
      change (flow.goOn r.game scope mark below r.control.signal >>= _) = _
      rw [asks]
      rfl
  | @down mark below flow child scope place callback inner next runs ih =>
      have single := isParallel_of_next? next
      have no_stop := waiting?_of_next? next
      rcases ih returned with
        ⟨free, played⟩ | ⟨outer, loop, inner, mark', below', nearest, kept, goes_on, played⟩
      · apply endsAtLoop_of_goOn next (free.down next) (free.nearestLoop next)
        rw [play_node single no_stop next, played]
        rfl
      · refine .inr ⟨_, _, _, _, _, nearest.down next, kept, ?_, ?_⟩
        · intro p ended
          obtain ⟨q, signal, trail, played, ends, rfl⟩ := (play_node_eq_ok single no_stop next).1 ended
          exact goOn_goesOn ends (goes_on q played)
        · rw [play_node single no_stop next, played, interrupted_down next]
  | @lane mark below flow players body seated lanes completed index player side scope place callback
      inner kind_eq position_eq turn runs ih =>
      obtain ⟨at_lane, at_player, not_done⟩ := turn.at_lane
      rcases ih returned with
        ⟨free, played⟩ | ⟨outer, loop, inner, mark', below', nearest, kept, goes_on, played⟩
      · refine .inl ⟨free.lane kind_eq position_eq at_lane at_player, ?_⟩
        rw [play_lane kind_eq position_eq turn (by simp [played]), played]
        obtain ⟨lt, lane_eq⟩ := List.getElem?_eq_some_iff.1 at_lane
        change Except.ok _ = Except.ok _
        rw [aside_eq not_done (by simp) (by simp), ← lane_eq, List.set_getElem_self, ← position_eq]
      · have lane_played : play (.cons mark below) flow scope g dice = _ :=
          play_lane kind_eq position_eq turn fun p ended => (goes_on p ended).ne_awaiting
        refine .inr ⟨_, _, _, _, _, nearest.lane kind_eq position_eq at_lane at_player, kept, ?_, ?_⟩
        · intro p ended
          rw [lane_played] at ended
          obtain ⟨q, lane_ended, rfl⟩ := Playing.map_eq_ok.1 ended
          exact aside_goesOn (goes_on q (Playing.mapMismatch_eq_ok.1 lane_ended))
        · rw [lane_played, played, interrupted_lane kind_eq position_eq turn]
          intro p ended
          exact goes_on p (played.trans ended)

/-- The callback that a unit of play runs is the one that it comes to. If that callback
interrupts what is around it and there is no loop, the unit ends with the interrupt and
leaves the trail as it was. Otherwise the innermost loop takes the interrupt in, and none
leaves it. The loop starts its iteration again in its place, or the unit goes on from the
loop with its block run out, or from the loop as it is left. -/
theorem interrupts_to_nearest_loop (trail : Trail) (flow : Flow G) (scope : Scope) (g : G)
    (dice : Dice) :
    (∀ p, play trail flow scope g dice = .ok p → ∀ run ∈ p.runs, ∃ place inner,
        RunsAt trail flow scope place run.callback inner ∧ run.scene = inner.scene g dice) ∧
      ∀ place callback inner r i, RunsAt trail flow scope place callback inner →
        callback (inner.scene g dice) = .ok r → r.control = .interrupt i →
          (LoopFree trail flow scope place ∧
            play trail flow scope g dice = .ok ⟨.interrupt i, trail, r.game, r.dice, [],
              [⟨callback, inner.scene g dice⟩]⟩) ∨
          ∃ outer loop within mark below,
            NearestLoop trail flow scope place outer loop within mark below ∧
            (∀ p, play (.cons mark below) loop within g dice = .ok p → p.signal.GoesOn) ∧
            play trail flow scope g dice =
              interrupted trail flow scope outer loop within mark ⟨callback, inner.scene g dice⟩
                r i := by
  constructor
  · intro p played run mem
    exact exists_runsAt_of_play played mem
  · intro place callback inner r i runs returned asks
    rcases endsAtLoop_of_runsAt runs returned asks with
      free | ⟨outer, loop, within, mark, below, nearest, kept, -, played⟩
    · exact .inl free
    · exact .inr ⟨outer, loop, within, mark, below, nearest, kept, played⟩

/-- A player acts and then cuts short what is around. -/
def actOnce : Flow Script.Host :=
  sequence [.node (act ⟨none, none, none, [⟨"go", [], .empty, false⟩]⟩), .call (ask .skipOn)]

/-- In each round the players act side by side, and the first one who has acted ends the
round. -/
def firstToAct : Flow Script.Host := forever [.node (ofKind (.parallel none actOnce))]

/-- The first player waits to act, and the second one has acted. -/
def firstToAct.acted : Trail :=
  .cons ⟨none, .loop (some 0) none, some 0⟩
    (.cons ⟨none, .parallel [⟨0⟩, ⟨1⟩] [waits, goesOn] [false, false], none⟩ .nil)
where
  waits : Trail := .ofList [⟨none, .sequence 0, none⟩, ⟨none, .action .awaiting, none⟩]
  goesOn : Trail := .ofList [⟨none, .sequence 1, none⟩]

/-- The second player ends the round, and in the next one both wait. -/
theorem interrupts_to_nearest_loop_firstToAct :
    let trail := firstToAct.acted
    let scope := Scope.ofArgs .empty
    let run : CallbackRun Script.Host :=
      ⟨ask .skipOn, (scope.withPlayer ⟨1⟩).scene (.fresh 2) default⟩
    (∃ outer loop within mark below,
        NearestLoop trail firstToAct scope (.down (.lane 1 .here)) outer loop within mark below ∧
          play trail firstToAct scope (.fresh 2) default =
            interrupted trail firstToAct scope outer loop within mark run
              ⟨.interrupt .skipOn, .fresh 2, default⟩ .skipOn) ∧
      (play trail firstToAct scope (.fresh 2) default).map (fun p =>
          (p.signal, (stops p.trail firstToAct scope).map (·.place))) =
        .ok (.moved, [.down (.lane 0 (.down .here)), .down (.lane 1 (.down .here))]) := by
  intro trail scope run
  constructor
  · have first_waits : Idle firstToAct.acted.waits actOnce (scope.withPlayer ⟨0⟩) :=
      fun _ _ => rfl
    have runs : RunsAt trail firstToAct scope (.down (.lane 1 .here)) run.callback
        (scope.withPlayer ⟨1⟩) := .down rfl (.lane rfl rfl (.waits first_waits .here) (.here rfl))
    rcases (interrupts_to_nearest_loop trail firstToAct scope (.fresh 2) default).2 _ _ _ _ .skipOn
        runs rfl rfl with ⟨free, -⟩ | ⟨outer, loop, within, mark, below, nearest, -, played⟩
    · cases free (onWay_root _)
    · exact ⟨outer, loop, within, mark, below, nearest, played⟩
  · decide +kernel

end Flow

end Tabletop
