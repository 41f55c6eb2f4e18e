import Tabletop.Flow.Reset
import Tabletop.PlayError

/-! # Playing a flow

A flow is played in units. A unit runs one callback of the innermost active
node and then goes on: to the next step of its block, to the next iteration, or
out of the node, which finishes a step of the node above.

An interrupt goes up to the nearest loop. Nodes that run side by side are
played in the order of the players: the first one that can make progress does.

## Implementation notes

`play` recurses along the trail, since the node below is the one at which the
node above stands. The depth of a missing mark is counted on the way back. The flows that callbacks ask for are handed out with the
result, and are not entered here.
-/

namespace Tabletop

variable {G : Type}

/-- A callback that was run, with what it saw. -/
structure CallbackRun (G : Type) where
  callback : StepCallback G
  scene : Scene G

/-- What one unit of play leaves behind, for a flow in the state `τ`. -/
structure Progress (τ G : Type) where
  signal : Signal
  trail : τ
  game : G
  dice : Dice
  /-- The flows that were asked for, in order. -/
  calls : List SubflowCall
  /-- The step callbacks that were run, in order. -/
  runs : List (CallbackRun G)

/-- What a callback sees in a scope. -/
def Scope.scene (s : Scope) (g : G) (dice : Dice) : Scene G where
  game := g
  args := s.args
  player := s.player
  dice := dice

namespace Position

variable {τ : Type}

/-- A loop at this position has an iteration to run. -/
def isRunning : Position τ → Bool
  | loop index _ | each index _ _ => index.isSome
  | _ => false

/-- The position of a loop that is left. -/
def left : Position τ → Position τ
  | loop _ _ => loop none none
  | each _ _ collection => each none none collection
  | position => position

end Position

/-- The mark with players side by side, the trail of each, and who is done. -/
def Mark.withLanes (m : Mark Trail) (players : List Player) (lanes : List Trail)
    (completed : List Bool) : Mark Trail :=
  { m with position := .parallel players lanes completed }

namespace Flow

/-- The position of a conditional loop after an iteration. -/
def nextLoop (condition : Option (G → Args → Bool)) (g : G) (args : Args) (index : Option Nat)
    (value : Option Argument) : Position Trail :=
  .loop (if condition.all fun holds => holds g args then index.map (· + 1) else none) value

/-- The position of a counting loop after an iteration. -/
def nextCount (next : Argument → Argument) (test : Argument → Bool) :
    Option Nat → Option Argument → Position Trail
  | some index, some value =>
      if test (next value) then .loop (some (index + 1)) (some (next value)) else .loop none none
  | _, _ => .loop none none

/-- The position of a loop over a collection after an iteration. -/
def nextEach (index : Option Nat) (collection : List Argument) : Position Trail :=
  match index.bind fun index => collection[index + 1]? with
  | some value => .each (index.map (· + 1)) (some value) collection
  | none => .each none none collection

/-- The position of a loop after an iteration. -/
def nextPosition (g : G) (args : Args) :
    FlowKind G (Flow G) → Position Trail → Option (Position Trail)
  | .loop condition _, .loop index value => some (nextLoop condition g args index value)
  | .count _ next test _, .loop index value => some (nextCount next test index value)
  | .each _ _ _, .each index _ collection => some (nextEach index collection)
  | _, _ => none

/-- The error that a trail does not fit the flow. -/
def invalid {α : Type} (flow : Flow G) (mismatch : Mismatch) : Playing α :=
  .error (.invalidTrail flow.label mismatch)

/-- Goes on after an iteration of a loop: with the next one or out of the
loop. -/
def nextIteration [Game G] (g : G) (flow : Flow G) (scope : Scope) (mark : Mark Trail) :
    Playing (Signal × Trail) :=
  match nextPosition g scope.args flow.kind mark.position with
  | none => flow.invalid (.noPosition "loop")
  | some position =>
      if position.isRunning then do
        let trail ← flow.enter g scope { mark with position, stepIndex := some 0 }
        pure (.moved, trail)
      else pure (.complete, .cons { mark with position, stepIndex := none } .nil)

/-- The mark behind the last step of the live block, if there is one. -/
def atEnd (flow : Flow G) (mark : Mark Trail) : Mark Trail :=
  match flow.liveBlock mark with
  | some block => mark.withStep block.length
  | none => mark

/-- Goes on behind the last step of a block. -/
def finishBlock [Game G] (g : G) (flow : Flow G) (scope : Scope) (mark : Mark Trail) :
    Playing (Signal × Trail) :=
  if flow.isLoop then flow.nextIteration g scope mark
  else pure (.complete, .cons (flow.atEnd mark) .nil)

/-- Goes on after a step of a block. -/
def advance [Game G] (g : G) (flow : Flow G) (scope : Scope) (mark : Mark Trail) :
    Playing (Signal × Trail) :=
  if mark.step + 1 < ((flow.liveBlock mark).map List.length).getD 0 then do
    let trail ← flow.enter g scope (mark.withStep (mark.step + 1))
    pure (.moved, trail)
  else flow.finishBlock g scope mark

/-- Takes in an interrupt. -/
def takeIn [Game G] (g : G) (flow : Flow G) (scope : Scope) (mark : Mark Trail) :
    Interrupt → Playing (Signal × Trail)
  | .skipOn => flow.nextIteration g scope mark
  | .again => do
      let trail ← flow.enter g scope (mark.withStep 0)
      pure (.moved, trail)
  | .leave =>
      pure (.complete, .cons { mark with position := mark.position.left, stepIndex := none } .nil)

/-- Goes on after the current step has ended with a signal, `below` being the
trail of that step. -/
def goOn [Game G] (g : G) (flow : Flow G) (scope : Scope) (mark : Mark Trail) (below : Trail) :
    Signal → Playing (Signal × Trail)
  | .complete => flow.advance g scope mark
  | .interrupt i =>
      if flow.isLoop then flow.takeIn g scope mark i else pure (.interrupt i, .cons mark below)
  | signal => pure (signal, .cons mark below)

/-- The action step of a node that waits for a move at its mark. -/
def waiting? (flow : Flow G) (mark : Mark Trail) : Option (ActionStep G (Flow G)) :=
  match flow.kind, mark.position with
  | .action step, .action .awaiting => some step
  | _, _ => none

/-- The signal of nodes side by side, of which one gave a signal or all
wait. -/
def laneSignal (completed : List Bool) : Signal → Signal
  | .complete => if completed.all id then .complete else .moved
  | .awaiting => if completed.all id then .complete else .awaiting
  | signal => signal

/-- Runs a step callback in a scope. -/
def runCallback (callback : StepCallback G) (scope : Scope) (g : G) (dice : Dice) :
    Playing (StepResult G) :=
  Playing.ofChecked (callback (scope.scene g dice))

mutual
/-- Plays a flow by one unit. -/
def play [Game G] : Trail → Flow G → Scope → G → Dice → Playing (Progress Trail G)
  | .nil, flow, _, _, _ => flow.invalid (.noMarkAt 0)
  | .cons mark below, flow, scope, g, dice =>
      match flow.kind with
      | .parallel _ body => do
          let p ← (playMark mark flow body scope g dice).mapMismatch .inLane
          pure { p with trail := .cons p.trail below }
      | _ =>
          if (flow.waiting? mark).isSome then pure ⟨.awaiting, .cons mark below, g, dice, [], []⟩
          else
            match flow.next? mark with
            | none => do
                let (signal, trail) ← flow.finishBlock g scope mark
                pure ⟨signal, trail, g, dice, [], []⟩
            | some (.call callback) => do
                let inner := scope.enter flow mark
                let r ← runCallback callback inner g dice
                let (signal, trail) ← flow.goOn r.game scope mark below r.control.signal
                pure
                  ⟨signal, trail, r.game, r.dice, r.control.calls, [⟨callback, inner.scene g dice⟩]⟩
            | some (.node child) => do
                let p ← (play below child (scope.enter flow mark) g dice).mapMismatch .deeper
                let (signal, trail) ← flow.goOn p.game scope mark p.trail p.signal
                pure { p with signal, trail }
termination_by structural trail => trail
/-- Plays the nodes side by side at a mark of a flow, all with the same body. -/
def playMark [Game G] : Mark Trail → (flow body : Flow G) → Scope → G → Dice →
    Playing (Progress (Mark Trail) G)
  | ⟨name, position, stepIndex⟩, flow, body, scope, g, dice => do
      let p ← playPosition position flow body scope g dice
      pure { p with trail := ⟨name, p.trail, stepIndex⟩ }
termination_by structural mark => mark
/-- Plays the nodes side by side at a position of a flow. -/
def playPosition [Game G] : Position Trail → (flow body : Flow G) → Scope → G → Dice →
    Playing (Progress (Position Trail) G)
  | .parallel players lanes completed, flow, body, scope, g, dice => do
      let p ← playLanes lanes flow body players completed scope g dice
      let (lanes, completed) := p.trail
      pure
        { p with
          signal := laneSignal completed p.signal
          trail := .parallel players lanes completed }
  | _, flow, _, _, _, _ => flow.invalid (.noPosition "parallel")
termination_by structural position => position
/-- Plays the first of some trails side by side that can make progress. -/
def playLanes [Game G] : List Trail → (flow body : Flow G) → List Player → List Bool → Scope → G →
    Dice → Playing (Progress (List Trail × List Bool) G)
  | lane :: lanes, flow, body, _ :: players, true :: completed, scope, g, dice => do
      let p ← playLanes lanes flow body players completed scope g dice
      pure { p with trail := (lane :: p.trail.1, true :: p.trail.2) }
  | lane :: lanes, flow, body, player :: players, false :: completed, scope, g, dice => do
      let p ← play lane body (scope.withPlayer player) g dice
      match p.signal with
      | .awaiting => do
          let q ← playLanes lanes flow body players completed scope p.game p.dice
          pure
            { q with
              trail := (p.trail :: q.trail.1, false :: q.trail.2)
              calls := p.calls ++ q.calls
              runs := p.runs ++ q.runs }
      | signal =>
          pure { p with trail := (p.trail :: lanes, (signal == .complete) :: completed) }
  | [], _, _, [], [], _, g, dice => pure ⟨.awaiting, ([], []), g, dice, [], []⟩
  | _, flow, _, _, _, _, _, _ => flow.invalid .noLane
termination_by structural lanes => lanes
end

/-! ### One unit, by what the node does next -/

section Unit

variable [Game G] {flow : Flow G} {mark : Mark Trail} {below : Trail} {scope : Scope} {g : G}
  {dice : Dice}

theorem play_parallel {players : Option (G → Args → Checked (List Player))} {body : Flow G}
    (h : flow.kind = .parallel players body) :
    play (.cons mark below) flow scope g dice = (do
      let p ← (playMark mark flow body scope g dice).mapMismatch .inLane
      pure { p with trail := .cons p.trail below }) := by
  simp only [play, h]

/-- The node runs its body for several players side by side. -/
def isParallel (flow : Flow G) : Bool :=
  match flow.kind with
  | .parallel .. => true
  | _ => false

omit [Game G] in
theorem eq_parallel_of_isParallel (h : flow.isParallel) :
    ∃ players body, flow.kind = .parallel players body := by
  obtain ⟨name, kind⟩ := flow
  cases kind with
  | parallel players body => exact ⟨players, body, rfl⟩
  | _ => cases h

theorem play_waiting (h : (flow.waiting? mark).isSome) :
    play (.cons mark below) flow scope g dice =
      .ok ⟨.awaiting, .cons mark below, g, dice, [], []⟩ := by
  obtain ⟨name, kind⟩ := flow
  cases kind with
  | action step => simp only [play, h, if_true]; rfl
  | _ => simp [waiting?] at h

theorem play_finish (hp : flow.isParallel = false) (hw : flow.waiting? mark = none)
    (hn : flow.next? mark = none) :
    play (.cons mark below) flow scope g dice = (do
      let (signal, trail) ← flow.finishBlock g scope mark
      pure ⟨signal, trail, g, dice, [], []⟩) := by
  obtain ⟨name, kind⟩ := flow
  cases kind <;> simp_all [play, isParallel]

theorem play_call {callback : StepCallback G} (hp : flow.isParallel = false)
    (hw : flow.waiting? mark = none) (hn : flow.next? mark = some (.call callback)) :
    play (.cons mark below) flow scope g dice = (do
      let r ← runCallback callback (scope.enter flow mark) g dice
      let (signal, trail) ← flow.goOn r.game scope mark below r.control.signal
      pure ⟨signal, trail, r.game, r.dice, r.control.calls,
        [⟨callback, (scope.enter flow mark).scene g dice⟩]⟩) := by
  obtain ⟨name, kind⟩ := flow
  cases kind <;> simp_all [play, isParallel]

theorem play_node {child : Flow G} (hp : flow.isParallel = false)
    (hw : flow.waiting? mark = none) (hn : flow.next? mark = some (.node child)) :
    play (.cons mark below) flow scope g dice = (do
      let p ← (play below child (scope.enter flow mark) g dice).mapMismatch .deeper
      let (signal, trail) ← flow.goOn p.game scope mark p.trail p.signal
      pure { p with signal, trail }) := by
  obtain ⟨name, kind⟩ := flow
  cases kind <;> simp_all [play, isParallel]

/-- A unit of the node below is one of the node, which goes on after it. -/
theorem play_node_eq_ok {child : Flow G} {p : Progress Trail G} (hp : flow.isParallel = false)
    (hw : flow.waiting? mark = none) (hn : flow.next? mark = some (.node child)) :
    play (.cons mark below) flow scope g dice = .ok p ↔
      ∃ q signal trail, play below child (scope.enter flow mark) g dice = .ok q ∧
        flow.goOn q.game scope mark q.trail q.signal = .ok (signal, trail) ∧
          p = { q with signal, trail } := by
  rw [play_node hp hw hn]
  constructor
  · intro played
    obtain ⟨q, below_played, played⟩ := bind_eq_ok.1 played
    obtain ⟨⟨signal, trail⟩, goes_on, played⟩ := bind_eq_ok.1 played
    cases played
    exact ⟨q, signal, trail, Playing.mapMismatch_eq_ok.1 below_played, goes_on, rfl⟩
  · rintro ⟨q, signal, trail, below_played, goes_on, rfl⟩
    rw [below_played, Playing.mapMismatch_ok]
    exact bind_eq_ok.2 ⟨q, rfl, bind_eq_ok.2 ⟨(signal, trail), goes_on, rfl⟩⟩

/-- Nodes side by side are played only at players side by side, in the trails of these. -/
theorem play_parallel_eq_ok {players : Option (G → Args → Checked (List Player))} {body : Flow G}
    {p : Progress Trail G} (kind_eq : flow.kind = .parallel players body) :
    play (.cons mark below) flow scope g dice = .ok p ↔
      ∃ seated lanes completed q, mark.position = .parallel seated lanes completed ∧
        playLanes lanes flow body seated completed scope g dice = .ok q ∧
          p = { q with
            signal := laneSignal q.trail.2 q.signal
            trail := .cons (mark.withLanes seated q.trail.1 q.trail.2) below } := by
  rw [play_parallel kind_eq]
  obtain ⟨name, position, stepIndex⟩ := mark
  constructor
  · intro played
    obtain ⟨⟨⟩, at_mark, played⟩ := bind_eq_ok.1 played
    cases played
    obtain ⟨⟨⟩, at_position, played⟩ := bind_eq_ok.1 (Playing.mapMismatch_eq_ok.1 at_mark)
    cases played
    cases position with
    | parallel seated lanes completed =>
        obtain ⟨q, lanes_played, played⟩ := bind_eq_ok.1 at_position
        cases played
        exact ⟨seated, lanes, completed, q, rfl, lanes_played, rfl⟩
    | _ => cases at_position
  · rintro ⟨seated, lanes, completed, q, rfl, lanes_played, rfl⟩
    have at_mark : playMark ⟨name, .parallel seated lanes completed, stepIndex⟩ flow body scope g
        dice = .ok { q with
          signal := laneSignal q.trail.2 q.signal
          trail := ⟨name, .parallel seated q.trail.1 q.trail.2, stepIndex⟩ } := by
      rw [playMark, playPosition, lanes_played]
      rfl
    rw [at_mark]
    rfl

end Unit

end Flow

end Tabletop
