import Tabletop.Session

/-! # Submitting moves

A submitted move is checked, carried out and put into the flow, and then the
game plays on. A move that is refused leaves the table as it was.
-/

namespace Tabletop

variable {G : Type}

/-- What an accepted move did: the outcome, and the game and dice after it. -/
abbrev Performed (G : Type) := Outcome × G × Dice

namespace Outcome

/-- Nothing was done. -/
def none : Outcome := ⟨.empty, [], []⟩

end Outcome

namespace Rules

variable [Game G]

/-- A game has to be under way. -/
def requirePlaying : Drive G Unit := do
  match (← Drive.session).status with
  | .notStarted => throw .notStarted
  | .finished => throw .finished
  | .playing => return

/-- The running flow, of a game that waits for a move. -/
def requireTop : Drive G Activation := do
  match (← Drive.session).top? with
  | some top => return top
  | none => throw .notAwaiting

/-- The action of an entry of a step, made for a player. -/
def actionOf (rules : Rules G) (s : Stop G) (name : String) (g : G) (player : Player) :
    Playing (Action G) := do
  match ← rules.repertoire.make? name g player with
  | some action => pure action
  | none => throw (.unknownAction s.flow.label name)

/-- Checks a move at a stop and carries it out. Passing does nothing. -/
def perform (rules : Rules G) (s : Stop G) (g : G) (dice : Dice) (move : Move) :
    Playing (Except Refusal (Performed G)) :=
  if move.name = ActionStep.pass then
    if s.step.isOptional then .ok (.ok (Outcome.none, g, dice))
    else .ok (.error (.mustAct s.flow.label))
  else
    match s.step.find? move.name with
    | none => .ok (.error (.unavailable move.name))
    | some entry => do
        let action ← rules.actionOf s move.name g move.player
        action.process g dice move.player (entry.fill move.args)

/-- Carries out a move at a stop without checking it. -/
def performForced (rules : Rules G) (s : Stop G) (g : G) (dice : Dice) (move : Move) :
    Playing (Performed G) :=
  if s.step.accepts move.name then
    match s.step.find? move.name with
    | none => .ok (Outcome.none, g, dice)
    | some entry => do
        let action ← rules.actionOf s move.name g move.player
        action.execute g dice move.player (entry.fill move.args)
  else throw (.unknownAction s.flow.label move.name)

/-- Puts a move that was carried out at a stop into the running flow. -/
def settleMove (s : Stop G) (move : Move) : Performed G → Drive G Unit
  | (outcome, g, dice) => do
      Drive.putGame g dice
      let top ← requireTop
      let trail ← s.settle g (.taken ⟨move.player, move.name, outcome.args⟩) top.trail
      Drive.change fun session => session.setTrail trail

/-- Enters the flow of a follow-up. -/
def enterFollowUp (rules : Rules G) (f : FollowUp) (overflow : Overflow := .faults) :
    Drive G Unit := do
  if rules.repertoire.contains f.name then
    let followUps := (← Drive.session).followUps
    FollowUps.goOn overflow followUps.next
    let (id, followUps) := followUps.add f
    Drive.change fun s => { s with followUps }
    rules.enterFlow id .empty
  else throw (.unknownAction "follow-up" f.name)

/-- Takes in what a move announced and what is to follow it; the first
follow-up is to run first. -/
def takeOutcome (rules : Rules G) (outcome : Outcome) (overflow : Overflow := .faults) :
    Drive G Unit := do
  Drive.change fun s => s.announce outcome.messages
  outcome.followUps.reverse.forM fun f => rules.enterFollowUp f overflow

/-- Submits a move and plays on. The answer is the refusal, if there is one. -/
def submit (rules : Rules G) (move : Move) (overflow : Overflow := .faults) :
    Drive G (Option Refusal) := do
  requirePlaying
  let stops ← rules.stops (← requireTop)
  if stops.isEmpty then throw .notAwaiting
  let t ← get
  match ← Stop.findFor t.game move.player stops with
  | none => throw (.ineligible move.player)
  | some s =>
      match ← rules.perform s t.game t.session.dice move with
      | .error refusal => return some refusal
      | .ok performed => do
          settleMove s move performed
          let outcome := performed.1
          Drive.change fun session => session.record rules.config { move with args := outcome.args }
          rules.takeOutcome outcome overflow
          rules.play
          return none

/-- Submits a move without checking its values, and plays on. The step has to
offer its action. Such a move is not recorded. -/
def force (rules : Rules G) (move : Move) (overflow : Overflow := .faults) : Drive G Unit := do
  if !rules.config.allowForce then throw .forceDisabled
  requirePlaying
  let stops ← rules.stops (← requireTop)
  let t ← get
  match (← Stop.findFor t.game move.player stops).or stops.head? with
  | none => throw .notAwaiting
  | some s => do
      let performed ← rules.performForced s t.game t.session.dice move
      settleMove s move performed
      rules.takeOutcome performed.1 overflow
      rules.play

/-- Submits moves one after the other, numbered from `index` on. None of them
may be refused. -/
def submitAll (rules : Rules G) (index : Nat) (moves : List Move)
    (overflow : Overflow := .faults) : Drive G Unit :=
  match moves with
  | [] => return
  | move :: rest => do
      match ← rules.submit move overflow with
      | some refusal => throw (.replayRejected index refusal)
      | none => rules.submitAll (index + 1) rest overflow

/-- Starts over and submits some moves. The game has to be as it was at the
start. -/
def replay (rules : Rules G) (moves : List Move) (overflow : Overflow := .faults) :
    Drive G Unit := do
  Drive.change fun _ => .new rules.config
  rules.start
  rules.play
  rules.submitAll 0 moves overflow

end Rules

end Tabletop
