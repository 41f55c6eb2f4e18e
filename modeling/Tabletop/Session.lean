import Tabletop.Session.Menu
import Tabletop.Session.Rules
import Tabletop.Session.Snapshot

/-! # Sessions

A session drives one game: it holds the flows under way, the topmost of which
runs, and plays them until a player has to move or the game is over.

## Implementation notes

An operation that ends in an error leaves behind what it had done up to there,
so the error and the table are told together.
-/

namespace Tabletop

variable {G : Type}

/-- Where a game stands between two operations. -/
structure Session where
  status : Status
  /-- The flows under way, the running one first. -/
  stack : List Activation
  dice : Dice
  followUps : FollowUps
  /-- The accepted moves, the first one first. -/
  history : List MoveRecord
  /-- What accepted moves announced and nobody has taken yet. -/
  messages : List String

/-- A game and the session that drives it. -/
structure Table (G : Type) where
  session : Session
  game : G

/-- An operation on a table. -/
abbrev Drive (G α : Type) := ExceptT PlayError (StateM (Table G)) α

namespace Session

/-- The session of a game that has not started. -/
def new (config : Config) : Session where
  status := .notStarted
  stack := []
  dice := .new config.seed
  followUps := .empty
  history := []
  messages := []

/-- The running flow. -/
def top? (s : Session) : Option Activation := s.stack.head?

/-- The session with another flow on top. -/
def push (s : Session) (a : Activation) : Session := { s with stack := a :: s.stack }

/-- The session without the running flow; a follow-up is over with it. -/
def pop (s : Session) : Session :=
  match s.stack with
  | [] => s
  | a :: stack =>
      match a.flow with
      | .followUp id _ => { s with stack, followUps := s.followUps.remove id }
      | _ => { s with stack }

/-- The session with another trail for the running flow. -/
def setTrail (s : Session) (trail : Trail) : Session :=
  match s.stack with
  | [] => s
  | a :: stack => { s with stack := { a with trail } :: stack }

/-- The session after the last flow. -/
def finish (s : Session) : Session := { s with status := .finished }

/-- The session with announcements. -/
def announce (s : Session) (messages : List String) : Session :=
  { s with messages := s.messages ++ messages }

/-- The session with an accepted move, if moves are kept. -/
def record (s : Session) (config : Config) (move : Move) : Session :=
  if config.keepHistory then { s with history := s.history ++ [⟨move, MoveRecord.numberAfter s.history⟩] } else s

end Session

namespace Drive

/-- The session as it stands. -/
def session : Drive G Session := do return (← get).session

/-- The game as it stands. -/
def game : Drive G G := do return (← get).game

/-- Changes the session. -/
def change (f : Session → Session) : Drive G Unit :=
  modify fun t => { t with session := f t.session }

/-- Puts the game and the dice after something was played. -/
def putGame (game : G) (dice : Dice) : Drive G Unit :=
  modify fun t => { game, session := { t.session with dice } }

end Drive

namespace Rules

variable [Game G]

/-- The flow behind an identity. -/
def flow (rules : Rules G) (id : FlowId) : Drive G (Flow G) := do
  rules.flows.get (← Drive.session).followUps id

/-- Enters a flow on top of the ones under way. -/
def enterFlow (rules : Rules G) (id : FlowId) (args : Args) : Drive G Unit := do
  let flow ← rules.flow id
  let trail ← flow.reset (← Drive.game) (Scope.ofArgs args)
  Drive.change fun s => s.push { flow := id, args, trail }

/-- Enters the main flow of a game that has not started. -/
def start (rules : Rules G) : Drive G Unit := do
  if (← Drive.session).status ≠ .notStarted then throw .alreadyStarted
  rules.enterFlow .main .empty
  Drive.change fun s => { s with status := .playing }

/-- Enters the flows that were asked for; the first one is to run first. -/
def enterCalls (rules : Rules G) (calls : List SubflowCall) : Drive G Unit :=
  calls.reverse.forM fun call => rules.enterFlow (.subflow call.name) call.args

/-- Plays the running flow by one unit and leaves it if it is complete. -/
def playTop (rules : Rules G) (top : Activation) : Drive G Signal := do
  let flow ← rules.flow top.flow
  let t ← get
  let p ← flow.play top.trail (Scope.ofArgs top.args) t.game t.session.dice
  Drive.putGame p.game p.dice
  Drive.change fun s => s.setTrail p.trail
  match p.signal with
  | .interrupt i => throw (.unhandled i.display top.flow.display)
  | signal =>
      if signal = .complete then Drive.change Session.pop
      rules.enterCalls p.calls
      if (← Drive.session).stack.isEmpty then
        Drive.change Session.finish
        return .complete
      else return if signal = .complete then .moved else signal

/-- Plays a game by one unit. The signal is that of the whole game, which is
complete after its last flow. -/
def playOne (rules : Rules G) : Drive G Signal := do
  let s ← Drive.session
  match s.status, s.top? with
  | .notStarted, _ => throw .notStarted
  | .finished, _ => return .complete
  | .playing, none =>
      Drive.change Session.finish
      return .complete
  | .playing, some top => rules.playTop top

/-- Settles the stops of a trail at which nobody can do anything, and tells
whether there was one. Steps that may be passed are left to the players. -/
def skipStops (rules : Rules G) (g : G) : List (Stop G) → Trail → Playing (Trail × Bool)
  | [], trail => .ok (trail, false)
  | s :: rest, trail => do
      if s.step.isOptional then rules.skipStops g rest trail
      else if ← s.anyPlayable rules.repertoire g (← s.eligible g) then
        rules.skipStops g rest trail
      else
        let trail ← s.settle g .skipped trail
        let (trail, _) ← rules.skipStops g rest trail
        pure (trail, true)

/-- The stops of a flow under way. -/
def stops (rules : Rules G) (a : Activation) : Drive G (List (Stop G)) := do
  let flow ← rules.flow a.flow
  return flow.stops a.trail (Scope.ofArgs a.args)

/-- Skips the steps that nobody can play, and tells whether there was one. -/
def skipUnplayable (rules : Rules G) : Drive G Bool := do
  match (← Drive.session).top? with
  | none => return false
  | some top => do
      let (trail, skipped) ← rules.skipStops (← Drive.game) (← rules.stops top) top.trail
      Drive.change fun s => s.setTrail trail
      return skipped

/-- Plays on within a number of units. -/
def playWithin (rules : Rules G) : (units : Nat) → Drive G Unit
  | 0 => throw (.stepLimit rules.config.maxSteps)
  | units + 1 => do
      let signal ← rules.playOne
      if (← Drive.session).status = .finished then return
      if signal = .awaiting then
        if ← rules.skipUnplayable then rules.playWithin units
      else rules.playWithin units

/-- Plays until a player has to move or the game is over. Steps that nobody can
play are skipped on the way. -/
def play (rules : Rules G) : Drive G Unit := rules.playWithin rules.config.maxSteps

/-! ## What players can do -/

/-- The stops of the running flow, none if there is no flow running. -/
def stopsNow (rules : Rules G) (t : Table G) : List (Stop G) :=
  if t.session.status = .playing then
    match t.session.top? with
    | none => []
    | some top =>
        match rules.flows.get? t.session.followUps top.flow with
        | none => []
        | some flow => flow.stops top.trail (Scope.ofArgs top.args)
  else []

/-- The players who may move at a stop and can do something there. -/
def playersAt (rules : Rules G) (t : Table G) (s : Stop G) : Checked (List Player) := do
  (← s.eligible t.game).filterM fun player => s.isPlayable rules.repertoire t.game player

/-- The players who can move, by their seats. -/
def awaitingPlayers (rules : Rules G) (t : Table G) : Checked (List Player) := do
  let players ← (rules.stopsNow t).mapM (rules.playersAt t)
  pure (Player.all.filter players.flatten.contains)

/-- What a player can do. -/
def menu? (rules : Rules G) (t : Table G) (player : Player) (name : Option String)
    (args : Option Args) : Checked (Option Menu) := do
  match ← Stop.findFor t.game player (rules.stopsNow t) with
  | none => pure none
  | some s => s.menu? rules.repertoire t.game player name args

end Rules

end Tabletop
