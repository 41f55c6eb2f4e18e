import Tabletop.Dice
import Tabletop.Flow.TrailJson
import Tabletop.Session.FlowId

/-! # Snapshots

A snapshot is all that is needed to take up a game again, apart from the host
game itself: where each active flow stands, where the dice stand, and the
moves so far.
-/

namespace Tabletop

/-- A flow under way. -/
structure Activation where
  flow : FlowId
  /-- The arguments the flow was entered with. -/
  args : Args
  trail : Trail

namespace Activation

/-- The JSON of a flow under way. -/
def toJson (a : Activation) : Json :=
  .obj [("flow", a.flow.toJson), ("args", a.args.toJson), ("branch", a.trail.toJson)]

/-- The first fault of a field, looked for in the order of the text. -/
def checkField (key : String) (j : Json) : Reading Unit :=
  if key = "flow" then discard (FlowId.ofJson j)
  else if key = "args" then discard (Args.ofJson j)
  else discard (Trail.ofJson j)

/-- A flow under way is read with no arguments if they are missing. -/
def ofJson (j : Json) : Reading Activation := do
  let r ← Json.record ["flow", "args", "branch"] j checkField
  let flow ← r.required "flow" FlowId.ofJson
  let args ← r.orElse "args" Dict.empty Args.ofJson
  let trail ← r.required "branch" Trail.ofJson
  pure { flow, args, trail }

end Activation

/-- How far a game is. -/
inductive Status where
  | notStarted
  | playing
  | finished
  deriving DecidableEq, Repr

namespace Status

/-- The written name of a status. -/
def name : Status → String
  | notStarted => "not-started"
  | playing => "playing"
  | finished => "finished"

/-- A status is read from its name. -/
def ofJson (j : Json) : Reading Status := do
  let s ← j.asName
  if s = "not-started" then pure notStarted
  else if s = "playing" then pure playing
  else if s = "finished" then pure finished
  else Json.unfit

end Status

/-- Where a game stands. -/
structure Snapshot where
  status : Status
  /-- The flows under way, the running one first. -/
  stack : List Activation
  dice : Dice.State
  /-- The number of the next follow-up. -/
  nextFollowUp : UInt32
  history : List MoveRecord

namespace Snapshot

/-- The JSON of a snapshot; the flows are written from the bottom up. -/
def toJson (s : Snapshot) : Json :=
  .obj
    [("status", .str s.status.name), ("stack", .arr (s.stack.reverse.map Activation.toJson)),
     ("rng", s.dice.toJson), ("nextFollowUp", .int s.nextFollowUp.toNat),
     ("history", .arr (s.history.map MoveRecord.toJson))]

/-- The text of a snapshot. -/
def text (s : Snapshot) : String := s.toJson.text

/-- The first fault of a field, looked for in the order of the text. -/
def checkField (key : String) (j : Json) : Reading Unit :=
  if key = "status" then discard (Status.ofJson j)
  else if key = "stack" then discard (j.asList Activation.ofJson)
  else if key = "rng" then discard (Dice.State.ofJson j)
  else if key = "nextFollowUp" then discard j.asId
  else discard (j.asList MoveRecord.ofJson)

/-- A snapshot is read from its fields; the number of the next follow-up and
the moves may be missing. -/
def ofJson (j : Json) : Reading Snapshot := do
  let r ← Json.record ["status", "stack", "rng", "nextFollowUp", "history"] j checkField
  let status ← r.required "status" Status.ofJson
  let stack ← r.required "stack" (Json.asList Activation.ofJson)
  let dice ← r.required "rng" Dice.State.ofJson
  let nextFollowUp ← r.orElse "nextFollowUp" 0 Json.asId
  let history ← r.orElse "history" [] (Json.asList MoveRecord.ofJson)
  pure { status, stack := stack.reverse, dice, nextFollowUp, history }

/-- A snapshot is read from a text. -/
def ofText (text : String) : Reading Snapshot := Json.decode ofJson text

end Snapshot

end Tabletop
