import Tabletop.Argument.Wire

/-! # Moves

A move is what a player submits: an action by its name and the arguments for
it. The moves that were accepted make up the history of a game.
-/

namespace Tabletop

/-- A submitted move. -/
structure Move where
  player : Player
  name : String
  args : Args
  deriving DecidableEq

/-- An accepted move with its number in the history. -/
structure MoveRecord where
  move : Move
  sequence : UInt32
  deriving DecidableEq

/-- An action that is offered right after the current one. -/
structure FollowUp where
  player : Player
  name : String
  args : Args
  prompt : Option String
  deriving DecidableEq

namespace Move

/-- The JSON of a move. -/
def toJson (m : Move) : Json :=
  .obj [("player", m.player.toJson), ("name", .str m.name), ("args", m.args.toJson)]

/-- A move is read with no arguments if they are missing. -/
def ofJson (j : Json) : Reading Move := do
  let r ← Json.record ["player", "name", "args"] j
  let player ← r.required "player" Player.ofJson
  let name ← r.required "name" Json.asString
  let args ← r.orElse "args" Dict.empty Args.ofJson
  pure { player, name, args }

end Move

namespace MoveRecord

/-- The number of a move that is accepted after some others. Behind the last
number all moves have that one. -/
def numberAfter (history : List MoveRecord) : UInt32 :=
  .ofNat (min history.length (UInt32.size - 1))

/-- The JSON of an accepted move. -/
def toJson (m : MoveRecord) : Json :=
  .obj [("move", m.move.toJson), ("sequence", .int m.sequence.toNat)]

/-- An accepted move is read with its number. -/
def ofJson (j : Json) : Reading MoveRecord := do
  let r ← Json.record ["move", "sequence"] j
  let move ← r.required "move" Move.ofJson
  let sequence ← r.required "sequence" Json.asId
  pure { move, sequence }

end MoveRecord

namespace FollowUp

/-- The JSON of a follow-up; a missing prompt is left out. -/
def toJson (f : FollowUp) : Json :=
  .obj <|
    [("player", f.player.toJson), ("name", .str f.name), ("args", f.args.toJson)] ++
      Json.member? "prompt" (f.prompt.map .str)

/-- A follow-up is read with no arguments and no prompt if they are missing. -/
def ofJson (j : Json) : Reading FollowUp := do
  let r ← Json.record ["player", "name", "args", "prompt"] j
  let player ← r.required "player" Player.ofJson
  let name ← r.required "name" Json.asString
  let args ← r.orElse "args" Dict.empty Args.ofJson
  let prompt ← r.orElse "prompt" none (Json.nullable Json.asString)
  pure { player, name, args, prompt }

end FollowUp

end Tabletop
