import Tabletop.Argument.Wire
import Tabletop.Flow.Trail

/-! # Trails as JSON

A mark is an object with the kind of its position, the name of its node if it
has one, the position itself, and the next step where the position does not
tell it. What the position looks like hangs on the kind, which is therefore
read first.

## Implementation notes

A position is looked at as a whole: it has to be readable, of the members
that share a key at any depth in it only the last counts, and whatever is
wrong inside is reported as a bad position of the outermost mark. So the
positions of the outermost marks are settled first, and everything below is
read from settled values.
-/

namespace Tabletop

/-- The JSON of a number that may be missing. -/
def indexToJson : Option Nat → Json
  | none => .null
  | some index => .int index

/-- The JSON of an accepted move. -/
def Taken.toJson (m : Taken) : Json :=
  .obj [("player", m.player.toJson), ("name", .str m.name), ("args", m.args.toJson)]

/-- The JSON of the status of an action step. -/
def ActionStatus.toJson : ActionStatus → Json
  | awaiting => .null
  | skipped => .str "skipped"
  | taken move => move.toJson

/-- The members of a mark in their order. -/
def markMembers (kind : String) (name : Option String) (position : Json)
    (stepIndex : Option Nat) : List (String × Json) :=
  ("kind", .str kind) :: Json.member? "name" (name.map .str) ++
    ("position", position) :: Json.member? "sequenceIndex" (stepIndex.map fun n => .int n)

namespace Trail

mutual
/-- The marks of a trail as JSON. -/
def marksToJson : Trail → List Json
  | nil => []
  | cons ⟨name, position, stepIndex⟩ below =>
      .obj (markMembers position.kind name (positionToJson position) stepIndex) ::
        marksToJson below
termination_by structural t => t
/-- The JSON of a position. -/
def positionToJson : Position Trail → Json
  | .sequence index => .int index
  | .loop index value =>
      .obj (("index", indexToJson index) :: Json.member? "value" (value.map Argument.toJson))
  | .each index value collection =>
      .obj <|
        ("index", indexToJson index) :: Json.member? "value" (value.map Argument.toJson) ++
          [("collection", .arr (collection.map Argument.toJson))]
  | .switch index isDefault value =>
      .obj <|
        Json.member? "index" (index.map fun n => .int n) ++
          Json.member? "default" (if isDefault then some (.bool true) else none) ++
          [("value", value.toJson)]
  | .action status => status.toJson
  | .parallel players lanes completed =>
      .obj
        [("players", .arr (players.map Player.toJson)), ("branches", .arr (lanesToJson lanes)),
         ("completed", .arr (completed.map .bool))]
termination_by structural position => position
/-- The trails of the players as JSON. -/
def lanesToJson : List Trail → List Json
  | [] => []
  | lane :: rest => .arr (marksToJson lane) :: lanesToJson rest
termination_by structural lanes => lanes
end

/-- The JSON of a trail. -/
def toJson (t : Trail) : Json := .arr t.marksToJson

end Trail

/-- An accepted move is read with no arguments if they are missing. -/
def Taken.ofJson (j : Json) : Reading Taken := do
  let r ← Json.record ["player", "name", "args"] j
  let player ← r.required "player" Player.ofJson
  let name ← r.required "name" Json.asString
  let args ← r.orElse "args" Dict.empty Args.ofJson
  pure { player, name, args }

/-- The status of an action step: none is awaiting, a word is skipped, and a
move is taken. -/
def ActionStatus.ofJson : Json → Reading ActionStatus
  | .null => .ok awaiting
  | .str s => if s = "skipped" then .ok skipped else Json.unfit
  | j => taken <$> Taken.ofJson j

namespace Trail

/-- The kinds of positions. -/
def kinds : List String := ["sequence", "loop", "foreach", "switch-case", "action", "parallel"]

/-- The position of a kind that holds no trails. -/
def plainPosition (kind : String) (j : Json) : Reading (Position Trail) :=
  if kind = "sequence" then .sequence <$> Json.asIndex j
  else if kind = "loop" then do
    let r ← Json.record ["index", "value"] j
    let index ← r.optional "index" Json.asIndex
    let value ← r.orElse "value" none (Json.nullable Argument.ofJson)
    pure (.loop index value)
  else if kind = "foreach" then do
    let r ← Json.record ["index", "value", "collection"] j
    let index ← r.optional "index" Json.asIndex
    let value ← r.orElse "value" none (Json.nullable Argument.ofJson)
    let collection ← r.required "collection" (Json.asList Argument.ofJson)
    pure (.each index value collection)
  else if kind = "switch-case" then do
    let r ← Json.record ["index", "default", "value"] j
    let index ← r.orElse "index" none (Json.nullable Json.asIndex)
    let isDefault ← r.orElse "default" false Json.asBool
    let value ← r.required "value" Argument.ofJson
    pure (.switch index isDefault value)
  else if kind = "action" then .action <$> ActionStatus.ofJson j
  else Json.unfit

/-- The players of a parallel position and who of them is done. -/
def laneOwners (j : Json) : Reading (List Player × List Bool) := do
  let r ← Json.record ["players", "branches", "completed"] j
  let players ← r.required "players" (Json.asList Player.ofJson)
  let completed ← r.required "completed" (Json.asList Json.asBool)
  pure (players, completed)

/-- What a mark tells besides its position. -/
structure MarkHead where
  kind : String
  name : Option String
  stepIndex : Option Nat

/-- The part of a mark besides its position, which has to be readable. -/
def markHead (j : Json) : Reading MarkHead := do
  let r ← Json.record ["kind", "name", "position", "sequenceIndex"] j
  let kind ← r.required "kind" Json.asString
  let name ← r.orElse "name" none (Json.nullable Json.asString)
  r.orElse "position" () fun position => if position.isReadable then .ok () else Json.unfit
  let stepIndex ← r.orElse "sequenceIndex" none (Json.nullable Json.asIndex)
  pure { kind, name, stepIndex }

/-- The mark with a position that was read for its kind. -/
def markAt (head : MarkHead) (position : Reading (Position Trail)) : Reading (Mark Trail) :=
  if kinds.contains head.kind then
    match position with
    | .ok position => .ok ⟨head.name, position, head.stepIndex⟩
    | .error _ => .error (.badPosition head.kind)
  else .error (.unknownKind head.kind)

mutual
/-- A mark is read from a record. -/
def markOfJson : Json → Reading (Mark Trail)
  | .obj members => do
      let head ← markHead (.obj members)
      markAt head ((memberPosition head.kind members).getD (plainPosition head.kind .null))
  | .arr items => do
      let head ← markHead (.arr items)
      markAt head (itemPosition head.kind items)
  | _ => Json.unfit
termination_by structural j => j
/-- The position among the members of a mark. -/
def memberPosition (kind : String) : List (String × Json) → Option (Reading (Position Trail))
  | [] => none
  | (key, value) :: rest =>
      if key = "position" then some (positionOfJson kind value) else memberPosition kind rest
termination_by structural members => members
/-- The position among the items of a mark, where it is the third. -/
def itemPosition (kind : String) : List Json → Reading (Position Trail)
  | _ :: _ :: position :: _ => positionOfJson kind position
  | _ => plainPosition kind .null
termination_by structural items => items
/-- The position of a kind. -/
def positionOfJson (kind : String) : Json → Reading (Position Trail)
  | .obj members =>
      if kind = "parallel" then do
        let (players, completed) ← laneOwners (.obj members)
        let lanes ← (memberLanes members).getD Json.unfit
        pure (.parallel players lanes completed)
      else plainPosition kind (.obj members)
  | .arr items =>
      if kind = "parallel" then do
        let (players, completed) ← laneOwners (.arr items)
        let lanes ← itemLanes items
        pure (.parallel players lanes completed)
      else plainPosition kind (.arr items)
  | j => plainPosition kind j
termination_by structural j => j
/-- The trails among the members of a parallel position. -/
def memberLanes : List (String × Json) → Option (Reading (List Trail))
  | [] => none
  | (key, value) :: rest =>
      if key = "branches" then some (lanesOfJson value) else memberLanes rest
termination_by structural members => members
/-- The trails among the items of a parallel position, where they are the
second. -/
def itemLanes : List Json → Reading (List Trail)
  | _ :: lanes :: _ => lanesOfJson lanes
  | _ => Json.unfit
termination_by structural items => items
/-- The trails of the players. -/
def lanesOfJson : Json → Reading (List Trail)
  | .arr items => laneItems items
  | _ => Json.unfit
termination_by structural j => j
/-- The trails in a list. -/
def laneItems : List Json → Reading (List Trail)
  | [] => .ok []
  | item :: rest => do
      let lane ← trailOfJson item
      let lanes ← laneItems rest
      pure (lane :: lanes)
termination_by structural items => items
/-- A trail is read from the list of its marks. -/
def trailOfJson : Json → Reading Trail
  | .arr items => marksOfJson items
  | _ => Json.unfit
termination_by structural j => j
/-- The marks in a list. -/
def marksOfJson : List Json → Reading Trail
  | [] => .ok nil
  | item :: rest => do
      let mark ← markOfJson item
      let below ← marksOfJson rest
      pure (cons mark below)
termination_by structural items => items
end

/-- A readable position with only the last members of the objects in it. -/
def settle (position : Json) : Json :=
  if position.isReadable then position.lastOnly else position

/-- A mark with a settled position. -/
def settleMark : Json → Json
  | .obj members =>
      .obj (members.map fun m => (m.1, if m.1 = "position" then settle m.2 else m.2))
  | .arr items => .arr (items.modify 2 settle)
  | j => j

/-- A trail is read from the list of its marks. -/
def ofJson : Json → Reading Trail
  | .arr marks => marksOfJson (marks.map settleMark)
  | _ => Json.unfit

end Trail

end Tabletop
