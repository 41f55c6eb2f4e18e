import Tabletop.Move

/-! # Flow identities

A game has a main flow and named subflows, and one small flow for each
follow-up under way. The identity of a follow-up holds all that is needed to
make its flow again.
-/

namespace Tabletop

/-- Which flow is meant. -/
inductive FlowId where
  | main
  | subflow (name : String)
  | followUp (id : UInt32) (followUp : FollowUp)
  deriving DecidableEq

namespace FlowId

/-- The name that is kept for the main flow. -/
def mainName : String := "main"

/-- The name of the flow of a follow-up. -/
def followUpName (id : UInt32) : String := "__followup_" ++ toString id.toNat ++ "__"

/-- How a flow is called in texts. -/
def display : FlowId → String
  | main => mainName
  | subflow name => name
  | followUp id _ => followUpName id

/-- The JSON of an identity, which starts with its kind. -/
def toJson : FlowId → Json
  | main => .obj [("kind", .str "main")]
  | subflow name => .obj [("kind", .str "subflow"), ("name", .str name)]
  | followUp id f =>
      .obj [("kind", .str "follow-up"), ("id", .int id.toNat), ("follow_up", f.toJson)]

/-- The identity of a kind, from the fields besides the kind. -/
def ofFields (kind : String) (fields : Json) : Reading FlowId :=
  if kind = "main" then do
    let _ ← Json.record [] fields
    pure main
  else if kind = "subflow" then do
    let r ← Json.record ["name"] fields
    subflow <$> r.required "name" Json.asString
  else if kind = "follow-up" then do
    let r ← Json.record ["id", "follow_up"] fields
    let id ← r.required "id" Json.asId
    let f ← r.required "follow_up" FollowUp.ofJson
    pure (followUp id f)
  else Json.unfit

/-- An identity is read from an object, or from an array that starts with the
kind. All of it has to be readable. -/
def ofJson (j : Json) : Reading FlowId :=
  if j.isReadable then
    match j with
    | .obj members => do
        let tag ← Json.record ["kind"] j
        let kind ← tag.required "kind" Json.asString
        ofFields kind (.obj (members.filter fun m => m.1 != "kind"))
    | .arr (kind :: rest) => do ofFields (← kind.asString) (.arr rest)
    | _ => Json.unfit
  else Json.unfit

end FlowId

end Tabletop
