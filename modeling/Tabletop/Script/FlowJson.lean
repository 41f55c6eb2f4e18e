import Tabletop.PlayError
import Tabletop.Script.Statement

/-! # Described flows

The description of a flow is an object with a kind, the name of the node if it
has one, and blocks. A block is an array; in it an object is a node and an
array is a callback.

## Implementation notes

The blocks below a node are read first, whatever the kind of the node, and the
node is then put together from them and its plain members.
-/

namespace Tabletop.Script

/-- What was read below a node. -/
structure Parts where
  body : Block Host := []
  otherwise : Block Host := []
  cases : List (Option (Argument → Bool) × Block Host) := []
  actions : List (StepAction Host (Flow Host)) := []

/-- A result of reading, as a result of play. -/
def reading {α : Type} (result : Reading α) : Playing α := result.mapError .unreadable

/-- A member of an object that has to be there. -/
def member {α : Type} (j : Json) (key : String) (value : Json → Reading α) : Playing α :=
  reading ((j.get? key).elim Json.unfit value)

/-- A member of an object that may be missing or `null`. -/
def member? {α : Type} (j : Json) (key : String) (value : Json → Reading α) :
    Playing (Option α) :=
  reading ((j.get? key).elim (.ok none) (Json.nullable value))

/-- An expression over the game and the arguments of a flow. -/
def seen (e : Expr) (h : Host) (args : Args) : Argument := h.eval args none e

/-- An expression over the game and the arguments of a flow, as a condition. -/
def holds (e : Expr) (h : Host) (args : Args) : Bool := isTrue (seen e h args)

/-- An expression over the game and the arguments of a flow, as players. -/
def seats (e : Expr) (h : Host) (args : Args) : Checked (List Player) :=
  .ok (playersOf (seen e h args))

/-- An expression over a value under test. -/
def onValue (e : Expr) (value : Argument) : Argument := e.eval { it := some value }

/-- The flow of a kind, from its plain members and its parts. -/
def buildFlow (kind : String) (j : Json) (parts : Parts) : Playing (Flow Host) :=
  if kind = "sequence" then pure (.sequence parts.body)
  else if kind = "forever" then pure (.forever parts.body)
  else if kind = "each_player" then pure (.eachPlayer parts.body)
  else if kind = "while" then do
    let condition ← member j "cond" Expr.ofJson
    pure (.whileHolds (holds condition) parts.body)
  else if kind = "range" then do
    let first ← member j "from" Json.asInt64
    let last ← member j "to" Json.asInt64
    pure (.range first last parts.body)
  else if kind = "for" then do
    let initial ← member j "init" Expr.ofJson
    let next ← member j "next" Expr.ofJson
    let test ← member j "test" Expr.ofJson
    pure <| .ofKind <|
      .count (seen initial) (onValue next) (fun value => isTrue (onValue test value)) parts.body
  else if kind = "each" then do
    let collection ← member j "in" Expr.ofJson
    pure (.forEach (fun h args => itemsOf (seen collection h args)) parts.body)
  else if kind = "switch" then do
    let value ← member j "value" Expr.ofJson
    Playing.ofChecked (Flow.switch (seen value) parts.cases)
  else if kind = "if" then do
    let condition ← member j "cond" Expr.ofJson
    pure (.ifElse (holds condition) parts.body parts.otherwise)
  else if kind = "every_player" then do
    let players ← member? j "players" Expr.ofJson
    pure (.everyPlayer (players.map seats) parts.body)
  else if kind = "actions" then do
    let players ← member? j "players" Expr.ofJson
    let prompt ← member? j "prompt" Json.asString
    let passPrompt ← member? j "optional" Json.asString
    pure (.act { players := players.map seats, prompt, passPrompt, actions := parts.actions })
  else reading Json.unfit

/-- The flow of a description, from its parts. -/
def nameFlow (j : Json) (parts : Parts) : Playing (Flow Host) := do
  let kind ← member j "kind" Json.asString
  let flow ← buildFlow kind j parts
  let name ← member? j "name" Json.asString
  pure (flow.named name)

/-- The test of a case, none for the default. -/
def caseTest (j : Json) : Playing (Option (Argument → Bool)) := do
  let equal ← member? j "eq" Argument.ofJson
  let test ← member? j "when" Expr.ofJson
  pure <|
    match equal, test with
    | some expected, _ => some fun value => value == expected
    | none, some test => some fun value => isTrue (onValue test value)
    | none, none => none

/-- An action of a step, from its plain members and its parts. -/
def buildAction (j : Json) (parts : Parts) : Playing (StepAction Host (Flow Host)) := do
  let name ← member j "name" Json.asString
  let prefilled ← member? j "prefill" Args.ofJson
  let expanded ← member? j "expand" Json.asBool
  pure
    { name, block := parts.body, prefilled := prefilled.getD .empty,
      expanded := expanded.getD false }

mutual
/-- What is below a node is read from its members. -/
def partsOf : List (String × Json) → Playing Parts
  | [] => .ok {}
  | (key, value) :: rest => do
      let parts ← partsOf rest
      if key = "do" then pure { parts with body := ← blockOfJson value }
      else if key = "else" then pure { parts with otherwise := ← blockOfJson value }
      else if key = "cases" then pure { parts with cases := ← casesOfJson value }
      else if key = "actions" then pure { parts with actions := ← actionsOfJson value }
      else pure parts
termination_by structural members => members
/-- A block is read from an array. -/
def blockOfJson : Json → Playing (Block Host)
  | .arr items => blockOfItems items
  | _ => reading Json.unfit
termination_by structural j => j
/-- The entries of a block are read in order. -/
def blockOfItems : List Json → Playing (Block Host)
  | [] => .ok []
  | item :: rest => do
      let step ← stepOfJson item
      let steps ← blockOfItems rest
      pure (step :: steps)
termination_by structural items => items
/-- An entry of a block is a callback if it is an array, and else a node. -/
def stepOfJson : Json → Playing (Step Host (Flow Host))
  | .arr items => do
      let script ← reading (Statement.scriptOfItems items)
      pure (.call (stepCallback script))
  | .obj members => do
      let parts ← partsOf members
      let flow ← nameFlow (.obj members) parts
      pure (.node flow)
  | _ => reading Json.unfit
termination_by structural j => j
/-- The cases of a switch are read from an array. -/
def casesOfJson : Json → Playing (List (Option (Argument → Bool) × Block Host))
  | .arr items => casesOfItems items
  | _ => reading Json.unfit
termination_by structural j => j
/-- The cases of a switch are read in order. -/
def casesOfItems : List Json → Playing (List (Option (Argument → Bool) × Block Host))
  | [] => .ok []
  | item :: rest => do
      let c ← caseOfJson item
      let cs ← casesOfItems rest
      pure (c :: cs)
termination_by structural items => items
/-- A case of a switch is read from an object. -/
def caseOfJson : Json → Playing (Option (Argument → Bool) × Block Host)
  | .obj members => do
      let test ← caseTest (.obj members)
      let parts ← partsOf members
      pure (test, parts.body)
  | _ => reading Json.unfit
termination_by structural j => j
/-- The actions of a step are read from an array. -/
def actionsOfJson : Json → Playing (List (StepAction Host (Flow Host)))
  | .arr items => actionsOfItems items
  | _ => reading Json.unfit
termination_by structural j => j
/-- The actions of a step are read in order. -/
def actionsOfItems : List Json → Playing (List (StepAction Host (Flow Host)))
  | [] => .ok []
  | item :: rest => do
      let action ← actionOfJson item
      let actions ← actionsOfItems rest
      pure (action :: actions)
termination_by structural items => items
/-- An action of a step is its name, or an object. -/
def actionOfJson : Json → Playing (StepAction Host (Flow Host))
  | .str name => .ok { name, block := [], prefilled := .empty, expanded := false }
  | .obj members => do
      let parts ← partsOf members
      buildAction (.obj members) parts
  | _ => reading Json.unfit
termination_by structural j => j
end

/-- A flow is read from JSON. -/
def flowOfJson : Json → Playing (Flow Host)
  | .obj members => do
      let parts ← partsOf members
      nameFlow (.obj members) parts
  | _ => reading Json.unfit

end Tabletop.Script
