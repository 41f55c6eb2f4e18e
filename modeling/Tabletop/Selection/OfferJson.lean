import Tabletop.Argument.Wire
import Tabletop.Selection.Offer

/-! # Offers as JSON

An offer is one object: the fields of its kind stand between the name and the
policy, behind the kind's own name. Bounds and texts that are missing are left
out.
-/

namespace Tabletop

namespace SkipPolicy

/-- The written name of a policy. -/
def name : SkipPolicy → String
  | never => "never"
  | onlyOne => "only-one"
  | always => "always"

/-- The policy with a written name. -/
def ofName? (s : String) : Option SkipPolicy :=
  if s = "never" then some never
  else if s = "only-one" then some onlyOne
  else if s = "always" then some always
  else none

/-- A policy is read from its name. -/
def ofJson (j : Json) : Reading SkipPolicy := do
  let s ← Json.asName j
  match ofName? s with
  | some policy => pure policy
  | none => Json.unfit

end SkipPolicy

namespace Choice

/-- The JSON of an entry. -/
def toJson (c : Choice) : Json :=
  .obj [("value", c.value.toJson), ("label", .str c.label)]

/-- An entry is read with its label. -/
def ofJson (j : Json) : Reading Choice := do
  let r ← Json.record ["value", "label"] j
  let value ← r.required "value" Argument.ofJson
  let label ← r.required "label" Json.asString
  pure { value, label }

end Choice

namespace Text.Pattern

/-- A pattern is read from its source. -/
def ofJson (j : Json) : Reading Pattern := do
  let source ← Json.asString j
  match ofSource source with
  | .ok pattern => pure pattern
  | .error _ => Json.unfit

end Text.Pattern

namespace Offer

/-- An area is read from exactly two numbers. -/
def areaOfJson : Json → Reading (Int64 × Int64)
  | .arr [columns, rows] => do
      let columns ← Json.asInt64 columns
      let rows ← Json.asInt64 rows
      pure (columns, rows)
  | _ => Json.unfit

namespace Kind

/-- The written names of the kinds, in order. -/
def names : List String := ["board", "choices", "number", "text", "button", "place"]

/-- The written name of a kind. -/
def name : Kind → String
  | board .. => "board"
  | choices _ => "choices"
  | number .. => "number"
  | text .. => "text"
  | button _ => "button"
  | place .. => "place"

/-- The fields of a kind. -/
def members : Kind → List (String × Json)
  | board items least most =>
      ("boardChoices", .arr (items.map Argument.toJson)) ::
        Json.member? "min" (least.map fun n => .int n) ++
        Json.member? "max" (most.map fun n => .int n)
  | choices items => [("choices", .arr (items.map Choice.toJson))]
  | number least most =>
      ("min", .int least.toInt) :: Json.member? "max" (most.map fun n => .int n.toInt)
  | text pattern initial =>
      Json.member? "pattern" (pattern.map fun p => .str p.source) ++
        Json.member? "initial" (initial.map .str)
  | button value => [("value", value.toJson)]
  | place piece area =>
      ("piece", piece.toJson) ::
        Json.member? "area" (area.map fun a => .arr [.int a.1.toInt, .int a.2.toInt])

/-- The fields of the kind with a written name. -/
def ofFields (name : String) (fields : Json) : Reading Kind :=
  if name = "board" then do
    let r ← Json.record ["boardChoices", "min", "max"] fields
    let items ← r.required "boardChoices" (Json.asList Argument.ofJson)
    let least ← r.orElse "min" none (Json.nullable Json.asIndex)
    let most ← r.orElse "max" none (Json.nullable Json.asIndex)
    pure (board items least most)
  else if name = "choices" then do
    let r ← Json.record ["choices"] fields
    choices <$> r.required "choices" (Json.asList Choice.ofJson)
  else if name = "number" then do
    let r ← Json.record ["min", "max"] fields
    let least ← r.required "min" Json.asInt64
    let most ← r.orElse "max" none (Json.nullable Json.asInt64)
    pure (number least most)
  else if name = "text" then do
    let r ← Json.record ["pattern", "initial"] fields
    let pattern ← r.orElse "pattern" none (Json.nullable Text.Pattern.ofJson)
    let initial ← r.orElse "initial" none (Json.nullable Json.asString)
    pure (text pattern initial)
  else if name = "button" then do
    let r ← Json.record ["value"] fields
    button <$> r.required "value" Argument.ofJson
  else if name = "place" then do
    let r ← Json.record ["piece", "area"] fields
    let piece ← r.required "piece" Argument.ofJson
    let area ← r.orElse "area" none (Json.nullable areaOfJson)
    pure (place piece area)
  else Json.unfit

/-- The name under the member `type`, which may also be the kind's number. -/
def nameOfJson : Json → Reading String
  | .str s => .ok s
  | .int n =>
      match if 0 ≤ n then names[n.toNat]? else none with
      | some s => .ok s
      | none => Json.unfit
  | _ => Json.unfit

end Kind

/-- The JSON of an offer. -/
def toJson (o : Offer) : Json :=
  .obj <|
    ("name", .str o.name) :: Json.member? "prompt" (o.prompt.map .str) ++
      ("type", .str o.kind.name) :: o.kind.members ++
      ("skipIf", .str o.skip.name) :: Json.member? "confirm" (o.confirm.map .str)

/-- The members of an offer that do not belong to its kind. -/
def ownKeys : List String := ["name", "prompt", "skipIf", "confirm"]

/-- An offer is read from an object. All members besides its own belong to the
kind and have to be readable. -/
def ofJson : Json → Reading Offer
  | .obj members => do
      let r ← Json.record ownKeys (.obj members)
      let name ← r.required "name" Json.asString
      let prompt ← r.orElse "prompt" none (Json.nullable Json.asString)
      let skip ← r.orElse "skipIf" .onlyOne SkipPolicy.ofJson
      let confirm ← r.orElse "confirm" none (Json.nullable Json.asString)
      let rest := members.filter fun m => !ownKeys.contains m.1
      if Json.membersReadable rest then
        let tag ← Json.record ["type"] (.obj rest)
        let kindName ← tag.required "type" Kind.nameOfJson
        let kind ← Kind.ofFields kindName (.obj (rest.filter fun m => m.1 != "type"))
        pure { name, prompt, kind, skip, confirm }
      else Json.unfit
  | _ => Json.unfit

end Offer

end Tabletop
