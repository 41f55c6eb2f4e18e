import Tabletop.Argument
import Tabletop.Json.Printer
import Tabletop.Json.Record

/-! # Arguments on the wire

Arguments are plain JSON. A player is the text `$p[1]` and an element the text
`$el[42]`; a text of its own that starts with a dollar sign gets one more in
front, so that no text is taken for a token.
-/

namespace Tabletop

/-- The token of a player. -/
def Player.token (p : Player) : String :=
  "$p[" ++ toString p.seat.toNat ++ "]"

/-- The token of an element. -/
def Element.token (e : Element) : String :=
  "$el[" ++ toString e.id.toNat ++ "]"

namespace Argument

/-- A text as it is written: with one more dollar sign if it starts with one. -/
def escapeText (s : String) : String :=
  match s.toList with
  | '$' :: _ => "$" ++ s
  | _ => s

mutual
/-- The JSON of an argument. -/
def toJson : Argument → Json
  | bool value => .bool value
  | number value => .int value.toInt
  | text value => .str (escapeText value)
  | player value => .str value.token
  | element value => .str value.token
  | list items => .arr (listToJson items)
termination_by structural a => a
/-- The JSON of the items of a list. -/
def listToJson : List Argument → List Json
  | [] => []
  | item :: rest => item.toJson :: listToJson rest
termination_by structural items => items
end

/-- The number in a token: a plus sign if one likes, then decimal digits, with
a value below the bound. -/
def tokenNumber? (bound : Nat) (s : List Char) : Option Nat :=
  let digits := match s with
    | '+' :: digits => digits
    | digits => digits
  if digits.isEmpty then none
  else do
    let values ← digits.mapM Json.digit?
    let n := Json.ofDigits values
    if n < bound then pure n else none

/-- The part of a token before its closing bracket. -/
def tokenBody? (s : List Char) : Option (List Char) :=
  match s.reverse with
  | ']' :: body => some body.reverse
  | _ => none

/-- The player or element a text stands for. -/
def ofToken? (s : List Char) : Option Argument :=
  match s with
  | '$' :: 'p' :: '[' :: rest => do
      let n ← tokenNumber? UInt8.size (← tokenBody? rest)
      pure (player ⟨UInt8.ofNat n⟩)
  | '$' :: 'e' :: 'l' :: '[' :: rest => do
      let n ← tokenNumber? UInt32.size (← tokenBody? rest)
      pure (element ⟨UInt32.ofNat n⟩)
  | _ => none

/-- The argument a written text stands for. What is no token is itself. -/
def ofText (s : String) : Argument :=
  match s.toList with
  | '$' :: '$' :: rest => text (String.ofList ('$' :: rest))
  | cs => (ofToken? cs).getD (text s)

mutual
/-- The argument a JSON value stands for. -/
def ofJson : Json → Reading Argument
  | .bool value => .ok (bool value)
  | .int n => number <$> Json.asInt64 (.int n)
  | .str s => .ok (ofText s)
  | .arr items => list <$> listOfJson items
  | .null | .real _ | .obj _ | .unreadable | .misnamed _ | .broken => Json.unfit
termination_by structural j => j
/-- The arguments a list of JSON values stands for. -/
def listOfJson : List Json → Reading (List Argument)
  | [] => .ok []
  | item :: rest => do
      let a ← ofJson item
      let as ← listOfJson rest
      pure (a :: as)
termination_by structural items => items
end

end Argument

namespace Args

/-- The JSON of named arguments: an object, sorted by name. -/
def toJson (args : Args) : Json :=
  .obj (args.entries.map fun e => (e.1, e.2.toJson))

/-- Named arguments are read from an object; the last member of a name counts. -/
def ofJson : Json → Reading Args
  | .obj members => do
      let entries ← members.mapM fun m => do
        let a ← Argument.ofJson m.2
        pure (m.1, a)
      pure (Dict.ofList entries)
  | _ => Json.unfit

end Args

namespace Player

/-- A player is written as the number of the seat. -/
def toJson (p : Player) : Json := .int p.seat.toNat

/-- A player is read from the number of the seat. -/
def ofJson (j : Json) : Reading Player := do
  let seat ← Json.asNatBelow UInt8.size j
  pure ⟨UInt8.ofNat seat⟩

end Player

end Tabletop
