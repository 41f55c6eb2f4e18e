import Tabletop.Json.Parser

/-! # Reading typed values

A reader turns a JSON value into a value of a type or says why it cannot. The
readers of records go through the members in the order of the text, so of
several faults the first one is reported.

A record is written as an object or as the array of its fields in order. In an
object the other members are skipped, though their keys have to be readable,
and a field may not be repeated. In an array fields may only be missing at the
end, and items behind the last field are a fault that comes after theirs.
-/

namespace Tabletop

/-- Why a JSON text does not stand for a value of the wanted type. -/
inductive ReadError where
  /-- The text is no JSON, or its parts do not fit the type. -/
  | malformed
  /-- A mark of a trail is of no known kind. -/
  | unknownKind (kind : String)
  /-- The position of a mark does not fit its kind. -/
  | badPosition (kind : String)
  deriving DecidableEq, Repr

namespace ReadError

/-- The reason as it is told, where there is more to tell than that the text
is malformed. -/
def message : ReadError → Option String
  | malformed => none
  | unknownKind kind => some ("unknown node kind '" ++ kind ++ "'")
  | badPosition kind => some ("bad " ++ kind ++ " position")

end ReadError

/-- A result of reading. -/
abbrev Reading (α : Type) := Except ReadError α

namespace Json

/-- The refusal of a value that does not fit the type. -/
def unfit {α : Type} : Reading α := .error .malformed

/-- A truth value. -/
def asBool : Json → Reading Bool
  | bool b => .ok b
  | _ => unfit

/-- A string. -/
def asString : Json → Reading String
  | str s => .ok s
  | _ => unfit

/-- A natural number below a bound. -/
def asNatBelow (bound : Nat) : Json → Reading Nat
  | int n => if 0 ≤ n ∧ n < bound then .ok n.toNat else unfit
  | _ => unfit

/-- A natural number of 64 bits. -/
def asIndex : Json → Reading Nat := asNatBelow UInt64.size

/-- A natural number of 32 bits. -/
def asId (j : Json) : Reading UInt32 := UInt32.ofNat <$> asNatBelow UInt32.size j

/-- An integer of 64 bits. -/
def asInt64 : Json → Reading Int64
  | int n => if Int64.minValue.toInt ≤ n ∧ n ≤ Int64.maxValue.toInt then .ok (Int64.ofInt n) else unfit
  | _ => unfit

/-- The items of an array, in order. -/
def asList {α : Type} (item : Json → Reading α) : Json → Reading (List α)
  | arr items => items.mapM item
  | _ => unfit

/-- A value for which `null` stands for none. -/
def nullable {α : Type} (value : Json → Reading α) : Json → Reading (Option α)
  | null => .ok none
  | j => some <$> value j

/-- One of several names: a string, or an object with `null` under the name. -/
def asName : Json → Reading String
  | str s => .ok s
  | obj [(s, null)] => .ok s
  | _ => unfit

/-- The fields found in a record. -/
structure Record where
  /-- The record is an array, so its fields have places instead of names. -/
  byPlace : Bool
  fields : List (String × Json)

/-- The members of an object that are fields of a record, in the order of the
text. `check` looks at each of them on the way. -/
def gather (keys : List String) (check : String → Json → Reading Unit) :
    (found : List (String × Json)) → List (String × Json) → Reading (List (String × Json))
  | found, [] => .ok found.reverse
  | _, (_, misnamed _) :: _ => unfit
  | found, (key, value) :: rest =>
      if keys.contains key then
        if found.any (fun m => m.1 == key) then unfit
        else do
          check key value
          gather keys check ((key, value) :: found) rest
      else if value.isComplete then gather keys check found rest
      else unfit

/-- The record with the given fields that a value stands for. -/
def record (keys : List String) (j : Json)
    (check : String → Json → Reading Unit := fun _ _ => .ok ()) : Reading Record :=
  match j with
  | obj members => do
      let fields ← gather keys check [] members
      pure ⟨false, fields⟩
  | arr items => do
      let fields := keys.zip items
      fields.forM fun m => check m.1 m.2
      if items.length ≤ keys.length then pure ⟨true, fields⟩ else unfit
  | _ => unfit

namespace Record

variable {α : Type}

/-- The value of a field, if the record has it. -/
def get? (r : Record) (key : String) : Option Json :=
  r.fields.lookup key

/-- A field that has to be there. -/
def required (r : Record) (key : String) (value : Json → Reading α) : Reading α :=
  match r.get? key with
  | some j => value j
  | none => unfit

/-- A field that stands for a default when it is missing. -/
def orElse (r : Record) (key : String) (default : α) (value : Json → Reading α) : Reading α :=
  match r.get? key with
  | some j => value j
  | none => .ok default

/-- A field that may be `null`, or be missing from an object. -/
def optional (r : Record) (key : String) (value : Json → Reading α) : Reading (Option α) :=
  match r.get? key with
  | some j => nullable value j
  | none => if r.byPlace then unfit else .ok none

end Record

/-- The value a whole text stands for. A fault of the value comes before text
that follows it. -/
def decode {α : Type} (value : Json → Reading α) (text : String) : Reading α := do
  let (j, rest) := parse text.toList
  let a ← value j
  match rest with
  | some rest => if (skipBlanks rest).isEmpty then pure a else unfit
  | none => unfit

end Json

end Tabletop
