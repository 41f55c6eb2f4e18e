/-! # JSON values

A JSON text is held as a tree. An object keeps its members in the order in
which they are written, repeated keys included, so that a reader can decide
what a repetition means.

## Implementation notes

Three forms stand for text that is no value. `unreadable` is text of the right
shape without a meaning: a number beyond the largest double, a string with an
unpaired surrogate, or nesting beyond the limit. `misnamed` is the value of a
member whose key has no meaning, and the key of such a member is left empty.
Both may be skipped. `broken` is the place where the text stops being JSON.
With them a faulty text still has a tree up to its first fault, and a reader
that walks the tree in the order of the text reports the fault that comes
first.
-/

namespace Tabletop

/-- A JSON value, or as much of one as a text holds. -/
inductive Json where
  | null
  | bool (value : Bool)
  /-- A number written as an integer; minus zero is not one. -/
  | int (value : Int)
  /-- Any other number, as it is written. -/
  | real (literal : String)
  | str (value : String)
  | arr (items : List Json)
  | obj (members : List (String × Json))
  | unreadable
  /-- A value under a key with an unpaired surrogate. -/
  | misnamed (value : Json)
  | broken
  deriving Inhabited

namespace Json

mutual
/-- A value can be skipped when its text is complete, whatever it means. -/
def isComplete : Json → Bool
  | broken => false
  | arr items => areComplete items
  | obj members => membersComplete members
  | misnamed value => value.isComplete
  | _ => true
termination_by structural j => j
/-- Every item of an array is complete. -/
def areComplete : List Json → Bool
  | [] => true
  | item :: rest => item.isComplete && areComplete rest
termination_by structural items => items
/-- Every member of an object is complete. -/
def membersComplete : List (String × Json) → Bool
  | [] => true
  | (_, value) :: rest => value.isComplete && membersComplete rest
termination_by structural members => members
end

mutual
/-- A value can be read when it is complete and every part of it has a meaning. -/
def isReadable : Json → Bool
  | broken | unreadable | misnamed _ => false
  | arr items => areReadable items
  | obj members => membersReadable members
  | _ => true
termination_by structural j => j
/-- Every item of an array can be read. -/
def areReadable : List Json → Bool
  | [] => true
  | item :: rest => item.isReadable && areReadable rest
termination_by structural items => items
/-- Every member of an object can be read. -/
def membersReadable : List (String × Json) → Bool
  | [] => true
  | (_, value) :: rest => value.isReadable && membersReadable rest
termination_by structural members => members
end

mutual
/-- The value with, under each key of an object, only the member written last. -/
def lastOnly : Json → Json
  | arr items => arr (lastOnlyItems items)
  | obj members => obj (lastMembers members)
  | j => j
termination_by structural j => j
/-- The items of an array, each with only the last members of its objects. -/
def lastOnlyItems : List Json → List Json
  | [] => []
  | item :: rest => item.lastOnly :: lastOnlyItems rest
termination_by structural items => items
/-- The members of an object that are written last under their key. -/
def lastMembers : List (String × Json) → List (String × Json)
  | [] => []
  | (key, value) :: rest =>
      if rest.any fun m => m.1 == key then lastMembers rest
      else (key, value.lastOnly) :: lastMembers rest
termination_by structural members => members
end

/-- The value of an optional member, as a list that is empty when it is absent. -/
def member? (key : String) : Option Json → List (String × Json)
  | none => []
  | some value => [(key, value)]

/-- The last value under a key of an object. -/
def get? (key : String) : Json → Option Json
  | obj members => (members.reverse.find? fun m => m.1 == key).map (·.2)
  | _ => none

end Json

end Tabletop
