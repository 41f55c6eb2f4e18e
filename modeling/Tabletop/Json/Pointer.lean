import Tabletop.Dict
import Tabletop.Json.Basic

/-! # Pointers into JSON values

A pointer is a text that names a part of a value: a slash before each key of an
object or each index of an array on the way. A part can be put in or cut out.
Where the way does not lead on, nothing changes.
-/

namespace Tabletop.Json

/-- A key as it is meant: in a pointer a slash in a key is written `~1`, and a
tilde `~0`. -/
def unescapeKey : List Char → List Char
  | '~' :: '0' :: rest => '~' :: unescapeKey rest
  | '~' :: '1' :: rest => '/' :: unescapeKey rest
  | c :: rest => c :: unescapeKey rest
  | [] => []

/-- The keys of a pointer, in order. -/
def pointerKeys (pointer : String) : List String :=
  ((pointer.splitOn "/").drop 1).map fun key => String.ofList (unescapeKey key.toList)

/-- The index a key stands for, written without leading zeros. -/
def indexOfKey? (key : String) : Option Nat :=
  match key.toList with
  | ['0'] => some 0
  | '0' :: _ => none
  | [] => none
  | digits =>
      if digits.all Char.isDigit then
        some (digits.foldl (fun n c => 10 * n + (c.toNat - '0'.toNat)) 0)
      else none

/-- The object with a value under a key. -/
def setMember (key : String) (value : Json) (members : List (String × Json)) :
    List (String × Json) :=
  if members.any fun m => m.1 == key then
    members.map fun m => if m.1 == key then (key, value) else m
  else members ++ [(key, value)]

/-- Puts a value at the end of a way: under a key, in place of an item, or
behind the last item. -/
def putAt (value : Json) : (way : List String) → Json → Json
  | [], _ => value
  | [key], obj members => obj (setMember key value members)
  | [key], arr items =>
      match indexOfKey? key with
      | some index => arr (if index = items.length then items ++ [value] else items.set index value)
      | none => arr items
  | key :: way, obj members =>
      obj (members.map fun m => if m.1 == key then (m.1, putAt value way m.2) else m)
  | key :: way, arr items =>
      match indexOfKey? key with
      | some index => arr (items.modify index (putAt value way))
      | none => arr items
  | _, j => j

/-- Cuts out the value at the end of a way. -/
def cutAt : (way : List String) → Json → Json
  | [key], obj members => obj (members.filter fun m => m.1 != key)
  | [key], arr items =>
      match indexOfKey? key with
      | some index => arr (items.eraseIdx index)
      | none => arr items
  | key :: way, obj members =>
      obj (members.map fun m => if m.1 == key then (m.1, cutAt way m.2) else m)
  | key :: way, arr items =>
      match indexOfKey? key with
      | some index => arr (items.modify index (cutAt way))
      | none => arr items
  | _, j => j

mutual
/-- The value with the members of each object by increasing key. -/
def sorted : Json → Json
  | arr items => arr (sortedItems items)
  | obj members => obj (Dict.ofList (sortedMembers members)).entries
  | j => j
termination_by structural j => j
/-- The items of an array, with sorted objects. -/
def sortedItems : List Json → List Json
  | [] => []
  | item :: rest => item.sorted :: sortedItems rest
termination_by structural items => items
/-- The members of an object, with sorted objects. -/
def sortedMembers : List (String × Json) → List (String × Json)
  | [] => []
  | (key, value) :: rest => (key, value.sorted) :: sortedMembers rest
termination_by structural members => members
end

end Tabletop.Json
