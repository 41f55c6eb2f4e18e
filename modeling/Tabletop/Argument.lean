import Tabletop.Dict
import Tabletop.Player

/-! # Arguments

An argument is what a player commits to for one selection, what a loop shows
as its value, and what a switch is decided on. Arguments are ordered by their
kind first and by their content second.
-/

namespace Tabletop

/-- A value exchanged between flows, actions and players. -/
inductive Argument where
  | bool (value : Bool)
  | number (value : Int64)
  | text (value : String)
  | player (value : Player)
  | element (value : Element)
  | list (items : List Argument)
  deriving Repr, Inhabited

/-- Named arguments. -/
abbrev Args := Dict Argument

namespace Argument

mutual
/-- Equality of arguments is decided part by part. -/
def decEq : (a b : Argument) → Decidable (a = b)
  | bool a, b => match b with
      | bool b => decidable_of_iff (a = b) (by simp)
      | number _ | text _ | player _ | element _ | list _ => .isFalse nofun
  | number a, b => match b with
      | number b => decidable_of_iff (a = b) (by simp)
      | bool _ | text _ | player _ | element _ | list _ => .isFalse nofun
  | text a, b => match b with
      | text b => decidable_of_iff (a = b) (by simp)
      | bool _ | number _ | player _ | element _ | list _ => .isFalse nofun
  | player a, b => match b with
      | player b => decidable_of_iff (a = b) (by simp)
      | bool _ | number _ | text _ | element _ | list _ => .isFalse nofun
  | element a, b => match b with
      | element b => decidable_of_iff (a = b) (by simp)
      | bool _ | number _ | text _ | player _ | list _ => .isFalse nofun
  | list a, b => match b with
      | list b => @decidable_of_iff _ (a = b) (by simp) (decEqList a b)
      | bool _ | number _ | text _ | player _ | element _ => .isFalse nofun
termination_by structural a => a
/-- Equality of lists of arguments is decided item by item. -/
def decEqList : (a b : List Argument) → Decidable (a = b)
  | [], [] => .isTrue rfl
  | [], _ :: _ => .isFalse nofun
  | _ :: _, [] => .isFalse nofun
  | a :: as, b :: bs =>
      match decEq a b, decEqList as bs with
      | .isTrue h, .isTrue hs => .isTrue (by rw [h, hs])
      | .isFalse h, _ => .isFalse (by simp [h])
      | _, .isFalse hs => .isFalse (by simp [hs])
termination_by structural a => a
end

instance : DecidableEq Argument := decEq

/-- The place of an argument's kind in the order of kinds. -/
def rank : Argument → Nat
  | bool _ => 0
  | number _ => 1
  | text _ => 2
  | player _ => 3
  | element _ => 4
  | list _ => 5

mutual
/-- The order of arguments: by kind, then by content; false is before true,
texts are compared by their characters and lists item by item. -/
def order : (a b : Argument) → Ordering
  | bool a, b => match b with
      | bool b => compare a.toNat b.toNat
      | b => compare 0 b.rank
  | number a, b => match b with
      | number b => compare a.toInt b.toInt
      | b => compare 1 b.rank
  | text a, b => match b with
      | text b => compareOfLessAndEq a b
      | b => compare 2 b.rank
  | player a, b => match b with
      | player b => compare a.seat.toNat b.seat.toNat
      | b => compare 3 b.rank
  | element a, b => match b with
      | element b => compare a.id.toNat b.id.toNat
      | b => compare 4 b.rank
  | list a, b => match b with
      | list b => orderList a b
      | b => compare 5 b.rank
termination_by structural a => a
/-- A list that another one starts with is before it. -/
def orderList : (a b : List Argument) → Ordering
  | [], [] => .eq
  | [], _ :: _ => .lt
  | _ :: _, [] => .gt
  | a :: as, b :: bs => (order a b).then (orderList as bs)
termination_by structural a => a
end

mutual
/-- An argument as it reads in texts; the items of a list are set apart by
commas. -/
def display : Argument → String
  | bool value => if value then "true" else "false"
  | number value => toString value.toInt
  | text value => value
  | player value => value.display
  | element value => value.display
  | list items => displayList items
termination_by structural a => a
/-- The items of a list as they read in texts. -/
def displayList : List Argument → String
  | [] => ""
  | item :: rest => item.display ++ displayRest rest
termination_by structural items => items
/-- The items after the first, each behind a comma. -/
def displayRest : List Argument → String
  | [] => ""
  | item :: rest => ", " ++ item.display ++ displayRest rest
termination_by structural items => items
end

/-- The number, if the argument is one. -/
def asNumber : Argument → Option Int64
  | number value => some value
  | _ => none

/-- The truth value, if the argument is one. -/
def asBool : Argument → Option Bool
  | bool value => some value
  | _ => none

/-- The text, if the argument is one. -/
def asText : Argument → Option String
  | text value => some value
  | _ => none

/-- The player, if the argument is one. -/
def asPlayer : Argument → Option Player
  | player value => some value
  | _ => none

/-- The element, if the argument is one. -/
def asElement : Argument → Option Element
  | element value => some value
  | _ => none

/-- The items, if the argument is a list. -/
def asList : Argument → Option (List Argument)
  | list items => some items
  | _ => none

end Argument

end Tabletop
