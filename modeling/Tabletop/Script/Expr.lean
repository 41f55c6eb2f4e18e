import Tabletop.Argument
import Tabletop.Saturating

/-! # Expressions

Games can be described in a small language. Its expressions have arguments as
values and never fail: a value of the wrong kind counts as zero, as false, or
as a list of itself.
-/

namespace Tabletop.Script

/-- An operator on one value. -/
inductive UnaryOp where
  | num
  | not
  | length
  | element
  | player
  deriving DecidableEq, Repr

/-- An operator on two values. -/
inductive BinaryOp where
  | add
  | sub
  | mul
  | mod
  | less
  | atMost
  | equal
  /-- The numbers from the first on and below the second. -/
  | range
  /-- The elements with these numbers. -/
  | elements
  | has
  | without
  deriving DecidableEq, Repr

/-- An operator on a list of values. -/
inductive ListOp where
  | all
  | any
  | list
  /-- The texts of the values, one after the other. -/
  | join
  deriving DecidableEq, Repr

/-- An expression. -/
inductive Expr where
  | literal (value : Argument)
  /-- An argument by name, or else another expression. -/
  | arg (name : String) (otherwise : Expr)
  /-- A variable of the game by name, or else another expression. -/
  | var (name : String) (otherwise : Expr)
  /-- The value under test. -/
  | it
  | player
  | unary (op : UnaryOp) (operand : Expr)
  | binary (op : BinaryOp) (left right : Expr)
  | choice (condition yes no : Expr)
  | many (op : ListOp) (operands : List Expr)
  deriving Inhabited

/-- What an expression can see. -/
structure Env where
  vars : Args := .empty
  args : Args := .empty
  player : Option Player := none
  it : Option Argument := none

/-- The number of a value, zero if it is none. -/
def numberOf (value : Argument) : Int64 := value.asNumber.getD 0

/-- A value is true only if it is the truth value. -/
def isTrue (value : Argument) : Bool := value == .bool true

/-- The items of a list; any other value is its only item. -/
def itemsOf : Argument → List Argument
  | .list items => items
  | value => [value]

/-- The players among the items of a value. -/
def playersOf (value : Argument) : List Player := (itemsOf value).filterMap Argument.asPlayer

/-- The most items that an operator lists. -/
def maxListed : Nat := 2000

/-- Some integers from the first on and below the second. -/
def upTo (first last : Int) : List Int :=
  (List.range (min (last - first).toNat maxListed)).map fun (n : Nat) => first + n

/-- The element nearest to a number. -/
def elementNear (n : Int) : Element := ⟨UInt32.ofNat (min n.toNat (UInt32.size - 1))⟩

/-- The player nearest to a number. -/
def playerNear (n : Int) : Player := ⟨UInt8.ofNat (min n.toNat (UInt8.size - 1))⟩

/-- The value of an operator on one value. -/
def UnaryOp.apply : UnaryOp → Argument → Argument
  | num, a => .number (numberOf a)
  | not, a => .bool (!isTrue a)
  | length, a => .number (Int64.ofNat (itemsOf a).length)
  | element, a => .element (elementNear (numberOf a).toInt)
  | player, a => .player (playerNear (numberOf a).toInt)

/-- The value of an operator on two values. A remainder is not negative, and
it is zero where the second value is not positive. -/
def BinaryOp.apply : BinaryOp → Argument → Argument → Argument
  | add, a, b => .number (saturatingAdd (numberOf a) (numberOf b))
  | sub, a, b => .number (saturatingSub (numberOf a) (numberOf b))
  | mul, a, b => .number (saturatingMul (numberOf a) (numberOf b))
  | mod, a, b =>
      let divisor := (numberOf b).toInt
      .number (if divisor ≤ 0 then 0 else Int64.ofInt ((numberOf a).toInt % divisor))
  | less, a, b => .bool (numberOf a < numberOf b)
  | atMost, a, b => .bool (numberOf a ≤ numberOf b)
  | equal, a, b => .bool (a == b)
  | range, a, b =>
      .list ((upTo (numberOf a).toInt (numberOf b).toInt).map fun n => .number (Int64.ofInt n))
  | elements, a, b =>
      let first := max (numberOf a).toInt 0
      .list ((upTo first (numberOf b).toInt).map fun n => .element (elementNear n))
  | has, a, b => .bool ((itemsOf a).contains b)
  | without, a, b => .list ((itemsOf a).filter fun item => !(itemsOf b).contains item)

/-- The value of an operator on a list of values. -/
def ListOp.apply : ListOp → List Argument → Argument
  | all, values => .bool (values.all isTrue)
  | any, values => .bool (values.any isTrue)
  | list, values => .list values
  | join, values => .text (String.join (values.map Argument.display))

namespace Expr

mutual
/-- The value of an expression. -/
def eval (env : Env) : Expr → Argument
  | literal value => value
  | arg name otherwise => (env.args.get? name).getD (otherwise.eval env)
  | var name otherwise => (env.vars.get? name).getD (otherwise.eval env)
  | it => env.it.getD (.bool false)
  | player => (env.player.map .player).getD (.bool false)
  | unary op operand => op.apply (operand.eval env)
  | binary op left right => op.apply (left.eval env) (right.eval env)
  | choice condition yes no =>
      if isTrue (condition.eval env) then yes.eval env else no.eval env
  | many op operands => op.apply (evalAll env operands)
termination_by structural e => e
/-- The values of some expressions. -/
def evalAll (env : Env) : List Expr → List Argument
  | [] => []
  | e :: rest => e.eval env :: evalAll env rest
termination_by structural es => es
end

end Expr

end Tabletop.Script
