import Tabletop.Argument.Wire
import Tabletop.Script.Expr

/-! # Expressions as JSON

An expression is an array that starts with the name of its operator, or any
other JSON value that stands for an argument.
-/

namespace Tabletop.Script

/-- The written names of the operators on one value. -/
def unaryOps : List (String × UnaryOp) :=
  [("num", .num), ("not", .not), ("len", .length), ("el", .element), ("pl", .player)]

/-- The written names of the operators on two values. -/
def binaryOps : List (String × BinaryOp) :=
  [("+", .add), ("-", .sub), ("*", .mul), ("%", .mod), ("<", .less), ("<=", .atMost),
   ("==", .equal), ("range", .range), ("els", .elements), ("has", .has), ("without", .without)]

/-- The written names of the operators on lists. -/
def listOps : List (String × ListOp) :=
  [("and", .all), ("or", .any), ("list", .list), ("cat", .join)]

namespace Expr

/-- The expression of an operator, other than the ones that look up a name. -/
def ofOperator (op : String) (operands : List Expr) : Reading Expr :=
  match unaryOps.lookup op, binaryOps.lookup op, listOps.lookup op, operands with
  | some op, _, _, [operand] => .ok (unary op operand)
  | _, some op, _, [left, right] => .ok (binary op left right)
  | _, _, some op, operands => .ok (many op operands)
  | _, _, _, [condition, yes, no] => if op = "if" then .ok (choice condition yes no) else Json.unfit
  | _, _, _, [] =>
      if op = "it" then .ok it else if op = "player" then .ok player else Json.unfit
  | _, _, _, _ => Json.unfit

mutual
/-- An expression is read from JSON. -/
def ofJson : Json → Reading Expr
  | .arr items => ofItems items
  | j => literal <$> Argument.ofJson j
termination_by structural j => j
/-- An expression is read from its operator and what follows it. -/
def ofItems : List Json → Reading Expr
  | .str op :: operands => do
      if op = "arg" then
        let (name, otherwise) ← ofNamed operands
        pure (arg name otherwise)
      else if op = "var" then
        let (name, otherwise) ← ofNamed operands
        pure (var name otherwise)
      else ofOperator op (← ofOperands operands)
  | _ => Json.unfit
termination_by structural items => items
/-- A name and what stands for it when it has no value: false, unless another
expression follows. -/
def ofNamed : List Json → Reading (String × Expr)
  | .str name :: otherwise => do
      match ← ofOperands otherwise with
      | [] => pure (name, literal (.bool false))
      | [otherwise] => pure (name, otherwise)
      | _ => Json.unfit
  | _ => Json.unfit
termination_by structural items => items
/-- Expressions are read in order. -/
def ofOperands : List Json → Reading (List Expr)
  | [] => .ok []
  | item :: rest => do
      let e ← ofJson item
      let es ← ofOperands rest
      pure (e :: es)
termination_by structural items => items
end

end Expr

end Tabletop.Script
