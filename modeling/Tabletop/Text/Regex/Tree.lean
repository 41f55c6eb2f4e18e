import Tabletop.Text.Regex

/-! # Written regular expressions

An expression as it is written, part by part. What a part means depends on
flags that are switched in front of it; those are parts of their own, and they
hold to the end of the group they stand in.
-/

namespace Tabletop.Text.Regex

/-- What can be switched on and off. -/
inductive Flag where
  /-- Case is disregarded. -/
  | fold
  /-- Lines have starts and ends like the whole text. -/
  | lines
  /-- The point stands for line feeds, too. -/
  | anyChar
  /-- A carriage return ends a line, too. -/
  | carriage
  /-- Classes and words are those of all scripts. -/
  | unicode
  /-- Repetitions are as short as possible. Whether there is a match does not
  depend on it. -/
  | short
  /-- Blanks and comments in the expression are skipped. -/
  | spacious
  deriving DecidableEq, Repr

/-- Flags and whether they are switched on, in order. -/
abbrev Switches := List (Flag × Bool)

/-- A character as it is written. -/
structure Literal where
  char : Char
  /-- It is given as a byte, by two hexadecimal digits. -/
  isByte : Bool
  deriving DecidableEq, Repr

/-- A set with an escape of its own. -/
inductive Shorthand where
  | digit
  | word
  | blank
  deriving DecidableEq, Repr

/-- A condition on a place, as far as it does not depend on flags. -/
inductive Mark where
  /-- The start of the text or of a line. -/
  | start
  | stop
  | textStart
  | textStop
  | word (place : WordPlace)
  deriving DecidableEq, Repr

/-- How two sets are combined, besides the union. -/
inductive SetOp where
  | inter
  | diff
  | symmDiff
  deriving DecidableEq, Repr

/-- A set as it is written in brackets. -/
inductive SetTree where
  | nothing
  | literal (l : Literal)
  | range (low high : Literal)
  | shorthand (set : Shorthand) (negated : Bool)
  /-- A set of characters of one byte that goes by a name. -/
  | named (set : CharSet) (negated : Bool)
  | brackets (negated : Bool) (set : SetTree)
  | union (items : List SetTree)
  | op (op : SetOp) (a b : SetTree)

/-- An expression as it is written. -/
inductive Tree where
  | empty
  | literal (l : Literal)
  | point
  | mark (m : Mark)
  | shorthand (set : Shorthand) (negated : Bool)
  | brackets (negated : Bool) (set : SetTree)
  | switches (flags : Switches)
  | group (flags : Switches) (isKept : Bool) (inner : Tree)
  | rep (inner : Tree) (least : Nat) (most : Option Nat)
  | concat (items : List Tree)
  | choice (branches : List Tree)

/-- The most parts that may be nested in each other. -/
def maxNesting : Nat := 250

mutual
/-- How deep a set nests: brackets in brackets, unions and other operations. -/
def SetTree.depth : SetTree → Nat
  | nothing | literal _ | range _ _ | shorthand _ _ | named _ _ => 0
  | brackets _ set => set.depth + 1
  | union items => SetTree.depthOfItems items + 1
  | op _ a b => max a.depth b.depth + 1
termination_by structural set => set
/-- How deep the deepest of some sets nests. -/
def SetTree.depthOfItems : List SetTree → Nat
  | [] => 0
  | set :: rest => max set.depth (SetTree.depthOfItems rest)
termination_by structural items => items
end

mutual
/-- How deep an expression nests: groups, repetitions, brackets, sequences and
choices count. -/
def Tree.depth : Tree → Nat
  | empty | literal _ | point | mark _ | shorthand _ _ | switches _ => 0
  | brackets _ set => set.depth + 1
  | group _ _ inner => inner.depth + 1
  | rep inner _ _ => inner.depth + 1
  | concat items => Tree.depthOfItems items + 1
  | choice branches => Tree.depthOfItems branches + 1
termination_by structural tree => tree
/-- How deep the deepest of some expressions nests. -/
def Tree.depthOfItems : List Tree → Nat
  | [] => 0
  | tree :: rest => max tree.depth (Tree.depthOfItems rest)
termination_by structural items => items
end

/-- Several items count as one sequence, and a single one as itself. -/
def Tree.ofItems : List Tree → Tree
  | [] => empty
  | [item] => item
  | items => concat items

/-- Several branches count as one choice, and a single one as itself. -/
def Tree.ofBranches : List Tree → Tree
  | [branch] => branch
  | branches => choice branches

/-- Several items count as one union, and a single one as itself. -/
def SetTree.ofItems : List SetTree → SetTree
  | [] => nothing
  | [item] => item
  | items => union items

/-- Flags are no expression that could be repeated. -/
def Tree.isRepeatable : Tree → Bool
  | switches _ => false
  | _ => true

end Tabletop.Text.Regex
