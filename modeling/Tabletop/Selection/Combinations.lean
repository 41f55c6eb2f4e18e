import Tabletop.Saturating

/-! # Combinations

The ways to pick some items of a list without regard to order. They are listed
by the places of the items, the smallest place first, and they are counted
without listing them. The count stops at the largest number of 64 bits.
-/

namespace Tabletop

/-- The sublists with `size` items, in the lexicographic order of places. -/
def combinations {α : Type} : List α → (size : Nat) → List (List α)
  | _, 0 => [[]]
  | [], _ + 1 => []
  | x :: xs, size + 1 =>
      if xs.length < size then []
      else (combinations xs size).map (x :: ·) ++ combinations xs (size + 1)

/-- The number of ways to pick `k` of `n` items, built up factor by factor. -/
def binomial (n k : Nat) : Nat :=
  (List.range (min k (n - k))).foldl
    (fun acc i => saturatingCountMul acc (n - i) / (i + 1)) 1

/-- The sizes from `low` to `high`, both included. -/
def sizesBetween (low high : Nat) : List Nat :=
  List.range' low (high + 1 - low)

/-- The number of ways to pick from `low` to `high` of `n` items. -/
def combinationCount (n low high : Nat) : Nat :=
  (sizesBetween low (min high n)).foldl
    (fun total k => saturatingCountAdd total (binomial n k)) 0

end Tabletop
