/-! # Saturating arithmetic

Numbers of 64 bits that stay at the nearest bound where a result does not fit.
-/

namespace Tabletop

/-- The number of 64 bits nearest to an integer. -/
def nearestInt64 (n : Int) : Int64 :=
  if n < Int64.minValue.toInt then Int64.minValue
  else if Int64.maxValue.toInt < n then Int64.maxValue
  else Int64.ofInt n

/-- The sum, kept within bounds. -/
def saturatingAdd (a b : Int64) : Int64 := nearestInt64 (a.toInt + b.toInt)

/-- The difference, kept within bounds. -/
def saturatingSub (a b : Int64) : Int64 := nearestInt64 (a.toInt - b.toInt)

/-- The product, kept within bounds. -/
def saturatingMul (a b : Int64) : Int64 := nearestInt64 (a.toInt * b.toInt)

/-- The largest count of 64 bits. -/
def maxCount64 : Nat := UInt64.size - 1

/-- The sum of two counts, kept within bounds. -/
def saturatingCountAdd (a b : Nat) : Nat := min (a + b) maxCount64

/-- The product of two counts, kept within bounds. -/
def saturatingCountMul (a b : Nat) : Nat := min (a * b) maxCount64

end Tabletop
