/-! # The range of JSON numbers

A number of any length may be written, but one whose magnitude rounds to
infinity as a double has no value. The leading digits that fit into 64 bits
are rounded to a double, the digits after them only move the decimal point,
and the product with the power of ten is rounded once more. All of it is
computed on natural numbers.
-/

namespace Tabletop.Json

/-- The nearest number with 53 significant bits, ties to the even one. -/
def roundToDouble (n : Nat) : Nat :=
  let excess := n.log2 - 52
  let unit := 1 <<< excess
  let quotient := n / unit
  let remainder := n % unit
  if 2 * remainder > unit ∨ (2 * remainder = unit ∧ quotient % 2 = 1) then
    (quotient + 1) * unit
  else
    quotient * unit

/-- A finite magnitude rounds below `2 ^ 1024`. -/
def isFiniteMagnitude (n : Nat) : Bool :=
  n < (1 <<< 1024) - (1 <<< 970)

/-- The digits that fit into 64 bits, and the number of digits left over. -/
def leadingDigits : (value : Nat) → List Nat → Nat × Nat
  | value, [] => (value, 0)
  | value, d :: rest =>
      if 10 * value + d < UInt64.size then leadingDigits (10 * value + d) rest
      else (value, rest.length + 1)

/-- A decimal number has a value when it does not round to infinity. -/
def isFiniteDecimal (whole fraction : List Nat) (exponent : Int) : Bool :=
  let (high, dropped) := leadingDigits 0 whole
  let (significand, ignored) := leadingDigits high fraction
  let point : Int := dropped - (fraction.length - ignored : Nat)
  let power := point + exponent
  if significand = 0 ∨ power < 0 then true
  else if 308 < power then false
  else isFiniteMagnitude (roundToDouble significand * roundToDouble (Nat.pow 10 power.toNat))

end Tabletop.Json
