/-! # Players and elements

Both are handles that the engine hands around and compares. What a seat or an
element of the board means is the host game's business.
-/

namespace Tabletop

/-- A player, known by the seat, counted from zero. -/
structure Player where
  seat : UInt8
  deriving DecidableEq, Repr, Inhabited

/-- An element of the board, known by its number. -/
structure Element where
  id : UInt32
  deriving DecidableEq, Repr, Inhabited

namespace Player

/-- How a player is called in texts. -/
def display (p : Player) : String := "Player " ++ toString p.seat.toNat

/-- The most players that can be seated. -/
def maxSeats : Nat := 255

/-- The players in the first `count` seats, in seat order. -/
def firstSeats (count : Nat) : List Player :=
  (List.range count).map fun seat => ⟨UInt8.ofNat seat⟩

/-- All players there may be, in seat order. -/
def all : List Player := firstSeats 256

end Player

/-- How an element is called in texts. -/
def Element.display (e : Element) : String := "#" ++ toString e.id.toNat

end Tabletop
