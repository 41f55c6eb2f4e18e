import Tabletop.Fault
import Tabletop.Player

/-! # Host games

The engine owns no game. This is the little it has to know about one.
-/

namespace Tabletop

/-- The players in the first `count` seats; there is a limit to the seats. -/
def Player.seated (count : Nat) : Checked (List Player) :=
  if count ≤ Player.maxSeats then .ok (Player.firstSeats count) else .error .tooManyPlayers

/-- A game whose turns are driven by a flow. -/
class Game (G : Type) where
  /-- The number of seated players. -/
  playerCount : G → Nat
  /-- The players who may act where nothing else names them; all of them,
  unless the game knows better. -/
  currentPlayers : G → Checked (List Player) := fun g => Player.seated (playerCount g)

end Tabletop
