import Tabletop.Game
import Tabletop.Script.ExprJson

/-! # Described games

The state of a described game is a set of variables and a log of what
happened. Who may act is a matter of an expression, if there is one.
-/

namespace Tabletop.Script

/-- A described game. -/
structure Host where
  players : Nat
  vars : Args
  /-- The lines of the log that have not been shown yet, the last one first. -/
  log : List String
  current : Option Expr

namespace Host

/-- A game without variables, in which nothing has happened. -/
def fresh (players : Nat) : Host := { players, vars := .empty, log := [], current := none }

/-- What an expression sees of a game. -/
def env (h : Host) (args : Args) (player : Option Player) : Env :=
  { vars := h.vars, args, player }

/-- The value of an expression in a game. -/
def eval (h : Host) (args : Args) (player : Option Player) (e : Expr) : Argument :=
  e.eval (h.env args player)

/-- The game with another value for a variable. -/
def set (h : Host) (name : String) (value : Argument) : Host :=
  { h with vars := h.vars.insert name value }

/-- The game with one more line in its log. -/
def write (h : Host) (line : String) : Host := { h with log := line :: h.log }

/-- A game is read from its parts, all of which may be missing. -/
def ofJson (j : Json) : Reading Host := do
  let players ← (j.get? "players").elim (.ok 2) Json.asIndex
  let vars ← (j.get? "vars").elim (.ok .empty) Args.ofJson
  let current ← (j.get? "current").elim (.ok none) (Json.nullable Expr.ofJson)
  pure { players, vars, log := [], current }

end Host

instance : Game Host where
  playerCount h := h.players
  currentPlayers h :=
    match h.current with
    | none => Player.seated h.players
    | some e => .ok (playersOf (h.eval .empty none e))

end Tabletop.Script
