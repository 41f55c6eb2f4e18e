import Tabletop.Json.Record

/-! # Configuration

How a game is run: the seed of its dice, the budget of steps for one stretch
of play, and what is allowed and kept.
-/

namespace Tabletop

/-- The configuration of a game. -/
structure Config where
  seed : UInt64 := 42
  /-- The most steps that one stretch of play may take. -/
  maxSteps : Nat := 100000
  /-- Moves may be forced past validation. -/
  allowForce : Bool := false
  /-- Accepted moves are kept for replay. -/
  keepHistory : Bool := true
  deriving DecidableEq, Repr, Inhabited

namespace Config

/-- The JSON of a configuration. -/
def toJson (c : Config) : Json :=
  .obj
    [("seed", .int c.seed.toNat), ("max_steps_per_play", .int c.maxSteps),
     ("allow_god_mode", .bool c.allowForce), ("record_history", .bool c.keepHistory)]

/-- Missing fields of a configuration take their defaults. -/
def ofJson (j : Json) : Reading Config := do
  let r ← Json.record ["seed", "max_steps_per_play", "allow_god_mode", "record_history"] j
  let default : Config := {}
  let seed ← r.orElse "seed" default.seed.toNat Json.asIndex
  let maxSteps ← r.orElse "max_steps_per_play" default.maxSteps Json.asIndex
  let allowForce ← r.orElse "allow_god_mode" default.allowForce Json.asBool
  let keepHistory ← r.orElse "record_history" default.keepHistory Json.asBool
  pure { seed := UInt64.ofNat seed, maxSteps, allowForce, keepHistory }

end Config

end Tabletop
