import Tabletop.Flow.Play

/-! # Stops

A stop is an action step that waits for a move. A flow may wait at several
stops at once, one for each player that is not done in nodes side by side.
Settling a stop puts the step behind the wait and enters what it runs next.
-/

namespace Tabletop

variable {G : Type}

/-- A place in a trail. -/
inductive Place where
  /-- The first mark. -/
  | here
  /-- A place in the trail below the first mark. -/
  | down (place : Place)
  /-- A place in one of the trails side by side at the first mark. -/
  | lane (index : Nat) (place : Place)
  deriving DecidableEq

namespace Place

/-- The marks at which the place turns into a trail side by side, by their
depth, and which one it is. `depth` is the depth of the first mark. -/
def hops (depth : Nat) : Place → List (Nat × Nat)
  | here => []
  | down place => place.hops (depth + 1)
  | lane index place => (depth, index) :: place.hops 0

/-- The depth of the place in the innermost of the trails around it. -/
def depth : (start : Nat) → Place → Nat
  | start, here => start
  | start, down place => place.depth (start + 1)
  | _, lane _ place => place.depth 0

end Place

namespace Trail

/-- The trail from a place on, which may be without marks. There is none if the
trails side by side on the way are not there. -/
def at? : Trail → Place → Option Trail
  | trail, .here => some trail
  | nil, .down place => nil.at? place
  | cons _ below, .down place => below.at? place
  | nil, .lane _ _ => none
  | cons mark _, .lane index place =>
      match mark.position with
      | .parallel _ lanes _ => lanes[index]?.bind fun lane => lane.at? place
      | _ => none
termination_by structural _ place => place

/-- Replaces the trail from a place on. -/
def replaceAt : Trail → Place → (new : Trail) → Trail
  | nil, _, _ => nil
  | cons _ _, .here, new => new
  | cons mark below, .down place, new => cons mark (below.replaceAt place new)
  | cons mark below, .lane index place, new =>
      match mark.position with
      | .parallel players lanes completed =>
          let lanes := lanes.modify index fun lane => lane.replaceAt place new
          cons { mark with position := .parallel players lanes completed } below
      | _ => cons mark below
termination_by structural _ place => place

end Trail

/-- An action step that waits for a move. -/
structure Stop (G : Type) where
  flow : Flow G
  step : ActionStep G (Flow G)
  place : Place
  scope : Scope

namespace Stop

/-- The same stop, seen from a place further up. -/
def within (outer : Place → Place) (s : Stop G) : Stop G := { s with place := outer s.place }

/-- The players who may move here. -/
def eligible [Game G] (s : Stop G) (g : G) : Checked (List Player) :=
  match s.step.players, s.scope.player with
  | some players, _ => players g s.scope.args
  | none, some player => .ok [player]
  | none, none => Game.currentPlayers g

/-- The trail of a flow after one of its stops is settled. -/
def settle [Game G] (s : Stop G) (g : G) (status : ActionStatus) (trail : Trail) :
    Playing Trail :=
  match trail.at? s.place with
  | none => s.flow.invalid .noLanes
  | some .nil => s.flow.invalid .noStop
  | some (.cons mark _) => do
      let mark := s.flow.atFirstStep { mark with position := .action status }
      let settled ← s.flow.enter g s.scope mark
      pure (trail.replaceAt s.place settled)

end Stop

namespace Flow

mutual
/-- The stops of a flow, in the order of the players. -/
def stops : Trail → Flow G → Scope → List (Stop G)
  | .nil, _, _ => []
  | .cons mark below, flow, scope =>
      match flow.kind with
      | .parallel _ body => markStops mark body scope
      | _ =>
          match flow.waiting? mark, flow.next? mark with
          | some step, _ => [⟨flow, step, .here, scope⟩]
          | none, some (.node child) =>
              (stops below child (scope.enter flow mark)).map (Stop.within .down)
          | none, _ => []
termination_by structural trail => trail
/-- The stops of the nodes side by side at a mark. -/
def markStops : Mark Trail → (body : Flow G) → Scope → List (Stop G)
  | ⟨_, position, _⟩, body, scope => positionStops position body scope
termination_by structural mark => mark
/-- The stops of the nodes side by side at a position. -/
def positionStops : Position Trail → (body : Flow G) → Scope → List (Stop G)
  | .parallel players lanes completed, body, scope => laneStops lanes body players completed 0 scope
  | _, _, _ => []
termination_by structural position => position
/-- The stops of trails side by side, numbered from `index` on. -/
def laneStops : List Trail → (body : Flow G) → List Player → List Bool → (index : Nat) → Scope →
    List (Stop G)
  | lane :: lanes, body, player :: players, done :: completed, index, scope =>
      let rest := laneStops lanes body players completed (index + 1) scope
      if done then rest
      else (stops lane body (scope.withPlayer player)).map (Stop.within (.lane index)) ++ rest
  | _, _, _, _, _, _ => []
termination_by structural lanes => lanes
end

end Flow

end Tabletop
