import Tabletop.Dice
import Tabletop.Flow.Signal
import Tabletop.Game

/-! # Flows

A flow is a tree of nodes that is declared once. It says in which order the
callbacks of a game run and where it waits for a player. Where a game stands
in its flow is kept apart, in a trail.

## Implementation notes

The parts of a node are declared over a type `φ` that stands for the nodes
below it, and `Flow` ties the knot. Collections and player lists may run into
a fault, since a game may have more players than can be listed.
-/

namespace Tabletop

variable {G : Type}

/-- What a step callback sees. -/
structure Scene (G : Type) where
  game : G
  /-- The arguments of the flow and the values of the named nodes around. -/
  args : Args
  /-- The player of the node around that gives each player a turn. -/
  player : Option Player
  dice : Dice

/-- What a step callback leaves behind. -/
structure StepResult (G : Type) where
  control : Control
  game : G
  dice : Dice

/-- A callback that runs in one unit of play. -/
abbrev StepCallback (G : Type) := Scene G → Checked (StepResult G)

/-- An entry of a block: a callback or a node. -/
inductive Step (G φ : Type) where
  | call (callback : StepCallback G)
  | node (flow : φ)

/-- A case of a switch, for the values that pass its test. -/
structure Case (G φ : Type) where
  test : Argument → Bool
  block : List (Step G φ)

/-- An action that an action step offers. -/
structure StepAction (G φ : Type) where
  name : String
  /-- What runs after the action is taken. -/
  block : List (Step G φ)
  /-- Arguments fixed by the step, over whatever the player sends. -/
  prefilled : Args
  /-- The moves of the action are listed directly. -/
  expanded : Bool

/-- A step that waits for a player to take one of some actions. -/
structure ActionStep (G φ : Type) where
  players : Option (G → Args → Checked (List Player))
  prompt : Option String
  /-- The prompt for passing, if the step may be passed. -/
  passPrompt : Option String
  actions : List (StepAction G φ)

/-- What a node does. -/
inductive FlowKind (G φ : Type) where
  | sequence (block : List (Step G φ))
  /-- Runs while the condition holds, or until it is left. -/
  | loop (condition : Option (G → Args → Bool)) (body : List (Step G φ))
  /-- Runs while the value, stepped each time, passes the test. -/
  | count (initial : G → Args → Argument) (next : Argument → Argument)
      (test : Argument → Bool) (body : List (Step G φ))
  /-- Runs once for each item; the items may be the players to act. -/
  | each (collection : G → Args → Checked (List Argument)) (setsPlayer : Bool)
      (body : List (Step G φ))
  | switch (value : G → Args → Argument) (cases : List (Case G φ))
      (default : Option (List (Step G φ)))
  | action (step : ActionStep G φ)
  /-- Runs the body for some players side by side, for all if none are named. -/
  | parallel (players : Option (G → Args → Checked (List Player))) (body : φ)

/-- A node of a flow with everything below it. -/
structure Flow (G : Type) where
  name : Option String
  kind : FlowKind G (Flow G)

/-- The steps of a node, run in order. -/
abbrev Block (G : Type) := List (Step G (Flow G))

namespace ActionStep

variable {φ : Type}

/-- The name of the move that passes an optional step. -/
def pass : String := "__pass__"

/-- The step may be passed. -/
def isOptional (s : ActionStep G φ) : Bool := s.passPrompt.isSome

/-- The offered action of a name; the first one counts. -/
def find? (s : ActionStep G φ) (name : String) : Option (StepAction G φ) :=
  s.actions.find? fun a => a.name == name

/-- A move of that name ends the step. -/
def accepts (s : ActionStep G φ) (name : String) : Bool :=
  (name == pass && s.isOptional) || (s.find? name).isSome

end ActionStep

namespace Flow

/-- The node under a name. -/
def named (flow : Flow G) (name : Option String) : Flow G := { flow with name }

/-- A node without a name. -/
def ofKind (kind : FlowKind G (Flow G)) : Flow G := ⟨none, kind⟩

/-- A node that takes in interrupts. -/
def isLoop (flow : Flow G) : Bool :=
  match flow.kind with
  | .loop .. | .count .. | .each .. => true
  | _ => false

/-- How a node is called in reports. -/
def label (flow : Flow G) : String :=
  flow.name.getD <|
    match flow.kind with
    | .sequence _ => "<sequence>"
    | .loop .. | .count .. => "<loop>"
    | .each .. => "<foreach>"
    | .switch .. => "<switch>"
    | .action _ => "<action step>"
    | .parallel .. => "<parallel>"

/-- The nodes of a block. -/
def nodesOf (block : Block G) : List (Flow G) :=
  block.filterMap fun step =>
    match step with
    | .node flow => some flow
    | .call _ => none

/-- The nodes directly below a node, in the order of declaration. -/
def children (flow : Flow G) : List (Flow G) :=
  match flow.kind with
  | .sequence block | .loop _ block | .count _ _ _ block | .each _ _ block => nodesOf block
  | .switch _ cases default =>
      cases.flatMap (fun c => nodesOf c.block) ++ (default.map nodesOf).getD []
  | .action step => step.actions.flatMap fun a => nodesOf a.block
  | .parallel _ body => [body]

mutual
/-- A node and all nodes below it, each before the ones below it. -/
def nodes : Flow G → List (Flow G)
  | ⟨name, kind⟩ => ⟨name, kind⟩ :: nodesBelow kind
termination_by structural flow => flow
/-- All nodes below a node. -/
def nodesBelow : FlowKind G (Flow G) → List (Flow G)
  | .sequence block | .loop _ block | .count _ _ _ block | .each _ _ block => blockNodes block
  | .switch _ cases default => casesNodes cases ++ defaultNodes default
  | .action step => stepNodes step
  | .parallel _ body => body.nodes
termination_by structural kind => kind
/-- All nodes in a block. -/
def blockNodes : List (Step G (Flow G)) → List (Flow G)
  | [] => []
  | .call _ :: rest => blockNodes rest
  | .node flow :: rest => flow.nodes ++ blockNodes rest
termination_by structural block => block
/-- All nodes in the cases of a switch. -/
def casesNodes : List (Case G (Flow G)) → List (Flow G)
  | [] => []
  | ⟨_, block⟩ :: rest => blockNodes block ++ casesNodes rest
termination_by structural cases => cases
/-- All nodes in the default block of a switch. -/
def defaultNodes : Option (List (Step G (Flow G))) → List (Flow G)
  | none => []
  | some block => blockNodes block
termination_by structural default => default
/-- All nodes below an action step. -/
def stepNodes : ActionStep G (Flow G) → List (Flow G)
  | ⟨_, _, _, actions⟩ => actionsNodes actions
termination_by structural step => step
/-- All nodes that run after the actions of a step. -/
def actionsNodes : List (StepAction G (Flow G)) → List (Flow G)
  | [] => []
  | ⟨_, block, _, _⟩ :: rest => blockNodes block ++ actionsNodes rest
termination_by structural actions => actions
end

/-! ## Declaring flows -/

/-- Runs the steps in order. -/
def sequence (block : Block G) : Flow G := ofKind (.sequence block)

/-- Runs the body while a condition holds. -/
def whileHolds (condition : G → Args → Bool) (body : Block G) : Flow G :=
  ofKind (.loop (some condition) body)

/-- Runs the body until a step leaves it. -/
def forever (body : Block G) : Flow G := ofKind (.loop none body)

/-- Runs the body for the numbers from `first` on and below `last`. -/
def range (first last : Int64) (body : Block G) : Flow G :=
  ofKind <|
    .count (fun _ _ => .number first) (fun value => .number (value.asNumber.getD 0 + 1))
      (fun value => value.asNumber.any fun n => n < last) body

/-- Runs the body once for each item of a collection. -/
def forEach (collection : G → Args → List Argument) (body : Block G) : Flow G :=
  ofKind (.each (fun g args => .ok (collection g args)) false body)

/-- Runs the body once for each seated player, who is to act. -/
def eachPlayer [Game G] (body : Block G) : Flow G :=
  ofKind <|
    .each (fun g _ => do pure ((← Player.seated (Game.playerCount g)).map .player)) true body

/-- Splits the blocks of a switch into cases and the default, of which there
may be one. -/
def splitCases : List (Option (Argument → Bool) × Block G) →
    Checked (List (Case G (Flow G)) × Option (Block G))
  | [] => .ok ([], none)
  | (some test, block) :: rest => do
      let (cases, default) ← splitCases rest
      pure (⟨test, block⟩ :: cases, default)
  | (none, block) :: rest => do
      let (cases, default) ← splitCases rest
      match default with
      | none => pure (cases, some block)
      | some _ => .error .repeatedDefault

/-- Runs the block of the first case that the value passes. A block without a
test is the default. -/
def switch (value : G → Args → Argument)
    (blocks : List (Option (Argument → Bool) × Block G)) : Checked (Flow G) := do
  let (cases, default) ← splitCases blocks
  pure (ofKind (.switch value cases default))

/-- Runs one of two blocks. An empty second block is no block at all. -/
def ifElse (condition : G → Args → Bool) (block otherwise : Block G) : Flow G :=
  ofKind <|
    .switch (fun g args => .bool (condition g args)) [⟨fun value => value == .bool true, block⟩]
      (if otherwise.isEmpty then none else some otherwise)

/-- Waits for a player to act. -/
def act (step : ActionStep G (Flow G)) : Flow G := ofKind (.action step)

/-- Runs the body side by side, for the given players or for all. -/
def everyPlayer (players : Option (G → Args → Checked (List Player))) (body : Block G) : Flow G :=
  ofKind (.parallel players (sequence body))

end Flow

end Tabletop
