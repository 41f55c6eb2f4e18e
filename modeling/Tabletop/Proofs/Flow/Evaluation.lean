import Tabletop.Flow.Play

/-! # Structured evaluation

What a flow without waits means, told without trails. A block runs its steps in
order, a loop runs its body round after round, and a switch runs one of its
blocks. An interrupt ends the blocks and nodes up to the nearest loop.

There are no rules for action steps, for nodes side by side and for callbacks
that ask for a subflow: the evaluation of a flow that meets one of them has no
end.

## Implementation notes

A loop is not evaluated through positions. A round is what the body gets to see
of the loop, with what is needed for the round after it: the items that are left
stand in the round itself, and a counting loop has no number.
-/

namespace Tabletop

variable {G : Type}

/-- How the evaluation of a flow or of a block ends. -/
inductive Ending where
  | done
  | interrupt (i : Interrupt)
  deriving DecidableEq

/-- The signal that tells the ending of a node. -/
def Ending.signal : Ending → Signal
  | done => .complete
  | interrupt i => .interrupt i

/-- One round of a loop, by what the loop shows in it. -/
inductive Round where
  /-- A conditional loop shows how many rounds there were before. -/
  | number (index : Nat)
  /-- A counting loop shows its value. -/
  | value (value : Argument)
  /-- A loop over a collection shows an item; the later ones are left. -/
  | item (item : Argument) (later : List Argument)

namespace Round

/-- The round for the first of some items. -/
def ofItems : List Argument → Option Round
  | [] => none
  | first :: later => some (.item first later)

/-- What the body sees in a round. A loop that gives turns has the player in
the item act. -/
def scope (round : Round) (loop : Flow G) (outer : Scope) : Scope :=
  match round with
  | number index => outer.bind loop.name (.number (Int64.ofNat index))
  | value shown => outer.bind loop.name shown
  | item shown _ =>
      match loop.kind, shown with
      | .each _ true _, .player player => (outer.bind loop.name shown).withPlayer player
      | _, _ => outer.bind loop.name shown

end Round

namespace FlowKind

/-- The body of a loop. -/
def loopBody : FlowKind G (Flow G) → Block G
  | .loop _ body | .count _ _ _ body | .each _ _ body => body
  | _ => []

/-- A loop is entered for its first round, or for none. -/
inductive FirstRound (g : G) (args : Args) : FlowKind G (Flow G) → Option Round → Prop
  | forever {body} : FirstRound g args (.loop none body) (some (.number 0))
  | holds {condition body} (h : condition g args = true) :
      FirstRound g args (.loop (some condition) body) (some (.number 0))
  | fails {condition body} (h : condition g args = false) :
      FirstRound g args (.loop (some condition) body) none
  | count {initial next test body} :
      FirstRound g args (.count initial next test body)
        (if test (initial g args) then some (.value (initial g args)) else none)
  | each {collection setsPlayer body items} (h : collection g args = .ok items) :
      FirstRound g args (.each collection setsPlayer body) (Round.ofItems items)

/-- The round after a round, for the game as the round leaves it. -/
def nextRound (g : G) (args : Args) : FlowKind G (Flow G) → Round → Option Round
  | .loop none _, .number index => some (.number (index + 1))
  | .loop (some condition) _, .number index =>
      if condition g args then some (.number (index + 1)) else none
  | .count _ next test _, .value value =>
      if test (next value) then some (.value (next value)) else none
  | .each .., .item _ later => Round.ofItems later
  | _, _ => none

/-- The block that a switch runs for a value: the one of the first case that
the value passes, else the default, and no step at all without a default. -/
def chosenBlock (cases : List (Case G (Flow G))) (default : Option (Block G))
    (value : Argument) : Block G :=
  match cases.find? fun c => c.test value with
  | some c => c.block
  | none => default.getD []

end FlowKind

/-- What is evaluated: a flow, what is left of a block, or what is left of a
loop from a round on. -/
inductive Task (G : Type) where
  | flow (flow : Flow G)
  | block (steps : Block G)
  | rounds (loop : Flow G) (round : Option Round)

/-- The evaluation of a task in a scope, from a game and dice on: the callbacks
it runs, how it ends, and the game and the dice it leaves behind. -/
inductive Evaluates :
    Task G → Scope → G → Dice → List (CallbackRun G) → Ending → G → Dice → Prop
  | sequence {name block scope g d runs ending g' d'}
      (block_ends : Evaluates (.block block) scope g d runs ending g' d') :
      Evaluates (.flow ⟨name, .sequence block⟩) scope g d runs ending g' d'
  | switch {name value cases default scope g d runs ending g' d'}
      (block_ends : Evaluates (.block (FlowKind.chosenBlock cases default (value g scope.args)))
        (scope.bind name (value g scope.args)) g d runs ending g' d') :
      Evaluates (.flow ⟨name, .switch value cases default⟩) scope g d runs ending g' d'
  | loop {loop round scope g d runs ending g' d'}
      (first : FlowKind.FirstRound g scope.args loop.kind round)
      (rounds_end : Evaluates (.rounds loop round) scope g d runs ending g' d') :
      Evaluates (.flow loop) scope g d runs ending g' d'
  /-- There is no round left. -/
  | ended {loop scope g d} : Evaluates (.rounds loop none) scope g d [] .done g d
  /-- A round that is done, or cut short, is followed by the next one. -/
  | next {loop round scope g d runs ending g' d' runs' ending' g'' d''}
      (round_ends : Evaluates (.block loop.kind.loopBody) (round.scope loop scope) g d runs ending
        g' d')
      (goes_on : ending = .done ∨ ending = .interrupt .skipOn)
      (rounds_end : Evaluates (.rounds loop (loop.kind.nextRound g' scope.args round)) scope g' d'
        runs' ending' g'' d'') :
      Evaluates (.rounds loop (some round)) scope g d (runs ++ runs') ending' g'' d''
  /-- A round that is repeated starts again as it is. -/
  | again {loop round scope g d runs g' d' runs' ending' g'' d''}
      (round_ends : Evaluates (.block loop.kind.loopBody) (round.scope loop scope) g d runs
        (.interrupt .again) g' d')
      (rounds_end : Evaluates (.rounds loop (some round)) scope g' d' runs' ending' g'' d'') :
      Evaluates (.rounds loop (some round)) scope g d (runs ++ runs') ending' g'' d''
  | leave {loop round scope g d runs g' d'}
      (round_ends : Evaluates (.block loop.kind.loopBody) (round.scope loop scope) g d runs
        (.interrupt .leave) g' d') :
      Evaluates (.rounds loop (some round)) scope g d runs .done g' d'
  /-- There is no step left. -/
  | nil {scope g d} : Evaluates (.block []) scope g d [] .done g d
  | call {callback rest scope g d g' d' runs ending g'' d''}
      (proceeds : callback (scope.scene g d) = .ok ⟨.proceed, g', d'⟩)
      (rest_ends : Evaluates (.block rest) scope g' d' runs ending g'' d'') :
      Evaluates (.block (.call callback :: rest)) scope g d
        (⟨callback, scope.scene g d⟩ :: runs) ending g'' d''
  | callInterrupt {callback rest scope g d i g' d'}
      (interrupts : callback (scope.scene g d) = .ok ⟨.interrupt i, g', d'⟩) :
      Evaluates (.block (.call callback :: rest)) scope g d [⟨callback, scope.scene g d⟩]
        (.interrupt i) g' d'
  | node {flow rest scope g d runs g' d' runs' ending g'' d''}
      (node_ends : Evaluates (.flow flow) scope g d runs .done g' d')
      (rest_ends : Evaluates (.block rest) scope g' d' runs' ending g'' d'') :
      Evaluates (.block (.node flow :: rest)) scope g d (runs ++ runs') ending g'' d''
  | nodeInterrupt {flow rest scope g d runs i g' d'}
      (node_ends : Evaluates (.flow flow) scope g d runs (.interrupt i) g' d') :
      Evaluates (.block (.node flow :: rest)) scope g d runs (.interrupt i) g' d'

end Tabletop
