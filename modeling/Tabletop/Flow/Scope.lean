import Tabletop.Flow
import Tabletop.Flow.Trail

/-! # Scopes

A scope is what a node sees from above: the arguments the flow was entered
with, the values of the named nodes around it, and the player whose turn it
is. Names further in hide the same names further out.
-/

namespace Tabletop

variable {G : Type}

/-- The arguments and the player seen by a node. -/
structure Scope where
  args : Args
  player : Option Player
  deriving DecidableEq, Inhabited

namespace Scope

/-- The scope at the root of a flow. -/
def ofArgs (args : Args) : Scope := ⟨args, none⟩

/-- The scope with a player. -/
def withPlayer (s : Scope) (player : Player) : Scope := { s with player := some player }

/-- The scope with a value under a name, if there is a name. -/
def bind (s : Scope) (name : Option String) (value : Argument) : Scope :=
  match name with
  | none => s
  | some name => { s with args := s.args.insert name value }

/-- The number of an iteration as an argument. -/
def ofIndex (index : Nat) : Argument := .number (Int64.ofNat index)

/-- The arguments of an accepted move under the name of its step. -/
def bindMove (s : Scope) (name : Option String) (move : Taken) : Scope :=
  match name with
  | none => s
  | some name =>
      let args := (s.args.insert name (.text move.name)).insert (name ++ ".player")
        (.player move.player)
      { s with
        args := move.args.entries.foldl (fun args e => args.insert (name ++ "." ++ e.1) e.2) args }

/-- The nodes below this one have the players of a collection to act. -/
def givesTurns (flow : Flow G) : Bool :=
  match flow.kind with
  | .each _ setsPlayer _ => setsPlayer
  | _ => false

/-- The scope below a node at its mark. -/
def enter (s : Scope) (flow : Flow G) (mark : Mark Trail) : Scope :=
  match mark.position with
  | .loop (some index) value => s.bind mark.name (value.getD (ofIndex index))
  | .each _ (some value) _ =>
      let inner := s.bind mark.name value
      match if givesTurns flow then value.asPlayer else none with
      | some player => inner.withPlayer player
      | none => inner
  | .switch _ _ value => s.bind mark.name value
  | .action (.taken move) =>
      (Scope.bindMove { s with args := s.args.merge move.args } mark.name move).withPlayer
        move.player
  | _ => s

@[simp] theorem enter_withStep (s : Scope) (flow : Flow G) (mark : Mark Trail) (index : Nat) :
    s.enter flow (mark.withStep index) = s.enter flow mark := by
  obtain ⟨name, position, stepIndex⟩ := mark
  cases position <;> rfl

end Scope

end Tabletop
