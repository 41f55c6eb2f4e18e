import Tabletop.Config
import Tabletop.Repertoire
import Tabletop.Session.FlowBook

/-! # The rules of a game

The rules are what is declared once: the flows, the actions and the
configuration. They are checked as a whole before anything is played: names
are used once, and every action on offer is declared.
-/

namespace Tabletop

variable {G : Type}

/-- Everything that is declared about a game. -/
structure Rules (G : Type) where
  flows : FlowBook G
  repertoire : Repertoire G
  config : Config

namespace Rules

/-- The first action of a node that is not declared. -/
def undeclared? (repertoire : Repertoire G) (flow : Flow G) : Option String :=
  match flow.kind with
  | .action step => (step.actions.find? fun a => !repertoire.contains a.name).map (·.name)
  | _ => none

/-- Checks nodes in order, given the names in use. -/
def checkNodes (repertoire : Repertoire G) : (used : List String) → List (Flow G) → Playing Unit
  | _, [] => .ok ()
  | used, node :: rest =>
      if node.name.any used.contains then .error (.duplicateName (node.name.getD ""))
      else
        match undeclared? repertoire node with
        | some action => .error (.unknownAction node.label action)
        | none => checkNodes repertoire (node.name.toList ++ used) rest

/-- Checks a flow with all its nodes. -/
def checkFlow (repertoire : Repertoire G) (flow : Flow G) : Playing Unit :=
  checkNodes repertoire [] flow.nodes

/-- Adds subflows to a book in order. -/
def declareFlows : List (String × Flow G) → FlowBook G → Playing (FlowBook G)
  | [], book => .ok book
  | (name, flow) :: rest, book => do declareFlows rest (← book.declare name flow)

/-- Adds actions to a repertoire in order. -/
def declareActions : List (String × ActionMaker G) → Repertoire G → Playing (Repertoire G)
  | [], repertoire => .ok repertoire
  | (name, make) :: rest, repertoire =>
      match repertoire.declare? name make with
      | some repertoire => declareActions rest repertoire
      | none => .error (.duplicateAction name)

/-- The rules made of some declarations, or the first mistake in them. -/
def declare (main : Flow G) (subflows : List (String × Flow G))
    (actions : List (String × ActionMaker G)) (config : Config) : Playing (Rules G) := do
  let flows ← declareFlows subflows (.ofMain main)
  let repertoire ← declareActions actions .empty
  flows.declared.forM fun entry => checkFlow repertoire entry.2
  pure { flows, repertoire, config }

end Rules

end Tabletop
