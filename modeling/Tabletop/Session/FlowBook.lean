import Tabletop.PlayError
import Tabletop.Session.FollowUps

/-! # The flows of a game

A flow book holds the main flow of a game and its subflows by name. Together
with the follow-ups under way it tells the flow behind an identity.
-/

namespace Tabletop

variable {G : Type}

/-- The declared flows of a game. -/
structure FlowBook (G : Type) where
  main : Flow G
  subflows : Dict (Flow G)

namespace FlowBook

/-- The book with a main flow alone. -/
def ofMain (main : Flow G) : FlowBook G := ⟨main, .empty⟩

/-- The book with one more subflow, unless its name is taken. -/
def declare (b : FlowBook G) (name : String) (flow : Flow G) : Playing (FlowBook G) :=
  if name = FlowId.mainName ∨ b.subflows.contains name then .error (.duplicateName name)
  else .ok { b with subflows := b.subflows.insert name flow }

/-- The declared flows by name, the main flow first. -/
def declared (b : FlowBook G) : List (String × Flow G) :=
  (FlowId.mainName, b.main) :: b.subflows.entries

/-- The flow of an identity, if there is one at the moment. -/
def get? (b : FlowBook G) (followUps : FollowUps) : FlowId → Option (Flow G)
  | .main => some b.main
  | .subflow name => b.subflows.get? name
  | .followUp id _ => (followUps.get? id).map fun f => f.flow id

/-- The flow of an identity. -/
def get (b : FlowBook G) (followUps : FollowUps) (id : FlowId) : Playing (Flow G) :=
  match b.get? followUps id with
  | some flow => .ok flow
  | none => .error (.unknownFlow id.display)

theorem get_eq_ok {b : FlowBook G} {followUps : FollowUps} {id : FlowId} {flow : Flow G} :
    b.get followUps id = .ok flow ↔ b.get? followUps id = some flow := by
  unfold get
  cases b.get? followUps id <;> simp

end FlowBook

end Tabletop
