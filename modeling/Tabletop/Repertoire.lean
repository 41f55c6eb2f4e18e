import Tabletop.Action.OpenMove

/-! # The repertoire of a game

Actions are declared once by name. What is declared is how to make the action
for a player, so its selections may depend on who is to act.
-/

namespace Tabletop

variable {G : Type}

/-- Makes an action for a player. -/
abbrev ActionMaker (G : Type) := G → Player → Checked (Action G)

/-- The declared actions by name. -/
abbrev Repertoire (G : Type) := Dict (ActionMaker G)

namespace Repertoire

/-- The repertoire with one more action, unless its name is taken. -/
def declare? (r : Repertoire G) (name : String) (make : ActionMaker G) : Option (Repertoire G) :=
  if r.contains name then none else some (r.insert name make)

/-- The action of a name, made for a player. -/
def make? (r : Repertoire G) (name : String) (g : G) (player : Player) :
    Checked (Option (Action G)) :=
  match r.get? name with
  | none => .ok none
  | some make => do
      let action ← make g player
      pure (some { action with name })

end Repertoire

end Tabletop
