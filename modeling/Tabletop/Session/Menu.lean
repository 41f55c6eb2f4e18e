import Tabletop.Flow.Stop
import Tabletop.Repertoire

/-! # Menus

A menu lists what a player can do at a stop. Actions that are not listed
directly are folded into one entry, a choice between them.
-/

namespace Tabletop

variable {G : Type}

/-- What a player can do at a stop. -/
structure Menu where
  /-- The name of the step, if it has one. -/
  step : Option String
  prompt : Option String
  moves : List OpenMove
  deriving DecidableEq

namespace Menu

/-- The name of the entry that chooses between several actions. -/
def choose : String := "__choose__"

/-- The name of the selection of that entry. -/
def chooseSelection : String := "action"

/-- The first move of a name. -/
def find? (m : Menu) (name : String) : Option OpenMove :=
  m.moves.find? fun move => move.name == name

/-- The names of the moves. -/
def names (m : Menu) : List String := m.moves.map (·.name)

/-- The JSON of a menu. -/
def toJson (m : Menu) : Json :=
  .obj <|
    Json.member? "step" (m.step.map .str) ++ Json.member? "prompt" (m.prompt.map .str) ++
      [("moves", .arr (m.moves.map OpenMove.toJson))]

/-- The entry that chooses between some actions. -/
def chooseMove (prompt : Option String) (choices : List Choice) : OpenMove where
  name := choose
  args := .empty
  offers := [{ name := chooseSelection, prompt, kind := .choices choices, skip := .never,
               confirm := none }]

/-- The entry that passes a step. -/
def passMove : OpenMove := ⟨ActionStep.pass, .empty, []⟩

end Menu

namespace StepAction

variable {φ : Type}

/-- The arguments a player sends, under the ones fixed by the step. -/
def fill (a : StepAction G φ) (args : Args) : Args := args.merge a.prefilled

end StepAction

namespace Repertoire

/-- The action of an entry of a step, with its open moves, if it can be
completed. -/
def open? {φ : Type} (r : Repertoire G) (g : G) (player : Player) (a : StepAction G φ)
    (args : Args) : Checked (Option (Action G × List OpenMove)) := do
  let action ← r.make? a.name g player
  pure <| action.bind fun action =>
    (action.openMoves g (a.fill args)).map fun moves => (action, moves)

/-- A player can complete one of some actions. -/
def anyOpen {φ : Type} (r : Repertoire G) (g : G) (player : Player) :
    List (StepAction G φ) → Checked Bool
  | [] => .ok false
  | a :: rest => do
      match ← r.open? g player a .empty with
      | some _ => pure true
      | none => r.anyOpen g player rest

end Repertoire

/-- The entries of a menu under way: the moves that are listed directly, and
the actions that are folded, each as a choice with its moves. -/
structure Menu.Entries where
  listed : List OpenMove := []
  folded : List (Choice × List OpenMove) := []

namespace Menu.Entries

/-- The moves of the entries: several folded actions make one entry, and a
single one is listed like the others. -/
def moves (e : Entries) (prompt : Option String) : List OpenMove :=
  if e.folded.length > 1 then e.listed ++ [chooseMove prompt (e.folded.map (·.1))]
  else e.listed ++ e.folded.flatMap (·.2)

end Menu.Entries

namespace Stop

/-- A player can do something at a stop. -/
def isPlayable (s : Stop G) (r : Repertoire G) (g : G) (player : Player) : Checked Bool :=
  if s.step.isOptional then .ok true else r.anyOpen g player s.step.actions

/-- One of some players can do something at a stop. -/
def anyPlayable (s : Stop G) (r : Repertoire G) (g : G) : List Player → Checked Bool
  | [] => .ok false
  | player :: rest => do
      if ← s.isPlayable r g player then pure true else s.anyPlayable r g rest

/-- The entries for some actions of a step. With a name only that action
counts, and its moves are listed directly. -/
def entries {φ : Type} (r : Repertoire G) (g : G) (player : Player) (name : Option String)
    (args : Args) : List (StepAction G φ) → Checked Menu.Entries
  | [] => .ok {}
  | a :: rest => do
      if name.any fun name => name != a.name then entries r g player name args rest
      else
        let found ← r.open? g player a args
        let later ← entries r g player name args rest
        match found with
        | none => pure later
        | some (action, moves) =>
            if name.isSome || a.expanded then pure { later with listed := moves ++ later.listed }
            else
              let choice : Choice := ⟨.text a.name, action.prompt.getD a.name⟩
              pure { later with folded := (choice, moves) :: later.folded }

/-- What a player can do at a stop, none if it is nothing. Arguments sent along
count for a named action, or where the step offers a single one. -/
def menu? (s : Stop G) (r : Repertoire G) (g : G) (player : Player) (name : Option String)
    (args : Option Args) : Checked (Option Menu) := do
  let counts := name.isSome || s.step.actions.length == 1
  let given := if counts then args.getD .empty else .empty
  let entries ← entries r g player name given s.step.actions
  let passes := s.step.isOptional && name.all fun name => name == ActionStep.pass
  let moves := entries.moves s.step.prompt ++ (if passes then [Menu.passMove] else [])
  pure <|
    if moves.isEmpty then none
    else some { step := s.flow.name, prompt := s.step.prompt, moves }

/-- The first of some stops at which a player may move. -/
def findFor [Game G] (g : G) (player : Player) : List (Stop G) → Checked (Option (Stop G))
  | [] => .ok none
  | s :: rest => do
      if (← s.eligible g).contains player then pure (some s) else findFor g player rest

end Stop

end Tabletop
