import Tabletop.Fault
import Tabletop.Flow.Mismatch
import Tabletop.Json.Record
import Tabletop.Refusal

/-! # Errors of play

An operation on a game may end without a result. What a player does wrong is
answered by a refusal and is not among these errors.
-/

namespace Tabletop

/-- Why an operation on a game ends without a result. -/
inductive PlayError where
  | duplicateName (name : String)
  | duplicateAction (name : String)
  | unknownFlow (name : String)
  | unknownAction (step action : String)
  | notStarted
  | alreadyStarted
  | finished
  | notAwaiting
  | ineligible (player : Player)
  /-- An interrupt passed the root of a flow. -/
  | unhandled (interrupt : String) (flow : String)
  | invalidTrail (flow : String) (mismatch : Mismatch)
  | stepLimit (limit : Nat)
  | forceDisabled
  | replayRejected (index : Nat) (refusal : Refusal)
  /-- A text could not be read. -/
  | unreadable (reason : ReadError)
  /-- The author of the game made a mistake. -/
  | fault (fault : Fault)
  deriving DecidableEq, Repr

/-- An error as it is told; an unreadable text may have nothing to tell. -/
def PlayError.message : PlayError → Option String
  | duplicateName name => some ("duplicate flow name '" ++ name ++ "'")
  | duplicateAction name => some ("duplicate action '" ++ name ++ "'")
  | unknownFlow name => some ("unknown flow '" ++ name ++ "'")
  | unknownAction step action =>
      some ("step '" ++ step ++ "' offers undeclared action '" ++ action ++ "'")
  | notStarted => some "game has not started"
  | alreadyStarted => some "game has already started"
  | finished => some "game is finished"
  | notAwaiting => some "no step is awaiting a move"
  | ineligible player => some (player.display ++ " may not act at this point")
  | unhandled interrupt flow =>
      some
        (interrupt ++ " signal reached the root of flow '" ++ flow ++
          "' without an enclosing loop")
  | invalidTrail flow mismatch =>
      some ("branch does not match flow '" ++ flow ++ "': " ++ mismatch.message)
  | stepLimit limit => some ("flow did not settle within " ++ toString limit ++ " steps")
  | forceDisabled => some "administrative moves are disabled"
  | replayRejected index refusal =>
      some ("replayed move " ++ toString index ++ " was rejected: " ++ refusal.message)
  | unreadable reason => reason.message
  | fault f => some f.message

/-- The error with another mismatch, if it is that of a trail. -/
def PlayError.mapMismatch (f : Mismatch → Mismatch) : PlayError → PlayError
  | invalidTrail flow mismatch => invalidTrail flow (f mismatch)
  | e => e

/-- A result of an operation on a game. -/
abbrev Playing (α : Type) := Except PlayError α

/-- A result that may run into a fault, as a result of play. -/
def Playing.ofChecked {α : Type} (result : Checked α) : Playing α := result.mapError .fault

@[simp] theorem Playing.ofChecked_ok {α : Type} (a : α) : ofChecked (.ok a) = .ok a := rfl

@[simp] theorem Playing.ofChecked_error {α : Type} (fault : Fault) :
    ofChecked (.error fault : Checked α) = .error (.fault fault) := rfl

theorem Playing.ofChecked_eq_ok {α : Type} {result : Checked α} {a : α} :
    ofChecked result = .ok a ↔ result = .ok a := by
  cases result <;> simp

theorem Playing.map_eq_ok {α β : Type} {result : Playing α} {f : α → β} {b : β} :
    result.map f = .ok b ↔ ∃ a, result = .ok a ∧ f a = b := by
  cases result <;> simp [Except.map]

/-- The result with another mismatch, if it is the error that a trail has one. -/
def Playing.mapMismatch {α : Type} (f : Mismatch → Mismatch) (result : Playing α) : Playing α :=
  result.mapError (.mapMismatch f)

@[simp] theorem Playing.mapMismatch_ok {α : Type} (f : Mismatch → Mismatch) (a : α) :
    mapMismatch f (.ok a) = .ok a := rfl

theorem Playing.mapMismatch_eq_ok {α : Type} {f : Mismatch → Mismatch} {result : Playing α}
    {a : α} : result.mapMismatch f = .ok a ↔ result = .ok a := by
  cases result with
  | error e => exact ⟨nofun, nofun⟩
  | ok a' => exact Iff.rfl

instance : MonadLift (Except Fault) (Except PlayError) where
  monadLift := Playing.ofChecked

end Tabletop
