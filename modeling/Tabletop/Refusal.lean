import Tabletop.Argument

/-! # Refusals

A refusal tells a player why a move or one of its values is not accepted. It
is an answer, not an error of the game.
-/

namespace Tabletop

/-- Why something a player asks for is not accepted. -/
inductive Refusal where
  /-- A selection has no value. -/
  | missing (selection : String)
  /-- The value is none of a list. -/
  | notListed (value : Argument) (selection : String)
  /-- The value is none of the choices on the board. -/
  | notOnBoard (value : Argument) (selection : String)
  | notAList (selection : String)
  | wrongCount (least most : Nat) (selection : String)
  | repeated (selection : String)
  | notANumber (selection : String)
  | tooSmall (least : Int64) (selection : String)
  | tooLarge (most : Int64) (selection : String)
  | notText (selection : String)
  | noMatch (text : String) (selection : String)
  | notAPlace (selection : String)
  | outside (selection : String)
  /-- The author's own check objects. -/
  | custom (text : String)
  /-- The action is not offered, or not at the moment. -/
  | unavailable (action : String)
  /-- The step is not optional. -/
  | mustAct (step : String)
  deriving DecidableEq, Repr

/-- A refusal as it is told. -/
def Refusal.message : Refusal → String
  | missing selection => selection ++ " is required"
  | notListed value selection =>
      "'" ++ value.display ++ "' is not a valid choice for " ++ selection
  | notOnBoard value selection => value.display ++ " cannot be selected for " ++ selection
  | notAList selection => selection ++ " expects a list of selections"
  | wrongCount least most selection =>
      "select between " ++ toString least ++ " and " ++ toString most ++ " for " ++ selection
  | repeated selection => selection ++ " contains a duplicate selection"
  | notANumber selection => selection ++ " must be a number"
  | tooSmall least selection => selection ++ " must be at least " ++ toString least.toInt
  | tooLarge most selection => selection ++ " must be at most " ++ toString most.toInt
  | notText selection => selection ++ " must be text"
  | noMatch text selection => "'" ++ text ++ "' is not a valid " ++ selection
  | notAPlace selection => selection ++ " must be a [column, row] position"
  | outside selection => selection ++ " is outside the placement area"
  | custom text => text
  | unavailable action => action ++ " is not available"
  | mustAct step => step ++ " cannot be passed"

end Tabletop
