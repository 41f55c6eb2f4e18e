import Tabletop.Text.Regex.Meaning
import Tabletop.Text.Regex.Parser
import Tabletop.Text.Regex.Size

/-! # Regular expressions from their source

A source has to be well-formed, nest within bounds and have a meaning. What it
means has to be small enough.
-/

namespace Tabletop.Text.Regex

/-- What is wrong with the source of a regular expression. -/
inductive Defect where
  | malformed
  | tooLarge
  deriving DecidableEq, Repr

/-- A defect as it is told. -/
def Defect.message : Defect → String
  | malformed => "regex parse error:"
  | tooLarge => "Compiled regex exceeds size limit of " ++ toString maxMemory ++ " bytes."

/-- The meaning of a source, however large. -/
def meaning? (source : String) : Option Regex := do
  let tree ← Tree.parse? source.toList
  if tree.depth ≤ maxNesting then
    let (r, _) ← tree.meaning? {}
    pure r
  else none

/-- The expression that a source writes. -/
def ofSource (source : String) : Except Defect Regex :=
  match meaning? source with
  | none => .error .malformed
  | some r => if r.isSmall then .ok r else .error .tooLarge

end Tabletop.Text.Regex
