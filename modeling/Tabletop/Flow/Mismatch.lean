import Tabletop.Text.Quoted

/-! # Mismatches

A trail that comes from outside may not fit its flow. A mismatch says where
and why.
-/

namespace Tabletop

/-- Why a trail does not fit a flow. Nodes are given by their labels, marks by
their depths. -/
inductive Mismatch where
  | noMark (node : String)
  | misnamed (depth : Nat) (found expected : Option String)
  | otherKind (depth : Nat) (kind : String) (node : String)
  | noCase (node : String) (index : Nat)
  | noDefault (node : String)
  /-- The iteration is behind the items of the mark. -/
  | pastItems (node : String)
  | notOffered (action : String) (node : String)
  /-- There is not one trail and one flag for each player. -/
  | laneCount (node : String)
  | marksBelowLanes (node : String)
  | stepPastEnd (node : String)
  | noStep (node : String)
  | marksBelow (node : String)
  /-- A node is to be played at the position of another kind. -/
  | noPosition (kind : String)
  /-- A player is to be played without a trail. -/
  | noLane
  /-- A node is to be played without a mark. -/
  | noMarkAt (depth : Nat)
  /-- A node of one of some players side by side is to be played without a mark. The depth is
  that in the trail of the player. -/
  | noMarkInLane (depth : Nat)
  /-- The trails side by side around a step are gone. -/
  | noLanes
  /-- The mark of a step is gone. -/
  | noStop
  /-- A game is under way without a flow. -/
  | noFlow
  deriving DecidableEq, Repr

namespace Mismatch

/-- The mismatch as it is seen from the node above. -/
def deeper : Mismatch → Mismatch
  | noMarkAt depth => noMarkAt (depth + 1)
  | mismatch => mismatch

/-- The mismatch as it is seen from the node that runs players side by side. -/
def inLane : Mismatch → Mismatch
  | noMarkAt depth => noMarkInLane depth
  | mismatch => mismatch

/-- A mismatch as it is told. -/
def message : Mismatch → String
  | noMark node => "missing record for " ++ node
  | misnamed depth found expected =>
      "record " ++ toString depth ++ " is named " ++ Text.quotedOption found ++
        " but the node is named " ++ Text.quotedOption expected
  | otherKind depth kind node =>
      "record " ++ toString depth ++ " is a " ++ kind ++ " record for " ++ node
  | noCase node index => node ++ " has no case Some(" ++ toString index ++ ")"
  | noDefault node => node ++ " cannot be in its default block"
  | pastItems node => node ++ " index is past its collection"
  | notOffered action node => "'" ++ action ++ "' is not offered by " ++ node
  | laneCount node => node ++ " branch count does not match its players"
  | marksBelowLanes node => "records follow parallel node " ++ node
  | stepPastEnd node => node ++ " step index is out of range"
  | noStep node => node ++ " is missing its sequenceIndex"
  | marksBelow node => "unexpected records after " ++ node
  | noPosition kind => kind ++ " node without a " ++ kind ++ " position"
  | noLane => "missing player branch"
  | noMarkAt depth | noMarkInLane depth => "no record at depth " ++ toString depth
  | noLanes => "parallel path no longer exists"
  | noStop => "action record no longer exists"
  | noFlow => "no active flow"

end Mismatch

end Tabletop
