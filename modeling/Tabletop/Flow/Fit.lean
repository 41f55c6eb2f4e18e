import Tabletop.Flow.Reset
import Tabletop.Flow.Mismatch

/-! # Fitting trails

A trail from outside fits a flow if each mark belongs to the node at which the
node above stands, and if its position is one the node can be in. The first
mismatch on the way down is reported.
-/

namespace Tabletop

variable {G : Type}

/-- Whether a trail fits, or the first mismatch. -/
abbrev Fit := Except Mismatch Unit

/-- Reports a mismatch where a condition fails. -/
def Fit.unless (holds : Bool) (mismatch : Mismatch) : Fit :=
  if holds then .ok () else .error mismatch

namespace Flow

/-- A position is of the kind that belongs to a node. -/
def hasKind : FlowKind G (Flow G) → Position Trail → Bool
  | .sequence _, .sequence _ => true
  | .loop .., .loop .. => true
  | .count .., .loop .. => true
  | .each .., .each .. => true
  | .switch .., .switch .. => true
  | .action _, .action _ => true
  | .parallel .., .parallel .. => true
  | _, _ => false

/-- Checks the choice, iteration or move a position tells about, other than the
trails side by side. -/
def fitPosition (flow : Flow G) (position : Position Trail) : Fit :=
  match flow.kind, position with
  | .switch _ cases default, .switch index isDefault _ => do
      match index with
      | some index => Fit.unless (index < cases.length) (.noCase flow.label index)
      | none => pure ()
      Fit.unless (!isDefault || (index.isNone && default.isSome)) (.noDefault flow.label)
  | .each .., .each index _ collection =>
      Fit.unless (index.all fun index => index < collection.length) (.pastItems flow.label)
  | .action step, .action (.taken move) =>
      Fit.unless (step.accepts move.name) (.notOffered move.name flow.label)
  | .parallel .., .parallel players lanes completed =>
      Fit.unless (lanes.length == players.length && completed.length == players.length)
        (.laneCount flow.label)
  | _, _ => .ok ()

/-- Checks the next step at a mark against the live block. -/
def fitStep (flow : Flow G) (mark : Mark Trail) : Fit :=
  match flow.liveBlock mark with
  | none => .ok ()
  | some block => do
      Fit.unless (mark.step ≤ block.length) (.stepPastEnd flow.label)
      Fit.unless (flow.isSequence || mark.stepIndex.isSome) (.noStep flow.label)

/-- Checks the mark of a node at a depth, apart from what is below it. -/
def fitMark (flow : Flow G) (mark : Mark Trail) (depth : Nat) : Fit := do
  Fit.unless (mark.name == flow.name) (.misnamed depth mark.name flow.name)
  Fit.unless (hasKind flow.kind mark.position) (.otherKind depth mark.position.kind flow.label)
  flow.fitPosition mark.position

mutual
/-- Checks the marks of a flow from a depth on. -/
def fitFrom : (depth : Nat) → Trail → Flow G → Fit
  | _, .nil, flow => .error (.noMark flow.label)
  | depth, .cons mark below, flow => do
      flow.fitMark mark depth
      match flow.kind with
      | .parallel _ body => do
          fitLanesAt mark body
          Fit.unless below.isNil (.marksBelowLanes flow.label)
      | _ => do
          flow.fitStep mark
          match flow.next? mark with
          | some (.node child) => fitFrom (depth + 1) below child
          | _ => Fit.unless below.isNil (.marksBelow flow.label)
termination_by structural _ trail => trail
/-- Checks the trails side by side at a mark. -/
def fitLanesAt : Mark Trail → (body : Flow G) → Fit
  | ⟨_, position, _⟩, body => fitLanesIn position body
termination_by structural mark => mark
/-- Checks the trails side by side in a position. -/
def fitLanesIn : Position Trail → (body : Flow G) → Fit
  | .parallel _ lanes _, body => fitLanes lanes body
  | _, _ => .ok ()
termination_by structural position => position
/-- Checks trails of the same flow, each from its root. -/
def fitLanes : List Trail → (body : Flow G) → Fit
  | [], _ => .ok ()
  | lane :: lanes, body => do
      fitFrom 0 lane body
      fitLanes lanes body
termination_by structural lanes => lanes
end

/-- Checks a trail against a flow. -/
def fit (flow : Flow G) (trail : Trail) : Fit := fitFrom 0 trail flow

end Flow

end Tabletop
