import Tabletop.Move

/-! # Trails

A trail says where a flow stands: it lists one mark for each active node, from
the root down to the innermost one. A mark holds the position of its node, and
everything the node has worked out on the way there.

Trails also come from outside, so a mark may hold any position, whether it
fits a node or not.

## Implementation notes

A position that runs side by side holds a trail for each player. `Position`
and `Mark` are declared over a type `τ` that stands for these trails, and
`Trail` ties the knot.
-/

namespace Tabletop

/-- The move that ended an action step. -/
structure Taken where
  player : Player
  name : String
  args : Args
  deriving DecidableEq

/-- How far an action step is. -/
inductive ActionStatus where
  | awaiting
  /-- Nobody had anything to play. -/
  | skipped
  | taken (move : Taken)
  deriving DecidableEq

/-- Where a node stands, by the kind of the node. -/
inductive Position (τ : Type) where
  | sequence (index : Nat)
  /-- The iteration, none after the last one, and the value of a counting
  loop. -/
  | loop (index : Option Nat) (value : Option Argument)
  /-- The iteration, its item, and all items as they were at the start. -/
  | each (index : Option Nat) (value : Option Argument) (collection : List Argument)
  /-- The case that was chosen, or that it is the default, and for what
  value. -/
  | switch (index : Option Nat) (isDefault : Bool) (value : Argument)
  | action (status : ActionStatus)
  /-- The players, the trail of each, and who is done. -/
  | parallel (players : List Player) (lanes : List τ) (completed : List Bool)
  deriving DecidableEq

/-- The entry of one node in a trail. -/
structure Mark (τ : Type) where
  name : Option String
  position : Position τ
  /-- The next step in the block the node is running, for nodes other than
  sequences. -/
  stepIndex : Option Nat
  deriving DecidableEq

/-- The active nodes from the root down. -/
inductive Trail where
  | nil
  | cons (mark : Mark Trail) (below : Trail)
  deriving Inhabited

/-- How the kind of a position is called. -/
def Position.kind {τ : Type} : Position τ → String
  | sequence _ => "sequence"
  | loop .. => "loop"
  | each .. => "foreach"
  | switch .. => "switch-case"
  | action _ => "action"
  | parallel .. => "parallel"

namespace Mark

variable {τ : Type}

/-- The step that is next in the running block. -/
def step (m : Mark τ) : Nat :=
  match m.position with
  | .sequence index => index
  | _ => m.stepIndex.getD 0

/-- The mark with another step next. -/
def withStep (m : Mark τ) (index : Nat) : Mark τ :=
  match m.position with
  | .sequence _ => { m with position := .sequence index }
  | _ => { m with stepIndex := some index }

@[simp] theorem name_withStep (m : Mark τ) (index : Nat) : (m.withStep index).name = m.name := by
  unfold withStep
  split <;> rfl

@[simp] theorem step_withStep (m : Mark τ) (index : Nat) : (m.withStep index).step = index := by
  unfold withStep
  split
  · rfl
  · rename_i other
    unfold step
    split
    · rename_i h
      exact absurd h (other _)
    · rfl

@[simp] theorem withStep_withStep (m : Mark τ) (index index' : Nat) :
    (m.withStep index).withStep index' = m.withStep index' := by
  obtain ⟨name, position, stepIndex⟩ := m
  cases position <;> rfl

end Mark

namespace Trail

/-- The marks from the root down. -/
def toList : Trail → List (Mark Trail)
  | nil => []
  | cons mark below => mark :: below.toList

/-- The trail of some marks. -/
def ofList : List (Mark Trail) → Trail
  | [] => nil
  | mark :: below => cons mark (ofList below)

/-- Induction over the marks of a trail, and over the trails side by side at
each of them. -/
@[elab_as_elim]
theorem induction {P : Trail → Prop} (nil : P .nil)
    (cons : ∀ (mark : Mark Trail) (below : Trail), P below →
      (∀ players lanes completed, mark.position = .parallel players lanes completed →
        ∀ lane ∈ lanes, P lane) →
      P (.cons mark below))
    (trail : Trail) : P trail := by
  induction trail using Trail.rec (motive_2 := fun mark => ∀ players lanes completed,
      mark.position = .parallel players lanes completed → ∀ lane ∈ lanes, P lane)
    (motive_3 := fun position => ∀ players lanes completed,
      position = .parallel players lanes completed → ∀ lane ∈ lanes, P lane)
    (motive_4 := fun lanes => ∀ lane ∈ lanes, P lane) with
  | nil => exact nil
  | cons mark below lanes_hold below_holds => exact cons mark below below_holds lanes_hold
  | _ => simp_all

@[simp] theorem ofList_toList (t : Trail) : ofList t.toList = t := by
  induction t using Trail.induction with
  | nil => rfl
  | cons mark below ih _ => simp [toList, ofList, ih]

@[simp] theorem toList_ofList (marks : List (Mark Trail)) : (ofList marks).toList = marks := by
  induction marks with
  | nil => rfl
  | cons mark below ih => simp [ofList, toList, ih]

/-- A trail without marks. -/
def isNil : Trail → Bool
  | nil => true
  | cons .. => false

end Trail

end Tabletop
