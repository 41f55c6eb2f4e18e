import Tabletop.Flow.Scope

/-! # Entering flows

Entering a node puts a fresh mark for it on the trail: conditions are tested,
and values and collections are worked out and kept in the mark. When the node
then stands at a node below it, that one is entered as well, and so on down.

Main statement: `reset_eq` says this in one equation. The position is worked
out, and the node is entered at it.
-/

namespace Tabletop

variable {G : Type}

namespace Flow

/-- The block a node is running at its mark. -/
def liveBlock (flow : Flow G) (mark : Mark Trail) : Option (Block G) :=
  match flow.kind, mark.position with
  | .sequence block, .sequence _ => some block
  | .loop _ body, .loop index _ => index.map fun _ => body
  | .count _ _ _ body, .loop index _ => index.map fun _ => body
  | .each _ _ body, .each index _ _ => index.map fun _ => body
  | .switch _ cases _, .switch (some index) _ _ => cases[index]?.map (·.block)
  | .switch _ _ default, .switch none true _ => default
  | .action step, .action (.taken move) =>
      ((step.find? move.name).map (·.block)).filter fun block => !block.isEmpty
  | _, _ => none

/-- The step a node runs next at its mark. -/
def next? (flow : Flow G) (mark : Mark Trail) : Option (Step G (Flow G)) :=
  (flow.liveBlock mark).bind fun block => block[mark.step]?

@[simp] theorem liveBlock_withStep (flow : Flow G) (mark : Mark Trail) (index : Nat) :
    flow.liveBlock (mark.withStep index) = flow.liveBlock mark := by
  obtain ⟨name, position, stepIndex⟩ := mark
  obtain ⟨flowName, kind⟩ := flow
  cases position <;> cases kind <;> rfl

theorem next?_eq {flow : Flow G} {mark : Mark Trail} {block : Block G}
    (h : flow.liveBlock mark = some block) : flow.next? mark = block[mark.step]? := by
  simp [next?, h]

/-- The step a node runs next is the first one of the steps that are left. -/
theorem next?_of_drop {flow : Flow G} {mark : Mark Trail} {block rest : Block G}
    {step : Step G (Flow G)} {index : Nat} (h : flow.liveBlock mark = some block)
    (left : block.drop index = step :: rest) :
    flow.next? (mark.withStep index) = some step := by
  rw [next?_eq (by simpa using h), Mark.step_withStep, ← List.head?_drop, left]
  rfl

/-- A sequence tells its next step by its position alone. -/
def isSequence (flow : Flow G) : Bool :=
  match flow.kind with
  | .sequence _ => true
  | _ => false

/-- The mark that points at the first step of the live block, if there is
one. -/
def atFirstStep (flow : Flow G) (mark : Mark Trail) : Mark Trail :=
  { mark with stepIndex := (flow.liveBlock mark).map fun _ => 0 }

theorem atFirstStep_of_some {flow : Flow G} {mark : Mark Trail} {block : Block G}
    (hs : flow.isSequence = false) (hb : flow.liveBlock mark = some block) :
    flow.atFirstStep mark = mark.withStep 0 := by
  obtain ⟨name, position, stepIndex⟩ := mark
  obtain ⟨flowName, kind⟩ := flow
  cases position with
  | sequence index => cases kind <;> simp_all [liveBlock, isSequence]
  | _ => simp [atFirstStep, hb, Mark.withStep]

theorem atFirstStep_of_none {flow : Flow G} {mark : Mark Trail} (hb : flow.liveBlock mark = none) :
    flow.atFirstStep mark = { mark with stepIndex := none } := by
  simp [atFirstStep, hb]

/-- The mark of a node that is entered at a position. -/
def freshMark (flow : Flow G) (position : Position Trail) : Mark Trail :=
  let mark : Mark Trail := ⟨flow.name, position, none⟩
  if flow.isSequence then mark else flow.atFirstStep mark

theorem isSequence_of_isLoop {flow : Flow G} (h : flow.isLoop) : flow.isSequence = false := by
  obtain ⟨name, kind⟩ := flow
  cases kind <;> simp_all [isLoop, isSequence]

@[simp] theorem position_freshMark (flow : Flow G) (position : Position Trail) :
    (flow.freshMark position).position = position := by
  unfold freshMark
  split <;> rfl

@[simp] theorem name_freshMark (flow : Flow G) (position : Position Trail) :
    (flow.freshMark position).name = flow.name := by
  unfold freshMark
  split <;> rfl

/-- The position in which a loop starts. -/
def startLoop (condition : Option (G → Args → Bool)) (g : G) (args : Args) : Position Trail :=
  .loop (if condition.all fun holds => holds g args then some 0 else none) none

/-- The position in which a counting loop starts. -/
def startCount (test : Argument → Bool) (value : Argument) : Position Trail :=
  if test value then .loop (some 0) (some value) else .loop none none

/-- The position in which a loop over a collection starts. -/
def startEach (collection : List Argument) : Position Trail :=
  .each (collection.head?.map fun _ => 0) collection.head? collection

/-- The position in which a switch on a value stays. -/
def startSwitch (cases : List (Case G (Flow G))) (default : Option (Block G))
    (value : Argument) : Position Trail :=
  let index := cases.findIdx? fun c => c.test value
  .switch index (index.isNone && default.isSome) value

/-- The players of a parallel node. -/
def seats [Game G] (players : Option (G → Args → Checked (List Player))) (g : G) (args : Args) :
    Checked (List Player) :=
  match players with
  | some players => players g args
  | none => Player.seated (Game.playerCount g)

mutual
/-- The trail of a node that is entered in a scope. -/
def reset [Game G] (g : G) : Flow G → Scope → Checked Trail
  | ⟨name, kind⟩, scope => do
      let position ← start g kind scope
      let mark := freshMark ⟨name, kind⟩ position
      let below ← resetBelow g kind mark.position (scope.enter ⟨name, kind⟩ mark)
      pure (.cons mark below)
termination_by structural flow => flow
/-- The position in which a node starts. -/
def start [Game G] (g : G) : FlowKind G (Flow G) → Scope → Checked (Position Trail)
  | .sequence _, _ => .ok (.sequence 0)
  | .loop condition _, scope => .ok (startLoop condition g scope.args)
  | .count initial _ test _, scope => .ok (startCount test (initial g scope.args))
  | .each collection _ _, scope => do pure (startEach (← collection g scope.args))
  | .switch value cases default, scope =>
      .ok (startSwitch cases default (value g scope.args))
  | .action _, _ => .ok (.action .awaiting)
  | .parallel players body, scope => do
      let players ← seats players g scope.args
      let lanes ← players.mapM fun player => body.reset g (scope.withPlayer player)
      pure (.parallel players lanes (players.map fun _ => false))
termination_by structural kind => kind
/-- The trail below a node that has been put in its starting position. -/
def resetBelow [Game G] (g : G) : FlowKind G (Flow G) → Position Trail → Scope → Checked Trail
  | .sequence block, .sequence _, scope => resetHead g block scope
  | .loop _ body, .loop (some _) _, scope => resetHead g body scope
  | .count _ _ _ body, .loop (some _) _, scope => resetHead g body scope
  | .each _ _ body, .each (some _) _ _, scope => resetHead g body scope
  | .switch _ cases _, .switch (some index) _ _, scope => resetCase g cases index scope
  | .switch _ _ default, .switch none true _, scope => resetDefault g default scope
  | _, _, _ => .ok .nil
termination_by structural kind => kind
/-- The trail of the first step of a block. -/
def resetHead [Game G] (g : G) : List (Step G (Flow G)) → Scope → Checked Trail
  | .node flow :: _, scope => flow.reset g scope
  | _, _ => .ok .nil
termination_by structural block => block
/-- The trail of the first step of a case. -/
def resetCase [Game G] (g : G) : List (Case G (Flow G)) → (index : Nat) → Scope → Checked Trail
  | ⟨_, block⟩ :: _, 0, scope => resetHead g block scope
  | _ :: rest, index + 1, scope => resetCase g rest index scope
  | [], _, _ => .ok .nil
termination_by structural cases => cases
/-- The trail of the first step of a default block. -/
def resetDefault [Game G] (g : G) : Option (List (Step G (Flow G))) → Scope → Checked Trail
  | some block, scope => resetHead g block scope
  | none, _ => .ok .nil
termination_by structural default => default
end

/-- Enters the node that stands at its mark at the node below it, if there is
one. -/
def enter [Game G] (g : G) (flow : Flow G) (scope : Scope) (mark : Mark Trail) :
    Checked Trail :=
  match flow.next? mark with
  | some (.node child) => do
      let below ← child.reset g (scope.enter flow mark)
      pure (.cons mark below)
  | _ => .ok (.cons mark .nil)

theorem resetHead_eq [Game G] (g : G) (block : Block G) (scope : Scope) :
    resetHead g block scope =
      match block[0]? with
      | some (Step.node child) => child.reset g scope
      | _ => .ok .nil := by
  cases block with
  | nil => rfl
  | cons step rest => cases step <;> rfl

theorem resetCase_eq [Game G] (g : G) (scope : Scope) :
    (cases : List (Case G (Flow G))) → (index : Nat) →
      resetCase g cases index scope =
        match cases[index]? with
        | some c => resetHead g c.block scope
        | none => .ok .nil
  | [], _ => rfl
  | ⟨_, _⟩ :: _, 0 => rfl
  | _ :: rest, index + 1 => by simpa [resetCase] using resetCase_eq g scope rest index

/-- Below a node that has been put in its starting position there is the trail
of the step it stands at. -/
theorem resetBelow_eq [Game G] (g : G) (name : Option String) (kind : FlowKind G (Flow G))
    (position : Position Trail) (scope : Scope)
    (notTaken : ∀ move, position ≠ .action (.taken move))
    (notMoved : ∀ index, position = .sequence index → index = 0) :
    resetBelow g kind position scope =
      match Flow.next? ⟨name, kind⟩ (freshMark ⟨name, kind⟩ position) with
      | some (Step.node child) => child.reset g scope
      | _ => .ok .nil := by
  cases kind with
  | sequence block =>
      cases position with
      | sequence index =>
          obtain rfl := notMoved index rfl
          exact resetHead_eq g block scope
      | _ => rfl
  | loop condition body =>
      cases position with
      | loop index value =>
          cases index with
          | none => rfl
          | some index => exact resetHead_eq g body scope
      | _ => rfl
  | count initial next test body =>
      cases position with
      | loop index value =>
          cases index with
          | none => rfl
          | some index => exact resetHead_eq g body scope
      | _ => rfl
  | each collection setsPlayer body =>
      cases position with
      | each index value items =>
          cases index with
          | none => rfl
          | some index => exact resetHead_eq g body scope
      | _ => rfl
  | switch value cases default =>
      cases position with
      | switch index isDefault value' =>
          cases index with
          | none =>
              cases isDefault with
              | false => rfl
              | true =>
                  cases default with
                  | none => rfl
                  | some block => exact resetHead_eq g block scope
          | some index =>
              have next?_eq : next? ⟨name, .switch value cases default⟩
                  (freshMark ⟨name, .switch value cases default⟩
                    (.switch (some index) isDefault value')) =
                  (cases[index]?).bind fun c => c.block[0]? := by
                cases h : cases[index]? <;>
                  simp [next?, freshMark, liveBlock, isSequence, atFirstStep, Mark.step, h]
              rw [next?_eq]
              refine (resetCase_eq g scope cases index).trans ?_
              cases cases[index]? with
              | none => rfl
              | some c => exact resetHead_eq g c.block scope
      | _ => rfl
  | action step =>
      cases position with
      | action status =>
          cases status with
          | taken move => exact absurd rfl (notTaken move)
          | _ => rfl
      | _ => rfl
  | parallel players body => cases position <;> rfl

/-- A node never starts at a taken action, nor a sequence behind its first
step. -/
theorem start_fresh [Game G] {g : G} {kind : FlowKind G (Flow G)} {scope : Scope}
    {position : Position Trail} (h : start g kind scope = .ok position) :
    (∀ move, position ≠ .action (.taken move)) ∧
      ∀ index, position = .sequence index → index = 0 := by
  cases kind with
  | sequence block => cases h; simp
  | loop condition body => cases h; simp [startLoop]
  | count initial next test body =>
      cases h
      simp only [startCount]
      split <;> simp
  | each collection setsPlayer body =>
      simp only [start] at h
      cases hc : collection g scope.args with
      | error fault => simp [hc, bind, Except.bind] at h
      | ok items =>
          simp only [hc, bind, Except.bind, pure, Except.pure, Except.ok.injEq] at h
          subst h
          simp [startEach]
  | switch value cases default => cases h; simp [startSwitch]
  | action step => cases h; simp
  | parallel players body =>
      simp only [start, bind, Except.bind] at h
      split at h
      · cases h
      · split at h
        · cases h
        · cases h
          simp

/-- Entering a flow works out the position of its root and enters the root at
it. -/
theorem reset_eq [Game G] (g : G) (flow : Flow G) (scope : Scope) :
    flow.reset g scope =
      (start g flow.kind scope).bind fun position =>
        enter g flow scope (flow.freshMark position) := by
  cases flow with
  | mk name kind =>
      simp only [reset, bind, Except.bind]
      cases h : start g kind scope with
      | error fault => rfl
      | ok position =>
          have ⟨notTaken, notMoved⟩ := start_fresh h
          simp only [position_freshMark, enter,
            resetBelow_eq g name kind position _ notTaken notMoved]
          cases next? ⟨name, kind⟩ (freshMark ⟨name, kind⟩ position) with
          | none => rfl
          | some step =>
              cases step with
              | call callback => rfl
              | node child => rfl

end Flow

end Tabletop
