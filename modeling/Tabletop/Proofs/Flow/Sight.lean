import Tabletop.Proofs.Flow.Lasting

/-! # What the callbacks of a turn see

A turn of a flow calls more than the callbacks of steps. A loop tests its condition after
each iteration, a step that waits asks who may move, and a node that is entered works out
its condition, its first value, its items, the value it switches on or its players. These
see the scope that their node stands in, and the callback of a step sees the scope below its
node.

`Called` collects all of them, whatever the game is and whether the turn comes to an end or
runs into a fault. So what is true of each of them is true of all that is called. That it
leaves nothing out is shown by looking at flows through a view.

Main statements: `Called.args_eq`, `starts_of_reset` for nodes that are entered, and
`RestsWith.seenInside` for what follows a move.
-/

namespace Tabletop

variable {G : Type}

namespace Flow

/-! ### Nodes that are entered -/

/-- Entering a flow starts a node, in a scope: the flow itself, the node that one of these
stands at when it was put at its first position, or one side by side with others. The marks
are those of the nodes passed on the way. -/
inductive Starts [Game G] (g : G) : Flow G → Scope → List (Mark Trail) → Flow G → Scope → Prop
  | here {flow scope} : Starts g flow scope [] flow scope
  | inside {flow scope position child marks node inner}
      (starts : start g flow.kind scope = .ok position)
      (next : flow.next? (flow.freshMark position) = some (.node child))
      (further : Starts g child (scope.enter flow (flow.freshMark position)) marks node inner) :
      Starts g flow scope (flow.freshMark position :: marks) node inner
  | beside {flow scope players body seated player marks node inner}
      (kind_eq : flow.kind = .parallel players body)
      (seated_eq : seats players g scope.args = .ok seated) (mem : player ∈ seated)
      (further : Starts g body (scope.withPlayer player) marks node inner) :
      Starts g flow scope marks node inner

section Starts

variable [Game G] {g : G} {flow node : Flow G} {scope inner : Scope} {marks : List (Mark Trail)}
  {trail : Trail} {place : Place}

/-- A node that starts sees what is seen at the flow under what the marks on the way give. -/
theorem Starts.args_eq (starts : Starts g flow scope marks node inner) :
    inner.args = Mark.giveAll marks scope.args := by
  induction starts with
  | here => rfl
  | inside starts next further ih =>
      rw [ih, Scope.args_enter]
      rfl
  | beside kind_eq seated_eq mem further ih => exact ih

/-- Nodes that start side by side start for each player who takes part. -/
theorem seats_of_start {players : Option (G → Args → Checked (List Player))} {body : Flow G}
    {seated : List Player} {lanes : List Trail} {completed : List Bool}
    (starts : start g (.parallel players body) scope = .ok (.parallel seated lanes completed)) :
    seats players g scope.args = .ok seated := by
  obtain ⟨_, seated_eq, starts⟩ := bind_eq_ok.1 starts
  obtain ⟨_, -, starts⟩ := bind_eq_ok.1 starts
  cases starts
  exact seated_eq

/-- Each node that stands in a flow which was just entered has started there. -/
theorem starts_of_reset (entered : flow.reset g scope = .ok trail)
    (stands : Stands trail flow scope place node inner) :
    Starts g flow scope (trail.around place) node inner := by
  induction stands with
  | here => exact .here
  | down next stands ih =>
      rw [reset_eq] at entered
      obtain ⟨position, starts, enters⟩ := bind_eq_ok.1 entered
      unfold enter at enters
      split at enters
      · rename_i child next'
        obtain ⟨below', child_entered, enters⟩ := bind_eq_ok.1 enters
        cases enters
        obtain ⟨⟩ := next.symm.trans next'
        exact .inside starts next (ih child_entered)
      · rename_i no_child
        cases enters
        exact absurd next (no_child _)
  | lane kind_eq position_eq at_lane at_player stands ih =>
      rw [reset_eq] at entered
      obtain ⟨position, starts, enters⟩ := bind_eq_ok.1 entered
      obtain ⟨below', trail_eq, -⟩ := enter_eq_ok enters
      cases trail_eq
      rw [position_freshMark] at position_eq
      rw [position_eq] at starts
      obtain ⟨_, _, player, kind_eq', at_player', lane_entered⟩ := lane_of_start starts at_lane
      obtain ⟨⟩ := kind_eq.symm.trans kind_eq'
      obtain ⟨⟩ := at_player.symm.trans at_player'
      rw [kind_eq] at starts
      rw [Trail.around_lane (by rwa [position_freshMark]) at_lane]
      exact .beside kind_eq (seats_of_start starts) (List.mem_of_getElem? at_player)
        (ih lane_entered)

end Starts

/-! ### Callbacks that a turn can call -/

/-- A mark at which a node is entered in a turn, from the mark it has before: the one it was
entered at, one it goes on to, or one at which it is settled. -/
inductive Comes (g : G) (flow : Flow G) (scope : Scope) (mark : Mark Trail) : Mark Trail → Prop
  | same : Comes g flow scope mark mark
  | goes_on {mark'} (moves : Moves g flow scope mark mark') : Comes g flow scope mark mark'
  | settled (status : ActionStatus) (waiting : (flow.waiting? mark).isSome) :
      Comes g flow scope mark (flow.atFirstStep { mark with position := .action status })

/-- At the place of a flow a turn can call a callback that sees a scope, below some marks:
one of the node that stands there, the callback of a step that is next there, or one of a
node that is entered there. -/
inductive Called [Game G] (trail : Trail) (flow : Flow G) (scope : Scope) :
    Place → List (Mark Trail) → Scope → Prop
  | node {place node inner} (stands : Stands trail flow scope place node inner) :
      Called trail flow scope place (trail.around place) inner
  | step {place callback inner} (calls : CallsAt trail flow scope place callback inner) :
      Called trail flow scope place (trail.around place) inner
  | entered {g place node outer mark mark' below child marks started inner}
      (stands : Stands trail flow scope place node outer)
      (at_place : trail.at? place = some (.cons mark below))
      (comes : Comes g node outer mark mark') (next : node.next? mark' = some (.node child))
      (starts : Starts g child (outer.enter node mark') marks started inner) :
      Called trail flow scope place.inside (trail.around place ++ mark' :: marks) inner

/-- Whatever is called in a turn sees what is seen at the flow under what the marks around it
give. -/
theorem Called.args_eq [Game G] {trail : Trail} {flow : Flow G} {scope inner : Scope}
    {place : Place} {marks : List (Mark Trail)}
    (called : Called trail flow scope place marks inner) :
    inner.args = Mark.giveAll marks scope.args := by
  cases called with
  | node stands => exact stands.args_eq
  | step calls => exact calls.args_eq
  | entered stands at_place comes next starts =>
      rw [starts.args_eq, Scope.args_enter, stands.args_eq, Mark.giveAll_append]
      rfl

section Called

variable [Game G] {flow body : Flow G} {scope inner : Scope} {mark : Mark Trail} {below : Trail}
  {place : Place} {marks : List (Mark Trail)}

theorem Called.down {child : Flow G} (next : flow.next? mark = some (.node child))
    (called : Called below child (scope.enter flow mark) place marks inner) :
    Called (.cons mark below) flow scope (.down place) (mark :: marks) inner := by
  cases called with
  | node stands => exact .node (.down next stands)
  | step calls => exact .step (calls.down next)
  | entered stands at_place comes next' starts =>
      exact .entered (.down next stands) at_place comes next' starts

theorem Called.lane {players : Option (G → Args → Checked (List Player))} {lane : Trail}
    {seated : List Player} {lanes : List Trail} {completed : List Bool} {index : Nat}
    {player : Player} (kind_eq : flow.kind = .parallel players body)
    (position_eq : mark.position = .parallel seated lanes completed)
    (at_lane : lanes[index]? = some lane) (at_player : seated[index]? = some player)
    (called : Called lane body (scope.withPlayer player) place marks inner) :
    Called (.cons mark below) flow scope (.lane index place) marks inner := by
  have around (place : Place) : (Trail.cons mark below).around (.lane index place) =
      lane.around place := Trail.around_lane position_eq at_lane
  cases called with
  | node stands =>
      rw [← around]
      exact .node (.lane kind_eq position_eq at_lane at_player stands)
  | step calls =>
      rw [← around]
      exact .step (calls.lane kind_eq position_eq at_lane at_player)
  | entered stands at_place comes next starts =>
      rw [← around]
      exact .entered (.lane kind_eq position_eq at_lane at_player stands)
        ((Trail.at?_lane position_eq at_lane).trans at_place) comes next starts

end Called

/-! ### What follows a move -/

/-- A node among the marks captured a value under a name, and none of the marks after it
gives a value for the name. -/
def Captures (marks : List (Mark Trail)) (name : String) (value : Argument) : Prop :=
  ∃ before mark after, marks = before ++ mark :: after ∧ mark.name = some name ∧
    mark.position.captured? = some value ∧ ∀ mark ∈ after, mark.given.get? name = none

/-- Under these marks, of which the first ones are those around the place, the value is seen
under the key, unless nodes further in than the one at the place give one. -/
def SeenUnder (trail : Trail) (place : Place) (key : String) (value : Argument)
    (marks : List (Mark Trail)) (args : Args) : Prop :=
  ∃ mark nearer, marks = trail.around place ++ mark :: nearer ∧
    ((∀ mark ∈ nearer, mark.given.get? key = none) → args.get? key = some value)

/-- Next below the place no node is nearer. -/
theorem SeenUnder.get?_eq {trail : Trail} {place : Place} {key : String} {value : Argument}
    {mark : Mark Trail} {args : Args}
    (seen : SeenUnder trail place key value (trail.around place ++ [mark]) args) :
    args.get? key = some value := by
  obtain ⟨mark', nearer, split, sees⟩ := seen
  obtain ⟨rfl, rfl⟩ := List.cons.inj (List.append_cancel_left split)
  exact sees nofun

/-- Inside the place the value is seen under the key, unless nodes in between give one. -/
structure SeenInside [Game G] (trail : Trail) (flow : Flow G) (scope : Scope) (place : Place)
    (key : String) (value : Argument) : Prop where
  /-- Whatever a turn can call inside sees it. -/
  called : ∀ further marks inner, Called trail flow scope (place ++ .down further) marks inner →
    SeenUnder trail place key value marks inner.args
  /-- Each callback that a unit runs was next at a place, and it saw the value if the place is
  inside. -/
  runs : ∀ g dice p, play trail flow scope g dice = .ok p → ∀ run ∈ p.runs,
    (∃ place', RanAt trail flow scope g dice place' run) ∧
      ∀ further, RanAt trail flow scope g dice (place ++ .down further) run →
        SeenUnder trail place key value (trail.around (place ++ .down further)) run.scene.args

/-- Below a step that was taken with a move, what was sent under a key is seen and, where
nothing was, what a node around the step captured. -/
theorem Captures.get?_giveAll {marks nearer : List (Mark Trail)} {mark : Mark Trail} {args : Args}
    {key : String} {value : Argument} {sent : Option Argument} (captures : Captures marks key value)
    (gives : mark.given.get? key = sent) (clear : ∀ mark ∈ nearer, mark.given.get? key = none) :
    (Mark.giveAll (marks ++ mark :: nearer) args).get? key = some (sent.getD value) := by
  obtain ⟨before, node, after, rfl, named, captured, after_clear⟩ := captures
  cases sent with
  | some value' => exact Mark.get?_giveAll_of_nearest gives clear
  | none =>
      rw [Mark.giveAll_append, Mark.get?_giveAll_of_clear]
      · exact Mark.get?_giveAll_of_nearest (Mark.get?_given_of_captured named captured) after_clear
      · exact List.forall_mem_cons.2 ⟨gives, clear⟩

/-- A step that rests with a move keeps it at whatever mark it comes to. -/
theorem Comes.eq_of_taken {step : Flow G} {outer : Scope} {mark mark' : Mark Trail} {g : G}
    {move : Taken} (comes : Comes g step outer mark mark')
    (taken : mark.position = .action (.taken move)) :
    mark'.name = mark.name ∧ mark'.position = .action (.taken move) := by
  cases comes with
  | same => exact ⟨rfl, taken⟩
  | goes_on moves =>
      obtain ⟨name_eq, position_eq | ⟨bare, -⟩⟩ := moves.continues
      · exact ⟨name_eq, position_eq.trans taken⟩
      · rw [taken] at bare
        cases bare
  | settled status waiting =>
      unfold waiting? at waiting
      split at waiting <;> simp_all

/-- The place of the step that a node runs is further in than a place only if the node stands
there or further in. -/
theorem eq_of_append_eq_inside {place place' further : Place}
    (eq : place ++ .down further = place'.inside) :
    place' = place ∨ ∃ further', place' = place ++ .down further' := by
  induction place generalizing place' with
  | here =>
      cases place' with
      | here => exact .inl rfl
      | down place' => exact .inr ⟨place', rfl⟩
      | lane => cases eq
  | down place ih =>
      cases place' with
      | here => cases place <;> cases eq
      | down place' =>
          rcases ih (Place.down.inj eq) with rfl | ⟨further', rfl⟩
          · exact .inl rfl
          · exact .inr ⟨further', rfl⟩
      | lane => cases eq
  | lane index place ih =>
      cases place' with
      | here | down => cases eq
      | lane index' place' =>
          obtain ⟨rfl, in_lane⟩ := Place.lane.inj eq
          rcases ih in_lane with rfl | ⟨further', rfl⟩
          · exact .inl rfl
          · exact .inr ⟨further', rfl⟩

/-- Whatever is called inside a step that rests with a move is called below its mark. -/
theorem Called.exists_taken [Game G] {trail below : Trail} {flow : Flow G} {scope inner : Scope}
    {place further : Place} {marks : List (Mark Trail)} {name : Option String} {move : Taken}
    {stepIndex : Option Nat}
    (called : Called trail flow scope (place ++ .down further) marks inner)
    (at_place : trail.at? place = some (.cons ⟨name, .action (.taken move), stepIndex⟩ below)) :
    ∃ stepIndex' nearer, marks =
      trail.around place ++ ⟨name, .action (.taken move), stepIndex'⟩ :: nearer := by
  have split (further) : trail.around (place ++ .down further) =
      trail.around place ++ ⟨name, .action (.taken move), stepIndex⟩ :: below.around further :=
    Trail.around_append at_place (.down further)
  generalize called_at : place ++ .down further = place' at called
  cases called with
  | node | step => exact ⟨stepIndex, below.around further, called_at ▸ split further⟩
  | @entered _ place' _ _ _ mark' _ _ marks _ _ _ at_place' comes =>
      rcases eq_of_append_eq_inside called_at with rfl | ⟨further', rfl⟩
      · obtain ⟨⟩ := at_place.symm.trans at_place'
        obtain ⟨name', position', stepIndex'⟩ := mark'
        obtain ⟨rfl, rfl⟩ := comes.eq_of_taken rfl
        exact ⟨stepIndex', marks, rfl⟩
      · refine ⟨stepIndex, below.around further' ++ mark' :: marks, ?_⟩
        rw [split, List.append_assoc, List.cons_append]

/-- What follows the move of a step sees what was sent with the move and, where nothing
was, what a node around the step captured. -/
theorem RestsWith.seenInside [Game G] {trail : Trail} {flow : Flow G} {scope : Scope}
    {place : Place} {marks : List (Mark Trail)} {name : Option String} {move : Taken} {key : String}
    {value : Argument} (rests : RestsWith trail flow scope place marks name move)
    (captures : Captures marks key value)
    (free : ¬ Mark.Owns name key) :
    SeenInside trail flow scope place key ((move.args.get? key).getD value) := by
  obtain ⟨-, rfl, stepIndex, below, at_place⟩ := rests
  have seen (further : Place) (marks : List (Mark Trail)) (inner : Scope)
      (called : Called trail flow scope (place ++ .down further) marks inner) :
      SeenUnder trail place key ((move.args.get? key).getD value) marks inner.args := by
    obtain ⟨stepIndex', nearer, rfl⟩ := called.exists_taken at_place
    refine ⟨_, nearer, rfl, fun clear => ?_⟩
    rw [called.args_eq]
    exact captures.get?_giveAll (Mark.get?_given_of_taken free) clear
  refine ⟨seen, fun g dice p played run mem => ⟨ranAt_of_play played mem, ?_⟩⟩
  rintro further ⟨inner, calls, scene_eq⟩
  rw [scene_eq]
  exact seen further _ inner (.step calls)

end Flow

end Tabletop
