import Mathlib.Logic.Relation
import Tabletop.Proofs.Flow.Context
import Tabletop.Proofs.Flow.GoingOn

/-! # Steps that rest with a move

A step that rests with a move runs what follows the move, unit after unit. A turn of the
flow leaves the step with its move, below the same marks, or the step is gone from its
place, and only a move that is taken makes a step rest there again.

Main statements: `exists_turnAt_of_turn` and `restsWith_of_goesTo`.
-/

namespace Tabletop

variable {G : Type}

/-- There is neither a move nor a trail in the position. -/
def Position.isBare {τ : Type} : Position τ → Bool
  | action (.taken _) | parallel .. => false
  | _ => true

namespace Trail

/-- At the place of a trail a step rests with a move. -/
def TakenAt (trail : Trail) (place : Place) : Prop :=
  ∃ mark below move, trail.at? place = some (cons mark below) ∧
    mark.position = .action (.taken move)

/-- No step of the trail rests with a move. -/
def Untaken (trail : Trail) : Prop := ∀ place, ¬ trail.TakenAt place

section TakenAt

variable {mark : Mark Trail} {below : Trail} {place : Place}

theorem takenAt_here :
    (cons mark below).TakenAt .here ↔ ∃ move, mark.position = .action (.taken move) := by
  constructor
  · rintro ⟨mark', below', move, ⟨⟩, taken⟩
    exact ⟨move, taken⟩
  · rintro ⟨move, taken⟩
    exact ⟨mark, below, move, rfl, taken⟩

theorem takenAt_down : (cons mark below).TakenAt (.down place) ↔ below.TakenAt place := .rfl

theorem takenAt_lane {index : Nat} :
    (cons mark below).TakenAt (.lane index place) ↔
      ∃ players lanes completed lane, mark.position = .parallel players lanes completed ∧
        lanes[index]? = some lane ∧ lane.TakenAt place := by
  constructor
  · rintro ⟨mark', below', move, found, taken⟩
    obtain ⟨players, lanes, completed, lane, position_eq, at_lane, found⟩ :=
      exists_lane_of_at? found
    exact ⟨players, lanes, completed, lane, position_eq, at_lane, mark', below', move, found, taken⟩
  · rintro ⟨players, lanes, completed, lane, position_eq, at_lane, mark', below', move, found, taken⟩
    exact ⟨mark', below', move, (at?_lane position_eq at_lane).trans found, taken⟩

theorem untaken_nil : nil.Untaken := by
  rintro place ⟨mark, below, move, found, -⟩
  cases eq_nil_of_at?_nil found

theorem untaken_cons (not_taken : ∀ move, mark.position ≠ .action (.taken move))
    (below_untaken : below.Untaken)
    (lanes_untaken : ∀ players lanes completed, mark.position = .parallel players lanes completed →
      ∀ lane ∈ lanes, lane.Untaken) : (cons mark below).Untaken := by
  intro place taken
  cases place with
  | here =>
      obtain ⟨move, taken⟩ := takenAt_here.1 taken
      exact not_taken move taken
  | down place => exact below_untaken place (takenAt_down.1 taken)
  | lane index place =>
      obtain ⟨players, lanes, completed, lane, position_eq, at_lane, taken⟩ := takenAt_lane.1 taken
      exact lanes_untaken _ _ _ position_eq lane (List.mem_of_getElem? at_lane) place taken

end TakenAt

end Trail

namespace Flow

section Enter

variable [Game G] {flow : Flow G} {scope : Scope} {mark : Mark Trail} {trail : Trail} {g : G}

/-- Nodes that start side by side are entered for each player. -/
theorem lanes_of_start {kind : FlowKind G (Flow G)} {players : List Player} {lanes : List Trail}
    {completed : List Bool} (h : start g kind scope = .ok (.parallel players lanes completed)) :
    ∃ seated body, kind = .parallel seated body ∧
      ∀ lane ∈ lanes, ∃ scope', body.reset g scope' = .ok lane := by
  cases kind with
  | count initial next test body =>
      simp only [start, startCount] at h
      split at h <;> cases h
  | each collection setsPlayer body =>
      obtain ⟨items, -, h⟩ := bind_eq_ok.1 h
      cases h
  | parallel seated body =>
      obtain ⟨players, -, h⟩ := bind_eq_ok.1 h
      obtain ⟨lanes, entered, h⟩ := bind_eq_ok.1 h
      cases h
      refine ⟨seated, body, rfl, fun lane mem => ?_⟩
      obtain ⟨player, -, entered⟩ := (mem_of_mapM_eq_ok entered).1 mem
      exact ⟨_, entered⟩
  | _ => cases h

/-- A node that is entered at a mark keeps it, and nothing below is taken if nothing is
where nodes below are entered. -/
theorem enter_eq_ok_of
    (children : ∀ child ∈ flow.children, ∀ scope trail, child.reset g scope = .ok trail →
      trail.Untaken)
    (h : flow.enter g scope mark = .ok trail) :
    ∃ below, trail = .cons mark below ∧ below.Untaken := by
  unfold enter at h
  split at h
  · rename_i child next
    obtain ⟨below, entered, h⟩ := bind_eq_ok.1 h
    cases h
    exact ⟨below, rfl, children child (mem_children_of_next? next) _ _ entered⟩
  · cases h
    exact ⟨.nil, rfl, Trail.untaken_nil⟩

/-- Where a flow is entered nothing is taken yet. -/
theorem untaken_of_reset (h : flow.reset g scope = .ok trail) : trail.Untaken := by
  induction flow using Flow.induction generalizing scope trail with
  | node flow children =>
      rw [reset_eq] at h
      obtain ⟨position, starts, h⟩ := bind_eq_ok.1 h
      obtain ⟨below, rfl, below_untaken⟩ :=
        enter_eq_ok_of (fun child mem _ _ => children child mem) h
      apply Trail.untaken_cons
      · rw [position_freshMark]
        exact (start_fresh starts).1
      · exact below_untaken
      · rintro players lanes completed position_eq lane mem
        rw [position_freshMark] at position_eq
        subst position_eq
        obtain ⟨seated, body, kind_eq, entered⟩ := lanes_of_start starts
        obtain ⟨scope', entered⟩ := entered lane mem
        exact children body (mem_children.2 (.inr ⟨seated, kind_eq⟩)) entered

theorem enter_eq_ok (h : flow.enter g scope mark = .ok trail) :
    ∃ below, trail = .cons mark below ∧ below.Untaken :=
  enter_eq_ok_of (fun _ _ _ _ => untaken_of_reset) h

/-- A flow is entered at the trail, in some game. -/
def EntersAt (flow : Flow G) (trail : Trail) : Prop :=
  ∃ g scope, flow.reset g scope = .ok trail

theorem EntersAt.untaken (h : flow.EntersAt trail) : trail.Untaken := by
  obtain ⟨g, scope, entered⟩ := h
  exact untaken_of_reset entered

end Enter

/-! ### Going on -/

/-- A node goes on with another mark: under its name, and at its position, unless there is
neither a move nor a trail in both positions. -/
structure Continues (mark mark' : Mark Trail) : Prop where
  name_eq : mark'.name = mark.name
  position_eq : mark'.position = mark.position ∨ mark.position.isBare ∧ mark'.position.isBare

theorem Continues.refl (mark : Mark Trail) : Continues mark mark := ⟨rfl, .inl rfl⟩

/-- A position with a move or with trails was there before. -/
theorem Continues.position_eq_of_eq {mark mark' : Mark Trail} {position : Position Trail}
    (continues : Continues mark mark') (eq : mark'.position = position)
    (full : position.isBare = false) : mark.position = mark'.position := by
  rcases continues.position_eq with same | ⟨-, bare⟩
  · exact same.symm
  · rw [eq, full] at bare
    cases bare

theorem continues_withStep (mark : Mark Trail) (index : Nat) :
    Continues mark (mark.withStep index) := by
  refine ⟨Mark.name_withStep mark index, ?_⟩
  obtain ⟨name, position, stepIndex⟩ := mark
  cases position with
  | sequence => exact .inr ⟨rfl, rfl⟩
  | _ => exact .inl rfl

/-- A node went on from its mark, and nothing below it is taken. -/
def WentOn (mark : Mark Trail) (trail : Trail) : Prop :=
  ∃ mark' below, trail = .cons mark' below ∧ Continues mark mark' ∧ below.Untaken

/-- A node that went on rests with a move only if it did so before, and so do the steps
side by side at it. -/
theorem WentOn.takenAt {mark : Mark Trail} {below trail : Trail} {place : Place}
    (went_on : WentOn mark trail) (taken : trail.TakenAt place) :
    (Trail.cons mark below).TakenAt place := by
  obtain ⟨mark', below', rfl, continues, untaken⟩ := went_on
  cases place with
  | here =>
      obtain ⟨move, taken⟩ := Trail.takenAt_here.1 taken
      exact Trail.takenAt_here.2 ⟨move, (continues.position_eq_of_eq taken rfl).trans taken⟩
  | down place => exact absurd taken (untaken place)
  | lane index place =>
      obtain ⟨players, lanes, completed, lane, position_eq, at_lane, taken⟩ :=
        Trail.takenAt_lane.1 taken
      exact Trail.takenAt_lane.2 ⟨players, lanes, completed, lane,
        (continues.position_eq_of_eq position_eq rfl).trans position_eq, at_lane, taken⟩

section GoOn

variable [Game G] {flow : Flow G} {scope : Scope} {mark mark' : Mark Trail} {trail : Trail} {g : G}

omit [Game G] in
/-- Only a loop has a next iteration. -/
theorem bare_of_nextPosition {args : Args} {kind : FlowKind G (Flow G)}
    {position position' : Position Trail}
    (next : nextPosition g args kind position = some position') :
    position.isBare ∧ position'.isBare := by
  unfold nextPosition at next
  split at next <;> cases next
  · exact ⟨rfl, rfl⟩
  · refine ⟨rfl, ?_⟩
    unfold nextCount
    split
    · split <;> rfl
    · rfl
  · refine ⟨rfl, ?_⟩
    unfold nextEach
    split <;> rfl

omit [Game G] in
/-- A mark at which a node goes on continues the one before. -/
theorem Moves.continues (moves : Moves g flow scope mark mark') : Continues mark mark' := by
  cases moves with
  | still => exact .refl mark
  | step index => exact continues_withStep mark index
  | next loop next => exact ⟨rfl, .inr (bare_of_nextPosition next)⟩
  | left =>
      refine ⟨rfl, ?_⟩
      cases mark.position with
      | loop | each => exact .inr ⟨rfl, rfl⟩
      | _ => exact .inl rfl

theorem EntersNext.wentOn (enters_next : EntersNext g flow scope mark trail) :
    WentOn mark trail := by
  obtain ⟨mark', moves, enters⟩ := enters_next
  obtain ⟨below, rfl, untaken⟩ := enter_eq_ok enters
  exact ⟨mark', below, rfl, moves.continues, untaken⟩

end GoOn

/-! ### Turns -/

/-- A flow at a trail takes a turn to another trail: it plays a unit, in whatever game, or
one of its stops is settled with one of some statuses. -/
inductive Turn [Game G] (may : ActionStatus → Prop) (trail : Trail) (flow : Flow G)
    (scope : Scope) : Trail → Prop
  | unit {g dice p} (played : play trail flow scope g dice = .ok p) :
      Turn may trail flow scope p.trail
  | settle {s g status settled} (allowed : may status) (waits : Waits trail flow scope s)
      (settles : s.settle g status trail = .ok settled) : Turn may trail flow scope settled

/-- Each of some trails side by side is left as it is, or takes a turn. -/
def LanesTurn [Game G] (may : ActionStatus → Prop) (body : Flow G) (scope : Scope)
    (players : List Player) (lanes lanes' : List Trail) : Prop :=
  ∀ (index : Nat) (lane' : Trail), lanes'[index]? = some lane' →
    ∃ lane, lanes[index]? = some lane ∧
      (lane' = lane ∨ ∃ player, players[index]? = some player ∧
        Turn may lane body (scope.withPlayer player) lane')

/-- All that a turn can do at a node: the node stays, it goes on, the node below takes a
turn, those side by side do, or the step was waited for and is settled. -/
inductive TurnAt [Game G] (may : ActionStatus → Prop) (mark : Mark Trail) (below : Trail)
    (flow : Flow G) (scope : Scope) : Trail → Prop
  | stays : TurnAt may mark below flow scope (.cons mark below)
  | went_on {trail} (single : flow.isParallel = false) (went_on : WentOn mark trail) :
      TurnAt may mark below flow scope trail
  | node {child below'} (next : flow.next? mark = some (.node child))
      (turn : Turn may below child (scope.enter flow mark) below') :
      TurnAt may mark below flow scope (.cons mark below')
  | lanes {players body seated lanes completed lanes' completed'}
      (kind_eq : flow.kind = .parallel players body)
      (position_eq : mark.position = .parallel seated lanes completed)
      (turn : LanesTurn may body scope seated lanes lanes') :
      TurnAt may mark below flow scope
        (.cons { mark with position := .parallel seated lanes' completed' } below)
  | settled {status mark' below'} (allowed : may status)
      (waiting : (flow.waiting? mark).isSome) (name_eq : mark'.name = mark.name)
      (position_eq : mark'.position = .action status) (untaken : below'.Untaken) :
      TurnAt may mark below flow scope (.cons mark' below')

section Turn

variable [Game G] {flow child body : Flow G} {scope : Scope} {mark : Mark Trail}
  {below trail trail' : Trail} {place : Place} {g : G} {dice : Dice} {may : ActionStatus → Prop}
  {players : List Player} {lanes lanes' : List Trail}

/-- One of the trails side by side takes a turn. -/
theorem LanesTurn.set {index : Nat} {player : Player} {lane lane' : Trail}
    (at_lane : lanes[index]? = some lane) (at_player : players[index]? = some player)
    (turn : Turn may lane body (scope.withPlayer player) lane') :
    LanesTurn may body scope players lanes (lanes.set index lane') := by
  intro index' found at_index
  by_cases same : index = index'
  · subst same
    obtain ⟨lt, -⟩ := List.getElem?_eq_some_iff.1 at_lane
    obtain rfl := Option.some.inj ((List.getElem?_set_self lt).symm.trans at_index)
    exact ⟨lane, at_lane, .inr ⟨player, at_player, turn⟩⟩
  · exact ⟨found, (List.getElem?_set_ne same).symm.trans at_index, .inl rfl⟩

theorem turnAt_of_play {p : Progress Trail G}
    (played : play (.cons mark below) flow scope g dice = .ok p) :
    TurnAt may mark below flow scope p.trail := by
  cases single : flow.isParallel with
  | true =>
      obtain ⟨players, body, kind_eq⟩ := eq_parallel_of_isParallel single
      obtain ⟨seated, lanes, completed, position_eq⟩ := exists_parallel_of_play kind_eq played
      rcases play_parallel_cases kind_eq position_eq played with
        ⟨-, rfl⟩ | ⟨index, lane, player, q, turn, lane_played, -, rfl⟩
      · exact .stays
      · obtain ⟨at_lane, at_player, -⟩ := turn.at_lane
        exact .lanes kind_eq position_eq (.set at_lane at_player (.unit lane_played))
  | false =>
      by_cases node : ∃ child, flow.next? mark = some (.node child)
      · obtain ⟨child, next⟩ := node
        obtain ⟨q, below_played, ⟨-, rfl⟩ | ⟨-, enters_next, -⟩⟩ := play_node_cases next played
        · exact .node next (.unit below_played)
        · exact .went_on single enters_next.wentOn
      · rcases play_leaf_cases single (not_exists.1 node) played with same | enters_next
        · rw [same]
          exact .stays
        · exact .went_on single enters_next.wentOn

/-- A stop that is settled is that of the node, or one below it or side by side at it. -/
theorem turnAt_of_settle {s : Stop G} {status : ActionStatus} (allowed : may status)
    (waits : Waits (.cons mark below) flow scope s)
    (settles : s.settle g status (.cons mark below) = .ok trail) :
    TurnAt may mark below flow scope trail := by
  cases waits with
  | here waiting =>
      obtain ⟨entered, enters, settles⟩ := bind_eq_ok.1 settles
      cases settles
      obtain ⟨below', rfl, untaken⟩ := enter_eq_ok (Playing.ofChecked_eq_ok.1 enters)
      exact .settled allowed (by rw [waiting]; rfl) rfl rfl untaken
  | down next inner =>
      rw [Stop.settle_within_down] at settles
      obtain ⟨below', below_settles, rfl⟩ := Playing.map_eq_ok.1 settles
      exact .node next (.settle allowed inner below_settles)
  | @lane _ _ _ _ _ _ _ _ index player lane _ s kind_eq position_eq at_lane at_player not_done
      inner =>
      rw [Stop.settle_within_lane position_eq at_lane] at settles
      obtain ⟨settled, lane_settles, rfl⟩ := Playing.map_eq_ok.1 settles
      exact .lanes kind_eq position_eq
        (.set at_lane at_player (.settle allowed inner lane_settles))

/-- A turn of a flow is a turn at its first node. -/
theorem exists_turnAt_of_turn (turn : Turn may trail flow scope trail') :
    ∃ mark below, trail = .cons mark below ∧ TurnAt may mark below flow scope trail' := by
  cases trail with
  | nil =>
      cases turn with
      | unit played => cases played
      | settle _ waits => cases waits
  | cons mark below =>
      refine ⟨mark, below, rfl, ?_⟩
      cases turn with
      | unit played => exact turnAt_of_play played
      | settle allowed waits settles => exact turnAt_of_settle allowed waits settles

/-- A turn that takes no move leaves a step that rests with one only where a step rested
with one before. -/
theorem Turn.takenAt (turn : Turn may trail flow scope trail')
    (takes_none : ∀ move, ¬ may (.taken move)) (taken : trail'.TakenAt place) :
    trail.TakenAt place := by
  induction place generalizing trail flow scope trail' with
  | here =>
      obtain ⟨mark, below, rfl, at_node⟩ := exists_turnAt_of_turn turn
      cases at_node with
      | stays => exact taken
      | went_on _ went_on => exact went_on.takenAt taken
      | node => exact Trail.takenAt_here.2 (Trail.takenAt_here.1 taken)
      | lanes => obtain ⟨move, ⟨⟩⟩ := Trail.takenAt_here.1 taken
      | settled allowed _ _ position_eq =>
          obtain ⟨move, taken⟩ := Trail.takenAt_here.1 taken
          obtain ⟨⟩ := position_eq.symm.trans taken
          exact absurd allowed (takes_none move)
  | down place ih =>
      obtain ⟨mark, below, rfl, at_node⟩ := exists_turnAt_of_turn turn
      cases at_node with
      | stays | lanes => exact taken
      | went_on _ went_on => exact went_on.takenAt taken
      | node next turned => exact ih turned taken
      | settled _ _ _ _ untaken => exact absurd taken (untaken place)
  | lane index place ih =>
      obtain ⟨mark, below, rfl, at_node⟩ := exists_turnAt_of_turn turn
      cases at_node with
      | stays => exact taken
      | went_on _ went_on => exact went_on.takenAt taken
      | node => exact Trail.takenAt_lane.2 (Trail.takenAt_lane.1 taken)
      | lanes kind_eq position_eq turns =>
          obtain ⟨_, _, _, lane', ⟨⟩, at_lane', taken⟩ := Trail.takenAt_lane.1 taken
          obtain ⟨lane, at_lane, rfl | ⟨player, -, turn⟩⟩ := turns index lane' at_lane'
          · exact Trail.takenAt_lane.2 ⟨_, _, _, _, position_eq, at_lane, taken⟩
          · exact Trail.takenAt_lane.2 ⟨_, _, _, _, position_eq, at_lane, ih turn taken⟩
      | settled _ _ _ position_eq =>
          obtain ⟨_, _, _, _, position_eq', -⟩ := Trail.takenAt_lane.1 taken
          cases position_eq.symm.trans position_eq'

end Turn

/-! ### Resting with a move -/

/-- At the place of a flow, below these marks, a step of a name rests with a move. -/
structure RestsWith (trail : Trail) (flow : Flow G) (scope : Scope) (place : Place)
    (marks : List (Mark Trail)) (name : Option String) (move : Taken) : Prop where
  stands : ∃ node inner, Stands trail flow scope place node inner
  around_eq : trail.around place = marks
  at_place : ∃ stepIndex below,
    trail.at? place = some (.cons ⟨name, .action (.taken move), stepIndex⟩ below)

namespace RestsWith

variable {flow child body : Flow G} {scope : Scope} {mark : Mark Trail}
  {below lane trail trail' : Trail} {place : Place} {marks : List (Mark Trail)}
  {name : Option String} {move : Taken}

theorem down (next : flow.next? mark = some (.node child))
    (rests : RestsWith below child (scope.enter flow mark) place marks name move) :
    RestsWith (.cons mark below) flow scope (.down place) (mark :: marks) name move := by
  obtain ⟨⟨node, inner, stands⟩, around_eq, at_place⟩ := rests
  exact ⟨⟨node, inner, .down next stands⟩, congrArg (mark :: ·) around_eq, at_place⟩

theorem beside {players : Option (G → Args → Checked (List Player))} {seated : List Player}
    {lanes : List Trail} {completed : List Bool} {index : Nat} {player : Player}
    (kind_eq : flow.kind = .parallel players body)
    (position_eq : mark.position = .parallel seated lanes completed)
    (at_lane : lanes[index]? = some lane) (at_player : seated[index]? = some player)
    (rests : RestsWith lane body (scope.withPlayer player) place marks name move) :
    RestsWith (.cons mark below) flow scope (.lane index place) marks name move := by
  obtain ⟨⟨node, inner, stands⟩, around_eq, stepIndex, below', at_place⟩ := rests
  exact ⟨⟨node, inner, .lane kind_eq position_eq at_lane at_player stands⟩,
    (Trail.around_lane position_eq at_lane).trans around_eq, stepIndex, below',
    (Trail.at?_lane position_eq at_lane).trans at_place⟩

variable [Game G]

/-- A stop that is settled with a move rests with it, below the marks it had around. -/
theorem of_settle {s : Stop G} {g : G} {settled : Trail} (waits : Waits trail flow scope s)
    (found : trail.at? s.place = some (.cons mark below))
    (settles : s.settle g (.taken move) trail = .ok settled) :
    RestsWith settled flow scope s.place (trail.around s.place) mark.name move := by
  induction waits generalizing settled with
  | here waiting =>
      cases found
      obtain ⟨entered, enters, settles⟩ := bind_eq_ok.1 settles
      cases settles
      obtain ⟨below', rfl, -⟩ := enter_eq_ok (Playing.ofChecked_eq_ok.1 enters)
      exact ⟨⟨_, _, .here⟩, rfl, _, below', rfl⟩
  | down next inner ih =>
      rw [Stop.settle_within_down] at settles
      obtain ⟨below', below_settles, rfl⟩ := Playing.map_eq_ok.1 settles
      exact (ih found below_settles).down next
  | lane kind_eq position_eq at_lane at_player not_done inner ih =>
      rw [Stop.settle_within_lane position_eq at_lane] at settles
      obtain ⟨lane', lane_settles, rfl⟩ := Playing.map_eq_ok.1 settles
      obtain ⟨lt, -⟩ := List.getElem?_eq_some_iff.1 at_lane
      have lane_rests := ih ((Trail.at?_lane position_eq at_lane).symm.trans found) lane_settles
      rw [← Trail.around_lane position_eq at_lane] at lane_rests
      exact lane_rests.beside kind_eq rfl (List.getElem?_set_self lt) at_player

/-- Through a turn a step rests with its move, below the same marks, as long as a step
rests there at all. -/
theorem turn {may : ActionStatus → Prop}
    (rests : RestsWith trail flow scope place marks name move)
    (turn : Turn may trail flow scope trail') (still : trail'.TakenAt place) :
    RestsWith trail' flow scope place marks name move := by
  obtain ⟨⟨node, inner, stands⟩, rfl, stepIndex, below', at_place⟩ := rests
  induction stands generalizing trail' with
  | here =>
      cases at_place
      obtain ⟨_, _, ⟨⟩, at_node⟩ := exists_turnAt_of_turn turn
      cases at_node with
      | stays | node => exact ⟨⟨_, _, .here⟩, rfl, stepIndex, _, rfl⟩
      | went_on _ went_on =>
          obtain ⟨⟨name', position', stepIndex'⟩, below'', rfl, ⟨name_eq, same⟩, -⟩ := went_on
          obtain rfl : name' = name := name_eq
          rcases same with position_eq | ⟨bare, -⟩
          · obtain rfl : position' = .action (.taken move) := position_eq
            exact ⟨⟨_, _, .here⟩, rfl, stepIndex', below'', rfl⟩
          · cases bare
      | lanes _ position_eq => cases position_eq
      | settled _ waiting =>
          unfold waiting? at waiting
          split at waiting <;> simp_all
  | down next stands ih =>
      obtain ⟨_, _, ⟨⟩, at_node⟩ := exists_turnAt_of_turn turn
      have single := isParallel_of_next? next
      cases at_node with
      | stays => exact RestsWith.down next ⟨⟨_, _, stands⟩, rfl, stepIndex, below', at_place⟩
      | went_on _ went_on =>
          -- What is below the node now was just entered, and nothing rests there.
          obtain ⟨mark', below'', rfl, -, untaken⟩ := went_on
          exact absurd still (untaken _)
      | node next' turned =>
          obtain ⟨⟩ := next.symm.trans next'
          exact (ih turned still at_place).down next
      | lanes kind_eq => simp [isParallel, kind_eq] at single
      | settled _ _ _ _ untaken => exact absurd still (untaken _)
  | lane kind_eq position_eq at_lane at_player stands ih =>
      obtain ⟨_, _, ⟨⟩, at_node⟩ := exists_turnAt_of_turn turn
      rw [Trail.at?_lane position_eq at_lane] at at_place
      rw [Trail.around_lane position_eq at_lane]
      have rests : RestsWith _ _ _ _ _ name move :=
        ⟨⟨_, _, stands⟩, rfl, stepIndex, below', at_place⟩
      cases at_node with
      | stays => exact RestsWith.beside kind_eq position_eq at_lane at_player rests
      | went_on single => simp [isParallel, kind_eq] at single
      | node next =>
          have single := isParallel_of_next? next
          simp [isParallel, kind_eq] at single
      | lanes kind_eq' position_eq' turns =>
          -- The trail of the step is left, or it is the one that takes the turn.
          obtain ⟨⟩ := kind_eq.symm.trans kind_eq'
          obtain ⟨⟩ := position_eq.symm.trans position_eq'
          obtain ⟨_, _, _, lane', ⟨⟩, at_lane', still⟩ := Trail.takenAt_lane.1 still
          obtain ⟨lane, at_lane'', turned⟩ := turns _ _ at_lane'
          obtain ⟨⟩ := at_lane.symm.trans at_lane''
          rcases turned with rfl | ⟨player, at_player', turned⟩
          · exact RestsWith.beside kind_eq rfl at_lane' at_player rests
          · obtain ⟨⟩ := at_player.symm.trans at_player'
            exact RestsWith.beside kind_eq rfl at_lane' at_player (ih turned still at_place)
      | settled _ waiting => simp [waiting?, kind_eq] at waiting

end RestsWith

/-- A flow comes from a trail to another one by units of play and by stops that are
skipped. -/
def GoesTo [Game G] (flow : Flow G) (scope : Scope) : Trail → Trail → Prop :=
  Relation.ReflTransGen fun trail trail' => Turn (· = .skipped) trail flow scope trail'

/-- Where a step rests after a flow went on by itself, it rested all the time: no move was
taken on the way. -/
theorem restsWith_of_goesTo [Game G] {flow : Flow G} {scope : Scope} {trail trail' : Trail}
    {place : Place} {marks : List (Mark Trail)} {name : Option String} {move : Taken}
    (goes : flow.GoesTo scope trail trail')
    (rests : trail.TakenAt place → RestsWith trail flow scope place marks name move)
    (taken : trail'.TakenAt place) : RestsWith trail' flow scope place marks name move := by
  induction goes with
  | refl => exact rests taken
  | tail before turn ih => exact (ih (turn.takenAt nofun taken)).turn turn taken

end Flow

end Tabletop
