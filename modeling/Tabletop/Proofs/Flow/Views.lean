import Tabletop.Proofs.Flow.Sight

/-! # Nothing else is seen

A flow can be looked at through a view: where a callback of a node would get arguments, it
gets what the view makes of them. A view that leaves alone all that `Called` collects makes
no difference, whatever it does to other arguments: the same is entered, a unit of play is
the same, and so are the stops, the players who may move there, and what is left when one is
settled. So `Called` leaves nothing out. The callbacks of steps are not looked at in this way,
since each unit tells what it ran.

Main statements: `reset_through`, `play_through`, `stops_through`, `eligible_through` and
`settle_through`.
-/

namespace Tabletop

variable {G : Type}

namespace Flow

/-! ### Flows through a view -/

/-- A callback that gets a view of the arguments. -/
def viewed {α : Type} (view : Args → Args) (callback : G → Args → α) : G → Args → α :=
  fun g args => callback g (view args)

mutual
/-- The flow whose nodes get a view of the arguments. The callbacks of steps are left alone. -/
def through (view : Args → Args) : Flow G → Flow G
  | ⟨name, kind⟩ => ⟨name, kindThrough view kind⟩
termination_by structural flow => flow
/-- What a node does with a view of the arguments. -/
def kindThrough (view : Args → Args) : FlowKind G (Flow G) → FlowKind G (Flow G)
  | .sequence block => .sequence (blockThrough view block)
  | .loop condition body => .loop (condition.map (viewed view)) (blockThrough view body)
  | .count initial next test body =>
      .count (viewed view initial) next test (blockThrough view body)
  | .each collection setsPlayer body =>
      .each (viewed view collection) setsPlayer (blockThrough view body)
  | .switch value cases default =>
      .switch (viewed view value) (casesThrough view cases) (defaultThrough view default)
  | .action step => .action (stepThrough view step)
  | .parallel players body => .parallel (players.map (viewed view)) (body.through view)
termination_by structural kind => kind
/-- The steps of a block with a view of the arguments. -/
def blockThrough (view : Args → Args) : List (Step G (Flow G)) → List (Step G (Flow G))
  | [] => []
  | .call callback :: rest => .call callback :: blockThrough view rest
  | .node flow :: rest => .node (flow.through view) :: blockThrough view rest
termination_by structural block => block
/-- The cases of a switch with a view of the arguments. -/
def casesThrough (view : Args → Args) : List (Case G (Flow G)) → List (Case G (Flow G))
  | [] => []
  | ⟨test, block⟩ :: rest => ⟨test, blockThrough view block⟩ :: casesThrough view rest
termination_by structural cases => cases
/-- The default block of a switch with a view of the arguments. -/
def defaultThrough (view : Args → Args) :
    Option (List (Step G (Flow G))) → Option (List (Step G (Flow G)))
  | none => none
  | some block => some (blockThrough view block)
termination_by structural default => default
/-- An action step with a view of the arguments. -/
def stepThrough (view : Args → Args) : ActionStep G (Flow G) → ActionStep G (Flow G)
  | ⟨players, prompt, passPrompt, actions⟩ =>
      ⟨players.map (viewed view), prompt, passPrompt, actionsThrough view actions⟩
termination_by structural step => step
/-- The actions of a step with a view of the arguments. -/
def actionsThrough (view : Args → Args) :
    List (StepAction G (Flow G)) → List (StepAction G (Flow G))
  | [] => []
  | ⟨name, block, prefilled, expanded⟩ :: rest =>
      ⟨name, blockThrough view block, prefilled, expanded⟩ :: actionsThrough view rest
termination_by structural actions => actions
end

/-- An entry of a block with a view of the arguments. -/
def entryThrough (view : Args → Args) : Step G (Flow G) → Step G (Flow G)
  | .call callback => .call callback
  | .node flow => .node (flow.through view)

section Through

variable {view : Args → Args} {flow : Flow G} {mark : Mark Trail} {scope : Scope}

theorem through_eq (flow : Flow G) :
    flow.through view = ⟨flow.name, kindThrough view flow.kind⟩ := by
  obtain ⟨name, kind⟩ := flow
  rfl

@[simp] theorem name_through : (flow.through view).name = flow.name := by rw [through_eq]

theorem blockThrough_eq (block : Block G) :
    blockThrough view block = block.map (entryThrough view) := by
  induction block with
  | nil => rfl
  | cons step rest ih =>
      cases step with
      | call callback => exact congrArg (Step.call callback :: ·) ih
      | node flow => exact congrArg (Step.node (flow.through view) :: ·) ih

theorem casesThrough_eq (cases : List (Case G (Flow G))) :
    casesThrough view cases = cases.map fun c => ⟨c.test, blockThrough view c.block⟩ := by
  induction cases with
  | nil => rfl
  | cons c rest ih => exact congrArg (⟨c.test, blockThrough view c.block⟩ :: ·) ih

theorem defaultThrough_eq (default : Option (Block G)) :
    defaultThrough view default = default.map (blockThrough view) := by
  cases default <;> rfl

/-- An action is offered under its name whatever the view is. -/
theorem find?_stepThrough (step : ActionStep G (Flow G)) (name : String) :
    (stepThrough view step).find? name =
      (step.find? name).map fun a => { a with block := blockThrough view a.block } := by
  obtain ⟨players, prompt, passPrompt, actions⟩ := step
  unfold ActionStep.find?
  dsimp only [stepThrough]
  induction actions with
  | nil => rfl
  | cons a rest ih =>
      obtain ⟨actionName, block, prefilled, expanded⟩ := a
      simp only [actionsThrough, List.find?_cons]
      cases actionName == name with
      | true => rfl
      | false => exact ih

theorem kind_through_parallel {players : Option (G → Args → Checked (List Player))}
    {body : Flow G} (kind_eq : flow.kind = .parallel players body) :
    (flow.through view).kind = .parallel (players.map (viewed view)) (body.through view) := by
  rw [through_eq, kind_eq]
  rfl

@[simp] theorem isLoop_through : (flow.through view).isLoop = flow.isLoop := by
  obtain ⟨name, kind⟩ := flow
  cases kind <;> rfl

@[simp] theorem isSequence_through : (flow.through view).isSequence = flow.isSequence := by
  obtain ⟨name, kind⟩ := flow
  cases kind <;> rfl

@[simp] theorem isParallel_through : (flow.through view).isParallel = flow.isParallel := by
  obtain ⟨name, kind⟩ := flow
  cases kind <;> rfl

@[simp] theorem label_through : (flow.through view).label = flow.label := by
  obtain ⟨name, kind⟩ := flow
  cases kind <;> rfl

@[simp] theorem invalid_through {α : Type} (mismatch : Mismatch) :
    ((flow.through view).invalid mismatch : Playing α) = flow.invalid mismatch := by
  rw [invalid, invalid, label_through]

@[simp] theorem scope_enter_through :
    scope.enter (flow.through view) mark = scope.enter flow mark := by
  obtain ⟨name, kind⟩ := flow
  obtain ⟨markName, position, stepIndex⟩ := mark
  cases kind <;> rfl

/-- The block that runs is the same, with the view. -/
theorem liveBlock_through :
    (flow.through view).liveBlock mark = (flow.liveBlock mark).map (blockThrough view) := by
  obtain ⟨name, kind⟩ := flow
  obtain ⟨markName, position, stepIndex⟩ := mark
  cases kind with
  | switch value cases default =>
      cases position with
      | switch index isDefault value =>
          rcases index with _ | index
          · cases isDefault with
            | false => rfl
            | true => exact defaultThrough_eq default
          · simp only [through, kindThrough, liveBlock, casesThrough_eq, List.getElem?_map,
              Option.map_map]
            rfl
      | _ => rfl
  | action step =>
      cases position with
      | action status =>
          cases status with
          | taken move =>
              simp only [through, kindThrough, liveBlock, find?_stepThrough, Option.map_map]
              cases step.find? move.name with
              | none => rfl
              | some a =>
                  obtain ⟨actionName, block, prefilled, expanded⟩ := a
                  cases block with
                  | nil => rfl
                  | cons step rest => cases step <;> rfl
          | _ => rfl
      | _ => rfl
  | loop condition body =>
      cases position with
      | loop index value => cases index <;> rfl
      | _ => rfl
  | count initial next test body =>
      cases position with
      | loop index value => cases index <;> rfl
      | _ => rfl
  | each collection setsPlayer body =>
      cases position with
      | each index value items => cases index <;> rfl
      | _ => rfl
  | _ => cases position <;> rfl

/-- The step that runs next is the same, with the view. -/
theorem next?_through :
    (flow.through view).next? mark = (flow.next? mark).map (entryThrough view) := by
  unfold next?
  rw [liveBlock_through]
  cases flow.liveBlock mark with
  | none => rfl
  | some block =>
      change (blockThrough view block)[mark.step]? = block[mark.step]?.map (entryThrough view)
      rw [blockThrough_eq, List.getElem?_map]

theorem waiting?_through :
    (flow.through view).waiting? mark = (flow.waiting? mark).map (stepThrough view) := by
  obtain ⟨name, kind⟩ := flow
  obtain ⟨markName, position, stepIndex⟩ := mark
  cases kind with
  | action step =>
      cases position with
      | action status => cases status <;> rfl
      | _ => rfl
  | _ => rfl

@[simp] theorem atFirstStep_through :
    (flow.through view).atFirstStep mark = flow.atFirstStep mark := by
  unfold atFirstStep
  rw [liveBlock_through, Option.map_map]
  rfl

@[simp] theorem atEnd_through : (flow.through view).atEnd mark = flow.atEnd mark := by
  unfold atEnd
  rw [liveBlock_through]
  cases flow.liveBlock mark with
  | none => rfl
  | some block => simp [blockThrough_eq]

@[simp] theorem freshMark_through (position : Position Trail) :
    (flow.through view).freshMark position = flow.freshMark position := by
  simp only [freshMark, isSequence_through, name_through, atFirstStep_through]

theorem startSwitch_through (cases : List (Case G (Flow G))) (default : Option (Block G))
    (value : Argument) :
    startSwitch (casesThrough view cases) (defaultThrough view default) value =
      startSwitch cases default value := by
  have chosen : (casesThrough view cases).findIdx? (fun c => c.test value) =
      cases.findIdx? fun c => c.test value := by
    rw [casesThrough_eq, List.findIdx?_map]
    rfl
  unfold startSwitch
  rw [chosen, defaultThrough_eq, Option.isSome_map]

theorem holds_viewed {condition : Option (G → Args → Bool)} {g : G} {args : Args}
    (same : view args = args) :
    (condition.map (viewed view)).all (fun holds => holds g args) =
      condition.all fun holds => holds g args := by
  cases condition with
  | none => rfl
  | some holds => exact congrArg (holds g) same

end Through

/-! ### Entering -/

section Enter

variable [Game G] {view : Args → Args} {flow : Flow G} {mark : Mark Trail} {scope : Scope} {g : G}

/-- The view leaves alone what is seen by the nodes that start when the flow is entered. -/
def StartsAlike (view : Args → Args) (g : G) (flow : Flow G) (scope : Scope) : Prop :=
  ∀ marks node inner, Starts g flow scope marks node inner → view inner.args = inner.args

theorem seats_through {players : Option (G → Args → Checked (List Player))}
    (same : view scope.args = scope.args) :
    seats (players.map (viewed view)) g scope.args = seats players g scope.args := by
  cases players with
  | none => rfl
  | some players => exact congrArg (players g) same

/-- A node starts in the same position if the nodes side by side in it are entered alike. -/
theorem start_through (same : StartsAlike view g flow scope)
    (body_same : ∀ child ∈ flow.children, ∀ scope, StartsAlike view g child scope →
      (child.through view).reset g scope = child.reset g scope) :
    start g (flow.through view).kind scope = start g flow.kind scope := by
  have same_here : view scope.args = scope.args := same _ _ _ .here
  obtain ⟨name, kind⟩ := flow
  cases kind with
  | loop condition body =>
      simp only [through, kindThrough, start, startLoop, holds_viewed same_here]
  | count initial next test body => simp only [through, kindThrough, start, viewed, same_here]
  | each collection setsPlayer body => simp only [through, kindThrough, start, viewed, same_here]
  | switch value cases default =>
      simp only [through, kindThrough, start, startSwitch_through, viewed, same_here]
  | parallel players body =>
      simp only [through, kindThrough, start, seats_through same_here]
      refine bind_congr_of_ok fun seated seated_eq => ?_
      refine congrArg (· >>= _) (mapM_congr_of_mem fun player mem => ?_)
      have body_mem : body ∈ children ⟨name, .parallel players body⟩ :=
        mem_children.2 (.inr ⟨players, rfl⟩)
      refine body_same body body_mem _ fun marks node inner starts => ?_
      exact same _ _ _ (.beside rfl seated_eq mem starts)
  | _ => rfl

/-- A node is entered alike at a mark if the node below it is. -/
theorem enter_through (child_same : ∀ child, flow.next? mark = some (.node child) →
      (child.through view).reset g (scope.enter flow mark) =
        child.reset g (scope.enter flow mark)) :
    (flow.through view).enter g scope mark = flow.enter g scope mark := by
  unfold enter
  rw [next?_through, scope_enter_through]
  rcases next : flow.next? mark with _ | callback | child
  · rfl
  · rfl
  · exact congrArg (· >>= fun below => pure (Trail.cons mark below)) (child_same child next)

/-- A flow is entered alike. -/
theorem reset_through (same : StartsAlike view g flow scope) :
    (flow.through view).reset g scope = flow.reset g scope := by
  induction flow using Flow.induction generalizing scope with
  | node flow children =>
      rw [reset_eq, reset_eq, start_through same fun child mem _ => children child mem]
      refine bind_congr_of_ok fun position starts => ?_
      rw [freshMark_through]
      refine enter_through fun child next => children child (mem_children_of_next? next) ?_
      exact fun marks node inner further => same _ _ _ (.inside starts next further)

end Enter

/-! ### Going on -/

section GoOn

variable [Game G] {view : Args → Args} {flow : Flow G} {mark : Mark Trail} {below : Trail}
  {scope : Scope} {g : G}

/-- The view leaves alone what a node sees, and what is seen by the nodes that start when it is
entered in a turn. -/
structure GoesOnAlike (view : Args → Args) (flow : Flow G) (scope : Scope) (mark : Mark Trail) :
    Prop where
  here : view scope.args = scope.args
  next : ∀ g mark' child, Comes g flow scope mark mark' → flow.next? mark' = some (.node child) →
    StartsAlike view g child (scope.enter flow mark')

/-- A node is entered alike at a mark that it goes on to. -/
theorem GoesOnAlike.enter {mark' : Mark Trail} (same : GoesOnAlike view flow scope mark)
    (comes : ∀ child, flow.next? mark' = some (.node child) → Comes g flow scope mark mark') :
    (flow.through view).enter g scope mark' = flow.enter g scope mark' :=
  enter_through fun child next => reset_through (same.next g mark' child (comes child next) next)

theorem GoesOnAlike.enter_withStep (same : GoesOnAlike view flow scope mark) (index : Nat) :
    (flow.through view).enter g scope (mark.withStep index) =
      flow.enter g scope (mark.withStep index) := by
  refine same.enter fun child next => ?_
  obtain ⟨block, live, -⟩ := Option.bind_eq_some_iff.1 next
  rw [liveBlock_withStep] at live
  exact .goes_on (.step index live)

omit [Game G] in
theorem nextPosition_through {position : Position Trail} (same : view scope.args = scope.args) :
    nextPosition g scope.args (flow.through view).kind position =
      nextPosition g scope.args flow.kind position := by
  obtain ⟨name, kind⟩ := flow
  cases kind with
  | loop condition body =>
      cases position with
      | loop index value =>
          simp only [through, kindThrough, nextPosition, nextLoop, holds_viewed same]
      | _ => rfl
  | _ => cases position <;> rfl

theorem nextIteration_through (same : GoesOnAlike view flow scope mark) :
    (flow.through view).nextIteration g scope mark = flow.nextIteration g scope mark := by
  unfold nextIteration
  rw [nextPosition_through same.here]
  cases next : nextPosition g scope.args flow.kind mark.position with
  | none => exact invalid_through _
  | some position =>
      dsimp only
      split
      · rename_i running
        have moves := Moves.next (isLoop_of_nextPosition next) next
        rw [if_pos running] at moves
        rw [same.enter fun _ _ => .goes_on moves]
      · rfl

theorem finishBlock_through (same : GoesOnAlike view flow scope mark) :
    (flow.through view).finishBlock g scope mark = flow.finishBlock g scope mark := by
  unfold finishBlock
  rw [isLoop_through, nextIteration_through same, atEnd_through]

theorem advance_through (same : GoesOnAlike view flow scope mark) :
    (flow.through view).advance g scope mark = flow.advance g scope mark := by
  have length_eq : ((flow.through view).liveBlock mark).map List.length =
      (flow.liveBlock mark).map List.length := by
    rw [liveBlock_through, Option.map_map]
    refine congrArg (Option.map · _) (funext fun block => ?_)
    rw [Function.comp, blockThrough_eq, List.length_map]
  unfold advance
  rw [length_eq, same.enter_withStep, finishBlock_through same]

theorem goOn_through (same : GoesOnAlike view flow scope mark) (signal : Signal) :
    (flow.through view).goOn g scope mark below signal = flow.goOn g scope mark below signal := by
  cases signal with
  | complete => exact advance_through same
  | interrupt i =>
      unfold goOn
      rw [isLoop_through]
      unfold takeIn
      rw [nextIteration_through same, same.enter_withStep]
  | _ => rfl

end GoOn

/-! ### Playing -/

section Play

variable [Game G] {view : Args → Args} {flow body : Flow G} {mark : Mark Trail}
  {trail below : Trail} {scope inner : Scope} {g : G} {dice : Dice}

/-- The view leaves alone all that a turn can call. -/
def CalledAlike (view : Args → Args) (trail : Trail) (flow : Flow G) (scope : Scope) : Prop :=
  ∀ place marks inner, Called trail flow scope place marks inner → view inner.args = inner.args

theorem CalledAlike.goesOn (same : CalledAlike view (.cons mark below) flow scope) :
    GoesOnAlike view flow scope mark where
  here := same _ _ _ (.node .here)
  next _ _ _ comes next _ _ _ starts := same _ _ _ (.entered .here rfl comes next starts)

theorem CalledAlike.down {child : Flow G} (same : CalledAlike view (.cons mark below) flow scope)
    (next : flow.next? mark = some (.node child)) :
    CalledAlike view below child (scope.enter flow mark) :=
  fun _ _ _ called => same _ _ _ (called.down next)

/-- Players side by side are played alike if each of them is. -/
theorem playLanes_through {lanes : List Trail} {players : List Player} {completed : List Bool}
    (each : ∀ (index : Nat) lane player, lanes[index]? = some lane →
      players[index]? = some player → ∀ g dice,
        play lane (body.through view) (scope.withPlayer player) g dice =
          play lane body (scope.withPlayer player) g dice) :
    playLanes lanes (flow.through view) (body.through view) players completed scope g dice =
      playLanes lanes flow body players completed scope g dice := by
  induction lanes generalizing players completed g dice with
  | nil =>
      rcases players with _ | ⟨player, players⟩ <;> rcases completed with _ | ⟨done, completed⟩
      · rfl
      all_goals exact invalid_through _
  | cons lane lanes ih =>
      rcases players with _ | ⟨player, players⟩
      · rcases completed with _ | ⟨_ | _, completed⟩ <;> exact invalid_through _
      have later (completed : List Bool) (g : G) (dice : Dice) :
          playLanes lanes (flow.through view) (body.through view) players completed scope g dice =
            playLanes lanes flow body players completed scope g dice :=
        ih fun index lane player => each (index + 1) lane player
      rcases completed with _ | ⟨_ | _, completed⟩
      · exact invalid_through _
      · rw [playLanes, playLanes, each 0 lane player rfl rfl]
        simp only [later]
      · rw [playLanes, playLanes, later]

/-- A unit of play is the same. -/
theorem play_through (same : CalledAlike view trail flow scope) :
    play trail (flow.through view) scope g dice = play trail flow scope g dice := by
  induction trail using Trail.induction generalizing flow scope g dice with
  | nil => exact invalid_through _
  | cons mark below below_same lanes_same =>
      cases hp : flow.isParallel with
      | true =>
          obtain ⟨players, body, kind_eq⟩ := eq_parallel_of_isParallel hp
          have at_mark : playMark mark (flow.through view) (body.through view) scope g dice =
              playMark mark flow body scope g dice := by
            obtain ⟨name, position, stepIndex⟩ := mark
            rw [playMark, playMark]
            cases position with
            | parallel seated lanes completed =>
                rw [playPosition, playPosition, playLanes_through]
                intro index lane player at_lane at_player g dice
                refine lanes_same _ _ _ rfl lane (List.mem_of_getElem? at_lane) ?_
                intro place marks inner called
                exact same _ _ _ (called.lane kind_eq rfl at_lane at_player)
            | _ => exact congrArg (· >>= _) (invalid_through _)
          rw [play_parallel kind_eq, play_parallel (kind_through_parallel kind_eq), at_mark]
      | false =>
          have hp' : (flow.through view).isParallel = false := by rw [isParallel_through, hp]
          cases hw : flow.waiting? mark with
          | some step =>
              have waits : (flow.waiting? mark).isSome := by rw [hw]; rfl
              have waits' : ((flow.through view).waiting? mark).isSome := by
                rwa [waiting?_through, Option.isSome_map]
              rw [play_waiting waits, play_waiting waits']
          | none =>
              have hw' : (flow.through view).waiting? mark = none := by
                rw [waiting?_through, hw]
                rfl
              have next' : (flow.through view).next? mark =
                  (flow.next? mark).map (entryThrough view) := next?_through
              rcases hn : flow.next? mark with _ | callback | child
              · rw [hn] at next'
                rw [play_finish hp hw hn, play_finish hp' hw' next',
                  finishBlock_through same.goesOn]
              · rw [hn] at next'
                rw [play_call hp hw hn, play_call hp' hw' next', scope_enter_through]
                simp only [goOn_through same.goesOn]
              · rw [hn] at next'
                rw [play_node hp hw hn, play_node hp' hw' next', scope_enter_through,
                  below_same (same.down hn)]
                simp only [goOn_through same.goesOn]

end Play

end Flow

/-- The stop with a view of the arguments. -/
def Stop.through (view : Args → Args) (s : Stop G) : Stop G :=
  { s with flow := s.flow.through view, step := Flow.stepThrough view s.step }

namespace Flow

/-! ### Stops -/

section Stops

variable {view : Args → Args} {flow body : Flow G} {trail : Trail} {scope : Scope} {s : Stop G}

theorem map_through_within (outer : Place → Place) (stops : List (Stop G)) :
    (stops.map (Stop.through view)).map (Stop.within outer) =
      (stops.map (Stop.within outer)).map (Stop.through view) := by
  rw [List.map_map, List.map_map]
  rfl

theorem laneStops_through {lanes : List Trail} {players : List Player} {completed : List Bool}
    {first : Nat}
    (each : ∀ lane ∈ lanes, ∀ scope,
      stops lane (body.through view) scope = (stops lane body scope).map (Stop.through view)) :
    laneStops lanes (body.through view) players completed first scope =
      (laneStops lanes body players completed first scope).map (Stop.through view) := by
  induction lanes generalizing players completed first with
  | nil => rfl
  | cons lane lanes ih =>
      obtain ⟨lane_same, lanes_same⟩ := List.forall_mem_cons.1 each
      rcases players with _ | ⟨player, players⟩
      · rfl
      rcases completed with _ | ⟨_ | _, completed⟩
      · rfl
      · simp only [laneStops, ih lanes_same, lane_same, map_through_within]
        exact List.map_append.symm
      · exact ih lanes_same

/-- A flow waits at the same stops. -/
theorem stops_through :
    stops trail (flow.through view) scope = (stops trail flow scope).map (Stop.through view) := by
  induction trail using Trail.induction generalizing flow scope with
  | nil => rfl
  | cons mark below below_same lanes_same =>
      cases hp : flow.isParallel with
      | true =>
          obtain ⟨players, body, kind_eq⟩ := eq_parallel_of_isParallel hp
          rw [stops_parallel kind_eq, stops_parallel (kind_through_parallel kind_eq)]
          obtain ⟨name, position, stepIndex⟩ := mark
          cases position with
          | parallel seated lanes completed =>
              exact laneStops_through fun lane mem _ => lanes_same _ _ _ rfl lane mem
          | _ => rfl
      | false =>
          have hp' : (flow.through view).isParallel = false := by rw [isParallel_through, hp]
          cases hw : flow.waiting? mark with
          | some step =>
              have hw' : (flow.through view).waiting? mark = some (stepThrough view step) := by
                rw [waiting?_through, hw]
                rfl
              rw [stops_here hw, stops_here hw']
              rfl
          | none =>
              have hw' : (flow.through view).waiting? mark = none := by
                rw [waiting?_through, hw]
                rfl
              rw [stops_down hp hw, stops_down hp' hw', next?_through, scope_enter_through]
              rcases flow.next? mark with _ | callback | child
              · rfl
              · rfl
              · change (stops below (child.through view) _).map _ = _
                rw [below_same, map_through_within]

/-- Where a flow waits stands the node of the stop, at a mark that waits. -/
theorem Waits.stands (waits : Waits trail flow scope s) :
    Stands trail flow scope s.place s.flow s.scope ∧
      ∃ mark below, trail.at? s.place = some (.cons mark below) ∧
        s.flow.waiting? mark = some s.step := by
  induction waits with
  | here waiting => exact ⟨.here, _, _, rfl, waiting⟩
  | down next inner ih => exact ⟨.down next ih.1, ih.2⟩
  | lane kind_eq position_eq at_lane at_player not_done inner ih =>
      obtain ⟨stands, mark, below, at_place, waiting⟩ := ih
      exact ⟨.lane kind_eq position_eq at_lane at_player stands, mark, below,
        (Trail.at?_lane position_eq at_lane).trans at_place, waiting⟩

variable [Game G] {g : G}

/-- The same players may move at a stop. -/
theorem eligible_through (same : CalledAlike view trail flow scope)
    (mem : s ∈ stops trail flow scope) : (s.through view).eligible g = s.eligible g := by
  have same_here : view s.scope.args = s.scope.args :=
    same _ _ _ (.node (waits_of_mem_stops mem).stands.1)
  obtain ⟨node, ⟨players, prompt, passPrompt, actions⟩, place, ⟨args, player⟩⟩ := s
  cases players with
  | none => rfl
  | some players => exact congrArg (players g) same_here

/-- A stop is settled alike. -/
theorem settle_through (same : CalledAlike view trail flow scope)
    (mem : s ∈ stops trail flow scope) (status : ActionStatus) :
    (s.through view).settle g status trail = s.settle g status trail := by
  obtain ⟨stands, mark, below, at_place, waiting⟩ := (waits_of_mem_stops mem).stands
  have comes : Comes g s.flow s.scope mark
      (s.flow.atFirstStep { mark with position := .action status }) :=
    .settled status (by rw [waiting]; rfl)
  have entered : (s.flow.through view).enter g s.scope
      (s.flow.atFirstStep { mark with position := .action status }) =
        s.flow.enter g s.scope (s.flow.atFirstStep { mark with position := .action status }) :=
    enter_through fun child next => reset_through fun marks node inner starts =>
      same _ _ _ (.entered stands at_place comes next starts)
  have at_place' : trail.at? (s.through view).place = some (.cons mark below) := at_place
  rw [Stop.settle, Stop.settle, at_place, at_place']
  dsimp only [Stop.through]
  rw [atFirstStep_through, entered]

end Stops

end Flow

end Tabletop
