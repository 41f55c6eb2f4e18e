import Tabletop.Proofs.Flow.Units

/-! # Going on

A node goes on when the step it stands at is finished, or ends with an interrupt that the
node takes in. It is then entered at another mark: at another step of its block or behind
it, in the next iteration, or outside of a loop that it has left. Otherwise it stays where it
is.

Main statements: `play_node_cases` and `play_leaf_cases`, by what the node stands at.
-/

namespace Tabletop

variable {G : Type}

namespace Flow

/-! ### Leaving a step -/

/-- A node leaves the step it stands at if the step is finished, or if it ends with an
interrupt that the node takes in. -/
def leaves (flow : Flow G) : Signal → Bool
  | .complete => true
  | .interrupt _ => flow.isLoop
  | .moved | .awaiting => false

/-- How a node goes on from its mark: it stands at another step of its block, behind it, in
the next iteration, or outside of a loop that it has left. -/
inductive Moves (g : G) (flow : Flow G) (scope : Scope) (mark : Mark Trail) : Mark Trail → Prop
  | still (dead : flow.liveBlock mark = none) : Moves g flow scope mark mark
  | step {block : Block G} (index : Nat) (live : flow.liveBlock mark = some block) :
      Moves g flow scope mark (mark.withStep index)
  | next {position} (loop : flow.isLoop)
      (next : nextPosition g scope.args flow.kind mark.position = some position) :
      Moves g flow scope mark
        { mark with position, stepIndex := if position.isRunning then some 0 else none }
  | left (loop : flow.isLoop) :
      Moves g flow scope mark { mark with position := mark.position.left, stepIndex := none }

/-- A node goes on from its mark and is entered at another one. -/
def EntersNext [Game G] (g : G) (flow : Flow G) (scope : Scope) (mark : Mark Trail)
    (trail : Trail) : Prop :=
  ∃ mark', Moves g flow scope mark mark' ∧ flow.enter g scope mark' = .ok trail

section GoOn

variable [Game G] {flow : Flow G} {scope : Scope} {mark : Mark Trail} {below trail : Trail} {g : G}
  {signal ended : Signal} {step : Step G (Flow G)}

/-- A node that does not leave its step stays where it is. -/
theorem goOn_of_stays (stays : flow.leaves ended = false) :
    flow.goOn g scope mark below ended = .ok (ended, .cons mark below) := by
  cases ended with
  | complete => cases stays
  | interrupt i =>
      have not_loop : flow.isLoop = false := stays
      simp only [goOn, not_loop]
      rfl
  | _ => rfl

omit [Game G] in
theorem isLoop_of_nextPosition {args : Args} {position position' : Position Trail}
    (next : nextPosition g args flow.kind position = some position') : flow.isLoop := by
  obtain ⟨name, kind⟩ := flow
  cases kind with
  | loop | count | each => rfl
  | _ => simp [nextPosition] at next

/-- A node that is entered at a mark stands at it. -/
theorem exists_cons_of_enter (enters : flow.enter g scope mark = .ok trail) :
    ∃ below, trail = .cons mark below := by
  unfold enter at enters
  split at enters
  · obtain ⟨below, -, enters⟩ := bind_eq_ok.1 enters
    cases enters
    exact ⟨below, rfl⟩
  · cases enters
    exact ⟨.nil, rfl⟩

theorem EntersNext.exists_moves (enters_next : EntersNext g flow scope mark trail) :
    ∃ mark' below, trail = .cons mark' below ∧ Moves g flow scope mark mark' := by
  obtain ⟨mark', moves, enters⟩ := enters_next
  obtain ⟨below, trail_eq⟩ := exists_cons_of_enter enters
  exact ⟨mark', below, trail_eq, moves⟩

/-- A node with nothing live is entered with nothing below. -/
theorem enter_of_dead (dead : flow.next? mark = none) :
    flow.enter g scope mark = .ok (.cons mark .nil) := by
  simp only [enter, dead]

theorem entersNext_of_nextIteration (h : flow.nextIteration g scope mark = .ok (signal, trail)) :
    EntersNext g flow scope mark trail := by
  unfold nextIteration at h
  split at h
  · cases h
  · rename_i position next
    have loop := isLoop_of_nextPosition next
    refine ⟨_, .next loop next, ?_⟩
    split at h
    · rename_i running
      obtain ⟨entered, enters, h⟩ := bind_eq_ok.1 h
      cases h
      rw [if_pos running]
      exact Playing.ofChecked_eq_ok.1 enters
    · rename_i finished
      cases h
      rw [if_neg finished]
      apply enter_of_dead
      rw [next?, liveBlock_of_not_isRunning loop (by simpa using finished)]
      rfl

theorem entersNext_of_finishBlock (h : flow.finishBlock g scope mark = .ok (signal, trail)) :
    EntersNext g flow scope mark trail := by
  unfold finishBlock at h
  split at h
  · exact entersNext_of_nextIteration h
  · cases h
    unfold atEnd
    cases live : flow.liveBlock mark with
    | none =>
        refine ⟨mark, .still live, enter_of_dead ?_⟩
        rw [next?, live]
        rfl
    | some block =>
        refine ⟨_, .step block.length live, enter_of_dead ?_⟩
        rw [next?_eq (by simpa using live)]
        simp

/-- A step of the live block is entered. -/
theorem entersNext_of_step {block : Block G} (index : Nat) (live : flow.liveBlock mark = some block)
    (h : (do
      let trail ← (flow.enter g scope (mark.withStep index) : Playing Trail)
      pure (Signal.moved, trail) : Playing (Signal × Trail)) = .ok (signal, trail)) :
    EntersNext g flow scope mark trail := by
  obtain ⟨entered, enters, h⟩ := bind_eq_ok.1 h
  cases h
  exact ⟨_, .step index live, Playing.ofChecked_eq_ok.1 enters⟩

/-- A node that leaves its step goes on, and asks nothing of the nodes above. -/
theorem entersNext_of_goOn (next : flow.next? mark = some step) (leaves : flow.leaves ended)
    (h : flow.goOn g scope mark below ended = .ok (signal, trail)) :
    EntersNext g flow scope mark trail ∧ signal.GoesOn := by
  obtain ⟨block, live, -⟩ := Option.bind_eq_some_iff.1 next
  cases ended with
  | complete =>
      refine ⟨?_, advance_goesOn h⟩
      replace h : flow.advance g scope mark = .ok (signal, trail) := h
      unfold advance at h
      split at h
      · exact entersNext_of_step _ live h
      · exact entersNext_of_finishBlock h
  | interrupt i =>
      have loop : flow.isLoop := leaves
      replace h : flow.takeIn g scope mark i = .ok (signal, trail) := by
        simpa only [goOn, loop, if_true] using h
      refine ⟨?_, takeIn_goesOn h⟩
      cases i with
      | skipOn => exact entersNext_of_nextIteration h
      | again => exact entersNext_of_step 0 live h
      | leave =>
          cases h
          refine ⟨_, .left loop, enter_of_dead ?_⟩
          have finished : mark.position.left.isRunning = false := by cases mark.position <;> rfl
          rw [next?, liveBlock_of_not_isRunning loop finished]
          rfl
  | _ => cases leaves

end GoOn

/-! ### One unit -/

section Single

variable [Game G] {flow child : Flow G} {scope : Scope} {mark : Mark Trail} {below : Trail} {g : G}
  {dice : Dice} {p : Progress Trail G}

/-- A node stays at its mark while the node below it plays, or it leaves that one. -/
theorem play_node_cases (next : flow.next? mark = some (.node child))
    (played : play (.cons mark below) flow scope g dice = .ok p) :
    ∃ q, play below child (scope.enter flow mark) g dice = .ok q ∧
      (flow.leaves q.signal = false ∧ p = { q with trail := .cons mark q.trail } ∨
        flow.leaves q.signal ∧ EntersNext p.game flow scope mark p.trail ∧ p.signal.GoesOn) := by
  obtain ⟨q, signal, trail, below_played, goes_on, rfl⟩ :=
    (play_node_eq_ok (isParallel_of_next? next) (waiting?_of_next? next) next).1 played
  refine ⟨q, below_played, ?_⟩
  cases leaves : flow.leaves q.signal with
  | true => exact .inr ⟨rfl, entersNext_of_goOn next leaves goes_on⟩
  | false =>
      rw [goOn_of_stays leaves] at goes_on
      cases goes_on
      exact .inl ⟨rfl, rfl⟩

/-- A node that does not stand at another one stays where it is, or it goes on. -/
theorem play_leaf_cases (single : flow.isParallel = false)
    (leaf : ∀ child, flow.next? mark ≠ some (.node child))
    (played : play (.cons mark below) flow scope g dice = .ok p) :
    p.trail = .cons mark below ∨ EntersNext p.game flow scope mark p.trail := by
  cases waiting : flow.waiting? mark with
  | some step =>
      rw [play_waiting (by simp [waiting])] at played
      cases played
      exact .inl rfl
  | none =>
      rcases next : flow.next? mark with _ | callback | child
      · rw [play_finish single waiting next] at played
        obtain ⟨⟨signal, trail⟩, ends, played⟩ := bind_eq_ok.1 played
        cases played
        exact .inr (entersNext_of_finishBlock ends)
      · rw [play_call single waiting next] at played
        obtain ⟨r, -, played⟩ := bind_eq_ok.1 played
        obtain ⟨⟨signal, trail⟩, goes_on, played⟩ := bind_eq_ok.1 played
        cases played
        cases leaves : flow.leaves r.control.signal with
        | true => exact .inr (entersNext_of_goOn next leaves goes_on).1
        | false =>
            rw [goOn_of_stays leaves] at goes_on
            cases goes_on
            exact .inl rfl
      · exact absurd next (leaf child)

/-- In its unit a node with one trail below it stays at its mark, or goes on from it. -/
theorem exists_moves_of_play (single : flow.isParallel = false)
    (played : play (.cons mark below) flow scope g dice = .ok p) :
    ∃ mark' below', p.trail = .cons mark' below' ∧
      (mark' = mark ∨ Moves p.game flow scope mark mark') := by
  by_cases node : ∃ child, flow.next? mark = some (.node child)
  · obtain ⟨child, next⟩ := node
    obtain ⟨q, -, ⟨-, rfl⟩ | ⟨-, enters_next, -⟩⟩ := play_node_cases next played
    · exact ⟨mark, q.trail, rfl, .inl rfl⟩
    · obtain ⟨mark', below', trail_eq, moves⟩ := enters_next.exists_moves
      exact ⟨mark', below', trail_eq, .inr moves⟩
  · rcases play_leaf_cases single (not_exists.1 node) played with same | enters_next
    · exact ⟨mark, below, same, .inl rfl⟩
    · obtain ⟨mark', below', trail_eq, moves⟩ := enters_next.exists_moves
      exact ⟨mark', below', trail_eq, .inr moves⟩

end Single

end Flow

end Tabletop
