import Tabletop.Proofs.Flow.Fitting
import Tabletop.Proofs.Flow.Waiting
import Tabletop.Script.Host

/-! # Play keeps trails fitting

Entering a flow makes a trail that fits, and neither playing by a unit nor
settling a stop ever finds a mismatch in a trail that fits: unless a callback of
the author runs into a fault, both leave a trail behind that fits again.

## Implementation notes

Every way to go on moves the mark of a node, drops what is below, and enters the
node again. So the lemmas come in this order: what moving keeps of a mark, what
entering makes of it, and what each way to go on leaves behind.
-/

namespace Tabletop

variable {G : Type}

namespace Flow

section Mark

variable {flow : Flow G} {mark : Mark Trail} {index : Nat}

theorem FitsMark.withStep (h : FitsMark flow mark) : FitsMark flow (mark.withStep index) := by
  obtain ⟨name, position, stepIndex⟩ := mark
  obtain ⟨flowName, kind⟩ := flow
  cases position with
  | sequence =>
      obtain ⟨name_eq, hasKind, -⟩ := h
      cases kind <;> first | exact ⟨name_eq, rfl, rfl⟩ | cases hasKind
  | _ => exact ⟨h.name_eq, h.hasKind, h.position⟩

theorem FitsMark.withStep_eq (hs : flow.isSequence = false) (h : FitsMark flow mark) :
    mark.withStep index = { mark with stepIndex := some index } := by
  obtain ⟨name, position, stepIndex⟩ := mark
  obtain ⟨flowName, kind⟩ := flow
  obtain ⟨-, hasKind, -⟩ := h
  cases position with
  | sequence => cases kind <;> simp_all [Flow.hasKind, isSequence]
  | _ => rfl

/-- A mark whose step is set points into the live block if the step does. -/
theorem FitsMark.fitsStep_withStep (h : FitsMark flow mark)
    (le : ∀ block, flow.liveBlock mark = some block → index ≤ block.length) :
    FitsStep flow (mark.withStep index) := by
  intro block live
  rw [liveBlock_withStep] at live
  refine ⟨by simpa using le block live, ?_⟩
  obtain ⟨name, position, stepIndex⟩ := mark
  obtain ⟨flowName, kind⟩ := flow
  obtain ⟨-, hasKind, -⟩ := h
  cases position with
  | sequence => cases kind <;> simp_all [Flow.hasKind, isSequence]
  | _ => simp [Mark.withStep]

/-- Nothing is live, so the step does not matter. -/
theorem fitsStep_of_liveBlock (h : flow.liveBlock mark = none) : FitsStep flow mark := by
  intro block live
  rw [h] at live
  cases live

end Mark

/-! ### Entering -/

section Enter

variable [Game G] {flow : Flow G} {scope : Scope} {mark : Mark Trail} {g : G}

/-- Entering a node at a mark that fits makes a trail that fits, if entering the
nodes below does. -/
theorem enter_returns_of (hp : flow.isParallel = false) (fits : FitsMark flow mark)
    (step : FitsStep flow mark)
    (below : ∀ child ∈ flow.children, ∀ scope,
      Returns child child.Fits (Playing.ofChecked (child.reset g scope))) :
    Returns flow flow.Fits (Playing.ofChecked (flow.enter g scope mark)) := by
  unfold enter
  cases hn : flow.next? mark with
  | none => exact .ok ((fits_cons hp).2 ⟨fits, step, by simp [FitsBelow, hn]⟩)
  | some next =>
      cases next with
      | call callback => exact .ok ((fits_cons hp).2 ⟨fits, step, by simp [FitsBelow, hn]⟩)
      | node child =>
          have mem := mem_children_of_next? hn
          refine ((below child mem _).above mem).ofChecked_bind fun trail trail_fits => .ok ?_
          exact (fits_cons hp).2 ⟨fits, step, by simpa [FitsBelow, hn] using trail_fits⟩

/-- A node with blocks starts at a position it can be in. -/
theorem fitsMark_of_start {position : Position Trail} (hp : flow.isParallel = false)
    (h : start g flow.kind scope = .ok position) (stepIndex : Option Nat) :
    FitsMark flow ⟨flow.name, position, stepIndex⟩ := by
  obtain ⟨name, kind⟩ := flow
  cases kind with
  | count initial next test body =>
      cases h
      simp only [startCount]
      split <;> exact ⟨rfl, rfl, rfl⟩
  | each collection setsPlayer body =>
      simp only [start] at h
      cases hc : collection g scope.args with
      | error fault => simp [hc, bind, Except.bind] at h
      | ok items =>
          simp only [hc, bind, Except.bind, pure, Except.pure, Except.ok.injEq] at h
          subst h
          refine ⟨rfl, rfl, ?_⟩
          cases items <;> simp [fitPosition, startEach, Fit.unless]
  | switch value cases default =>
      cases h
      refine ⟨rfl, rfl, ?_⟩
      cases hi : cases.findIdx? fun c => c.test (value g scope.args) with
      | none => cases default <;> simp [fitPosition, startSwitch, hi, Fit.unless_eq_ok]
      | some index =>
          obtain ⟨lt, -⟩ := List.findIdx?_eq_some_iff_getElem.1 hi
          simp [fitPosition, startSwitch, hi, Fit.bind_eq_ok, Fit.unless_eq_ok, lt]
  | parallel players body => cases hp
  | _ =>
      cases h
      exact ⟨rfl, rfl, rfl⟩

omit [Game G] in
/-- The first step of the live block is a step a mark may stand at. -/
theorem fits_atFirstStep (hs : flow.isSequence = false) (fits : FitsMark flow mark) :
    FitsMark flow (flow.atFirstStep mark) ∧ FitsStep flow (flow.atFirstStep mark) := by
  cases hb : flow.liveBlock mark with
  | none =>
      rw [atFirstStep_of_none hb]
      have dead : flow.liveBlock { mark with stepIndex := none } = none := hb
      exact ⟨⟨fits.name_eq, fits.hasKind, fits.position⟩, fitsStep_of_liveBlock dead⟩
  | some block =>
      rw [atFirstStep_of_some hs hb]
      exact ⟨fits.withStep, fits.fitsStep_withStep fun _ _ => Nat.zero_le _⟩

/-- A node with blocks is entered at a mark that fits. -/
theorem fits_freshMark {position : Position Trail} (hp : flow.isParallel = false)
    (h : start g flow.kind scope = .ok position) :
    FitsMark flow (flow.freshMark position) ∧ FitsStep flow (flow.freshMark position) := by
  have fits := fitsMark_of_start hp h none
  unfold freshMark
  split
  · refine ⟨fits, ?_⟩
    obtain ⟨name, kind⟩ := flow
    cases kind with
    | sequence block =>
        cases h
        intro block live
        simp [isSequence, Mark.step]
    | _ => contradiction
  · rename_i hs
    exact fits_atFirstStep (by simpa using hs) fits

/-- Only a callback of the node itself keeps a node with blocks from starting. -/
theorem raises_of_start {fault : Fault} (hp : flow.isParallel = false)
    (h : start g flow.kind scope = .error fault) : flow.Raises fault := by
  obtain ⟨name, kind⟩ := flow
  cases kind with
  | each collection setsPlayer body =>
      cases hc : collection g scope.args with
      | error fault' =>
          simp only [start, hc, bind, Except.bind, Except.error.injEq] at h
          subst h
          exact .collection hc
      | ok items => simp [start, hc, bind, Except.bind, pure, Except.pure] at h
  | parallel players body => cases hp
  | _ => cases h

/-- Nodes side by side are entered with a fitting trail for each player. -/
theorem reset_parallel_returns {players : Option (G → Args → Checked (List Player))}
    {body : Flow G} (h : flow.kind = .parallel players body)
    (lanes : ∀ scope, Returns body body.Fits (Playing.ofChecked (body.reset g scope))) :
    Returns flow flow.Fits (Playing.ofChecked (flow.reset g scope)) := by
  obtain ⟨name, kind⟩ := flow
  obtain rfl : kind = .parallel players body := h
  have mem : body ∈ children ⟨name, .parallel players body⟩ := mem_children.2 (.inr ⟨players, rfl⟩)
  rw [reset_eq]
  have starts : Returns ⟨name, .parallel players body⟩
      (fun position => ∃ seated lanes, position = .parallel seated lanes (seated.map fun _ => false) ∧
        lanes.length = seated.length ∧ ∀ lane ∈ lanes, body.Fits lane)
      (Playing.ofChecked (start g (.parallel players body) scope)) := by
    refine (Returns.ofChecked_of_raises fun _ fails => .players fails).ofChecked_bind
      fun seated _ => ?_
    refine Returns.ofChecked_bind
      (.ofChecked_mapM fun player _ => (lanes (scope.withPlayer player)).above mem) ?_
    rintro lanes ⟨length_eq, lanes_fit⟩
    exact .ok ⟨seated, lanes, rfl, length_eq, lanes_fit⟩
  refine starts.ofChecked_bind ?_
  rintro _ ⟨seated, lanes, rfl, length_eq, lanes_fit⟩
  exact .ok ((fits_parallel rfl).2
    ⟨rfl, rfl, seated, lanes, _, rfl, length_eq, by simp, lanes_fit⟩)

/-- Entering a flow makes a trail that fits. -/
theorem reset_returns (flow : Flow G) (g : G) (scope : Scope) :
    Returns flow flow.Fits (Playing.ofChecked (flow.reset g scope)) := by
  induction flow using Flow.induction generalizing scope with
  | node flow below =>
      cases hp : flow.isParallel with
      | true =>
          obtain ⟨players, body, h⟩ := eq_parallel_of_isParallel hp
          exact reset_parallel_returns h (below body (mem_children.2 (.inr ⟨players, h⟩)))
      | false =>
          rw [reset_eq]
          have starts : Returns flow (fun position =>
              FitsMark flow (flow.freshMark position) ∧ FitsStep flow (flow.freshMark position))
              (Playing.ofChecked (start g flow.kind scope)) :=
            .ofChecked (fun _ => fits_freshMark hp) fun _ => raises_of_start hp
          refine starts.ofChecked_bind ?_
          rintro position ⟨fits, step⟩
          exact enter_returns_of hp fits step below

end Enter

/-! ### Going on -/

section GoOn

variable [Game G] {flow : Flow G} {scope : Scope} {mark : Mark Trail} {below : Trail} {g : G}

theorem enter_returns (hp : flow.isParallel = false) (fits : FitsMark flow mark)
    (step : FitsStep flow mark) :
    Returns flow flow.Fits (Playing.ofChecked (flow.enter g scope mark)) :=
  enter_returns_of hp fits step fun child _ scope => reset_returns child g scope

omit [Game G] in
theorem isParallel_of_isLoop (h : flow.isLoop) : flow.isParallel = false := by
  obtain ⟨name, kind⟩ := flow
  cases kind <;> simp_all [isLoop, isParallel]

omit [Game G] in
/-- Nothing is live in a loop without an iteration to run. -/
theorem liveBlock_of_not_isRunning (loop : flow.isLoop) (h : mark.position.isRunning = false) :
    flow.liveBlock mark = none := by
  obtain ⟨name, kind⟩ := flow
  obtain ⟨markName, position, stepIndex⟩ := mark
  cases kind <;> cases position <;> simp_all [isLoop, Position.isRunning, liveBlock]

omit [Game G] in
/-- A mark without a live block and with nothing below it fits. -/
theorem fits_of_dead (hp : flow.isParallel = false) (fits : FitsMark flow mark)
    (dead : flow.liveBlock mark = none) : flow.Fits (.cons mark .nil) :=
  (fits_cons hp).2 ⟨fits, fitsStep_of_liveBlock dead, by simp [FitsBelow, next?, dead]⟩

omit [Game G] in
/-- A loop goes on to a position it can be in. -/
theorem FitsMark.next (loop : flow.isLoop) (fits : FitsMark flow mark) (g : G) (args : Args) :
    ∃ position, nextPosition g args flow.kind mark.position = some position ∧
      ∀ stepIndex, FitsMark flow ⟨mark.name, position, stepIndex⟩ := by
  obtain ⟨name, kind⟩ := flow
  obtain ⟨markName, position, stepIndex⟩ := mark
  obtain ⟨name_eq, hasKind, -⟩ := fits
  cases kind with
  | loop condition body =>
      cases position with
      | loop index value => exact ⟨_, rfl, fun _ => ⟨name_eq, rfl, rfl⟩⟩
      | _ => cases hasKind
  | count initial next test body =>
      cases position with
      | loop index value =>
          refine ⟨_, rfl, fun _ => ?_⟩
          unfold nextCount
          split
          · split <;> exact ⟨name_eq, rfl, rfl⟩
          · exact ⟨name_eq, rfl, rfl⟩
      | _ => cases hasKind
  | each collection setsPlayer body =>
      cases position with
      | each index value items =>
          refine ⟨_, rfl, fun _ => ?_⟩
          unfold nextEach
          split
          · rename_i item found
            obtain ⟨index, rfl, found⟩ := Option.bind_eq_some_iff.1 found
            obtain ⟨lt, -⟩ := List.getElem?_eq_some_iff.1 found
            exact ⟨name_eq, rfl, by simp [fitPosition, Fit.unless, lt]⟩
          · exact ⟨name_eq, rfl, rfl⟩
      | _ => cases hasKind
  | _ => cases loop

theorem nextIteration_returns (loop : flow.isLoop) (fits : FitsMark flow mark) :
    Returns flow (fun r => flow.Fits r.2) (flow.nextIteration g scope mark) := by
  obtain ⟨position, hnext, next_fits⟩ := fits.next loop g scope.args
  simp only [nextIteration, hnext]
  have hp := isParallel_of_isLoop loop
  cases running : position.isRunning with
  | true =>
      have step : FitsStep flow { mark with position, stepIndex := some 0 } := by
        rw [← (next_fits none).withStep_eq (isSequence_of_isLoop loop)]
        exact (next_fits none).fitsStep_withStep fun _ _ => Nat.zero_le _
      exact (enter_returns hp (next_fits _) step).bind fun trail trail_fits => .ok trail_fits
  | false => exact .ok (fits_of_dead hp (next_fits _) (liveBlock_of_not_isRunning loop running))

omit [Game G] in
/-- A node that leaves its block stands right behind it, with nothing below. -/
theorem fits_atEnd (hp : flow.isParallel = false) (fits : FitsMark flow mark) :
    flow.Fits (.cons (flow.atEnd mark) .nil) := by
  unfold atEnd
  cases hb : flow.liveBlock mark with
  | none => exact fits_of_dead hp fits hb
  | some block =>
      have hn : flow.next? (mark.withStep block.length) = none := by
        rw [next?_eq (by simpa using hb), Mark.step_withStep]
        exact List.getElem?_eq_none (Nat.le_refl _)
      refine (fits_cons hp).2 ⟨fits.withStep, fits.fitsStep_withStep fun block' live => ?_, ?_⟩
      · obtain rfl : block = block' := by simpa [hb] using live
        exact Nat.le_refl _
      · simp [FitsBelow, hn]

theorem finishBlock_returns (hp : flow.isParallel = false) (fits : FitsMark flow mark) :
    Returns flow (fun r => flow.Fits r.2) (flow.finishBlock g scope mark) := by
  unfold finishBlock
  split
  · rename_i loop
    exact nextIteration_returns loop fits
  · exact .ok (fits_atEnd hp fits)

/-- Entering a node at another step of its block. -/
theorem enter_withStep_returns (hp : flow.isParallel = false) (fits : FitsMark flow mark)
    {index : Nat} (le : ∀ block, flow.liveBlock mark = some block → index ≤ block.length) :
    Returns flow (fun r => flow.Fits r.2) (do
      let trail ← flow.enter g scope (mark.withStep index)
      pure (Signal.moved, trail)) :=
  (enter_returns hp fits.withStep (fits.fitsStep_withStep le)).bind fun _ trail_fits =>
    .ok trail_fits

theorem advance_returns (hp : flow.isParallel = false) (fits : FitsMark flow mark) :
    Returns flow (fun r => flow.Fits r.2) (flow.advance g scope mark) := by
  unfold advance
  split
  · rename_i lt
    refine enter_withStep_returns hp fits fun block live => ?_
    simp only [live, Option.map_some, Option.getD_some] at lt
    omega
  · exact finishBlock_returns hp fits

omit [Game G] in
/-- A loop that is left has nothing live and nothing below. -/
theorem fits_left (loop : flow.isLoop) (fits : FitsMark flow mark) :
    flow.Fits (.cons { mark with position := mark.position.left, stepIndex := none } .nil) := by
  have left_fits : FitsMark flow ⟨mark.name, mark.position.left, none⟩ := by
    obtain ⟨name, kind⟩ := flow
    obtain ⟨markName, position, stepIndex⟩ := mark
    obtain ⟨name_eq, hasKind, -⟩ := fits
    cases kind <;> cases loop <;> cases position <;>
      first | cases hasKind; done | exact ⟨name_eq, rfl, rfl⟩
  refine fits_of_dead (isParallel_of_isLoop loop) left_fits (liveBlock_of_not_isRunning loop ?_)
  cases mark.position <;> rfl

theorem takeIn_returns (loop : flow.isLoop) (fits : FitsMark flow mark) (i : Interrupt) :
    Returns flow (fun r => flow.Fits r.2) (flow.takeIn g scope mark i) := by
  cases i with
  | skipOn => exact nextIteration_returns loop fits
  | again => exact enter_withStep_returns (isParallel_of_isLoop loop) fits fun _ _ => Nat.zero_le _
  | leave => exact .ok (fits_left loop fits)

/-- Whatever signal the step of a node ends with, the node leaves a trail that
fits. -/
theorem goOn_returns (hp : flow.isParallel = false) (fits : flow.Fits (.cons mark below))
    (signal : Signal) :
    Returns flow (fun r => flow.Fits r.2) (flow.goOn g scope mark below signal) := by
  have mark_fits := ((fits_cons hp).1 fits).1
  cases signal with
  | complete => exact advance_returns hp mark_fits
  | interrupt i =>
      simp only [goOn]
      split
      · rename_i loop
        exact takeIn_returns loop mark_fits i
      · exact .ok fits
  | _ => exact .ok fits

end GoOn

/-! ### Playing -/

section Play

variable [Game G] {flow body : Flow G} {scope : Scope} {mark : Mark Trail} {below trail : Trail}
  {g : G} {dice : Dice}

/-- Playing the trail leaves a trail that fits, for whatever flow it fits. -/
def PlaysSafely (trail : Trail) : Prop :=
  ∀ (flow : Flow G) (scope : Scope) (g : G) (dice : Dice), flow.Fits trail →
    Returns flow (fun p => flow.Fits p.trail) (play trail flow scope g dice)

theorem playLanes_returns {lanes : List Trail} {players : List Player} {completed : List Bool}
    (safe : ∀ lane ∈ lanes, PlaysSafely (G := G) lane)
    (players_length : lanes.length = players.length)
    (completed_length : completed.length = players.length)
    (fits : ∀ lane ∈ lanes, body.Fits lane) (scope : Scope) (g : G) (dice : Dice) :
    Returns body (fun p => p.trail.1.length = players.length ∧ p.trail.2.length = players.length ∧
      ∀ lane ∈ p.trail.1, body.Fits lane)
      (playLanes lanes flow body players completed scope g dice) := by
  induction lanes generalizing players completed g dice with
  | nil =>
      obtain rfl := List.length_eq_zero_iff.1 players_length.symm
      obtain rfl := List.length_eq_zero_iff.1 completed_length
      exact .ok ⟨rfl, rfl, by simp⟩
  | cons lane lanes ih =>
      obtain ⟨player, players, rfl⟩ := List.exists_cons_of_length_eq_add_one players_length.symm
      obtain ⟨done, completed, rfl⟩ := List.exists_cons_of_length_eq_add_one completed_length
      simp only [List.length_cons, Nat.add_right_cancel_iff] at players_length completed_length
      have others := ih (fun lane mem => safe lane (List.mem_cons_of_mem _ mem)) players_length
        completed_length fun lane mem => fits lane (List.mem_cons_of_mem _ mem)
      cases done with
      | true =>
          refine (others g dice).bind ?_
          rintro p ⟨lanes_length, flags_length, lanes_fit⟩
          exact .ok ⟨by simp [lanes_length], by simp [flags_length],
            by simpa using ⟨fits lane List.mem_cons_self, lanes_fit⟩⟩
      | false =>
          refine (safe lane List.mem_cons_self _ _ g dice (fits lane List.mem_cons_self)).bind ?_
          intro p lane_fits
          cases hs : p.signal with
          | awaiting =>
              refine (others p.game p.dice).bind ?_
              rintro q ⟨lanes_length, flags_length, lanes_fit⟩
              exact .ok ⟨by simp [lanes_length], by simp [flags_length],
                by simpa using ⟨lane_fits, lanes_fit⟩⟩
          | _ =>
              refine .ok ⟨by simp [players_length], by simp [completed_length], ?_⟩
              intro lane' mem
              rcases List.mem_cons.1 mem with rfl | mem
              · exact lane_fits
              · exact fits lane' (List.mem_cons_of_mem _ mem)

/-- Nodes side by side are played in trails that fit. -/
theorem play_parallel_returns {players : Option (G → Args → Checked (List Player))}
    (h : flow.kind = .parallel players body)
    (safe : ∀ players lanes completed, mark.position = .parallel players lanes completed →
      ∀ lane ∈ lanes, PlaysSafely (G := G) lane)
    (fits : flow.Fits (.cons mark below)) :
    Returns flow (fun p => flow.Fits p.trail) (play (.cons mark below) flow scope g dice) := by
  obtain ⟨name_eq, rfl, seated, lanes, completed, position_eq, lanes_length, completed_length,
    lanes_fit⟩ := (fits_parallel h).1 fits
  have lanes_safe := safe _ _ _ position_eq
  obtain ⟨name, position, stepIndex⟩ := mark
  obtain rfl : position = .parallel seated lanes completed := position_eq
  rw [play_parallel h]
  simp only [playMark, playPosition]
  have played : Returns flow _ (playLanes lanes flow body seated completed scope g dice) :=
    (playLanes_returns lanes_safe lanes_length completed_length lanes_fit scope g dice).above
      (mem_children.2 (.inr ⟨players, h⟩))
  cases played' : playLanes lanes flow body seated completed scope g dice with
  | error e =>
      rw [played'] at played
      cases played with
      | fault raises => exact .fault raises
  | ok p =>
      rw [played'] at played
      cases played with
      | ok good =>
          obtain ⟨lanes_length, flags_length, lanes_fit⟩ := good
          exact .ok ((fits_parallel h).2
            ⟨name_eq, rfl, seated, p.trail.1, p.trail.2, rfl, lanes_length, flags_length, lanes_fit⟩)

/-- A unit of play of a trail that fits leaves a trail that fits. -/
theorem playsSafely (trail : Trail) : PlaysSafely (G := G) trail := by
  induction trail using Trail.induction with
  | nil => intro flow scope g dice fits; exact absurd fits not_fits_nil
  | cons mark below below_safe lanes_safe =>
      intro flow scope g dice fits
      cases hp : flow.isParallel with
      | true =>
          obtain ⟨players, body, h⟩ := eq_parallel_of_isParallel hp
          exact play_parallel_returns h lanes_safe fits
      | false =>
          obtain ⟨mark_fits, step_fits, below_fits⟩ := (fits_cons hp).1 fits
          cases hw : flow.waiting? mark with
          | some step =>
              rw [play_waiting (by simp [hw])]
              exact .ok fits
          | none =>
              rcases hn : flow.next? mark with _ | callback | child
              · rw [play_finish hp hw hn]
                exact (finishBlock_returns hp mark_fits).bind fun _ trail_fits => .ok trail_fits
              · rw [play_call hp hw hn]
                obtain ⟨block, hb, mem⟩ := mem_blocks_of_next? hn
                refine (Returns.ofChecked_of_raises fun _ fails => .step hb mem fails).bind
                  fun r _ => ?_
                exact (goOn_returns hp fits _).bind fun _ trail_fits => .ok trail_fits
              · rw [play_node hp hw hn]
                have child_fits : child.Fits below := by simpa [FitsBelow, hn] using below_fits
                have played := ((below_safe child (scope.enter flow mark) g dice child_fits).above
                  (mem_children_of_next? hn)).mapMismatch .deeper
                refine played.bind fun p left_fits => ?_
                have fits' : flow.Fits (.cons mark p.trail) :=
                  (fits_cons hp).2 ⟨mark_fits, step_fits, by simpa [FitsBelow, hn] using left_fits⟩
                exact (goOn_returns hp fits' _).bind fun _ trail_fits => .ok trail_fits

end Play

/-! ### Settling -/

section Settle

variable [Game G] {flow : Flow G} {scope : Scope} {mark : Mark Trail} {below trail : Trail}
  {s : Stop G} {g : G} {status : ActionStatus}

/-- A step that rests in a status it admits is entered at what it runs then. -/
theorem settle_here_returns {step : ActionStep G (Flow G)} (hw : flow.waiting? mark = some step)
    (admits : step.Admits status) (fits : flow.Fits (.cons mark below)) :
    Returns flow flow.Fits
      (Stop.settle ⟨flow, step, .here, scope⟩ g status (.cons mark below)) := by
  obtain ⟨name, kind⟩ := flow
  cases kind with
  | action step' =>
      obtain rfl : step' = step := by
        unfold waiting? at hw
        split at hw <;> simp_all
      have name_eq := ((fits_cons rfl).1 fits).1.name_eq
      have settled : FitsMark ⟨name, .action step'⟩ { mark with position := .action status } := by
        refine ⟨name_eq, rfl, ?_⟩
        cases status with
        | taken move => exact Fit.unless_eq_ok.2 admits
        | _ => rfl
      obtain ⟨mark_fits, step_fits⟩ := fits_atFirstStep rfl settled
      exact (enter_returns rfl mark_fits step_fits).bind fun _ trail_fits => .ok trail_fits
  | _ => simp [waiting?] at hw

/-- Settling a stop of a trail that fits leaves a trail that fits. -/
theorem settle_returns (waits : Waits trail flow scope s) (admits : s.step.Admits status)
    (fits : flow.Fits trail) : Returns flow flow.Fits (s.settle g status trail) := by
  induction waits with
  | here waiting => exact settle_here_returns waiting admits fits
  | @down mark below flow child scope s next inner ih =>
      have hp := isParallel_of_next? next
      obtain ⟨mark_fits, step_fits, below_fits⟩ := (fits_cons hp).1 fits
      rw [Stop.settle_within_down]
      refine ((ih admits (by simpa [FitsBelow, next] using below_fits)).above
        (mem_children_of_next? next)).map fun settled settled_fits => ?_
      exact (fits_cons hp).2 ⟨mark_fits, step_fits, by simpa [FitsBelow, next] using settled_fits⟩
  | lane kind_eq position_eq at_lane at_player not_done inner ih =>
      obtain ⟨name_eq, rfl, seated, lanes, completed, position_eq', lanes_length, completed_length,
        lanes_fit⟩ := (fits_parallel kind_eq).1 fits
      obtain ⟨rfl, rfl, rfl⟩ : seated = _ ∧ lanes = _ ∧ completed = _ := by
        simpa using position_eq'.symm.trans position_eq
      rw [Stop.settle_within_lane position_eq at_lane]
      refine ((ih admits (lanes_fit _ (List.mem_of_getElem? at_lane))).above
        (mem_children.2 (.inr ⟨_, kind_eq⟩))).map fun settled settled_fits => ?_
      refine (fits_parallel kind_eq).2 ⟨name_eq, rfl, _, _, _, rfl, by simpa using lanes_length,
        completed_length, fun lane mem => ?_⟩
      rcases List.mem_or_eq_of_mem_set mem with mem | rfl
      · exact lanes_fit lane mem
      · exact settled_fits

end Settle

/-- The check is an invariant under which play is safe. Entering a flow makes a
trail that fits; a unit of play of a trail that fits gives a signal and leaves a
trail that fits; and so does settling any of its stops, if the step may come to
rest in the status. In each case the only thing that can come in between is a
fault of a callback of the author. -/
theorem fits_invariant [Game G] (flow : Flow G) (g : G) (scope : Scope) :
    Returns flow flow.Fits (Playing.ofChecked (flow.reset g scope)) ∧
      ∀ trail, flow.Fits trail →
        (∀ dice, Returns flow (fun p => flow.Fits p.trail) (flow.play trail scope g dice)) ∧
          ∀ s ∈ stops trail flow scope, ∀ status, s.step.Admits status →
            Returns flow flow.Fits (s.settle g status trail) := by
  refine ⟨reset_returns flow g scope, fun trail fits => ⟨fun dice => ?_, ?_⟩⟩
  · exact playsSafely trail flow scope g dice fits
  · intro s mem status admits
    exact settle_returns (waits_of_mem_stops mem) admits fits

/-- A round after round in which a player moves. -/
def turns : Flow Script.Host :=
  forever [.node (act ⟨none, none, none, [⟨"go", [], .empty, false⟩]⟩)]

/-- The first round waits for a move. -/
def firstTurn : Trail :=
  .cons ⟨none, .loop (some 0) none, some 0⟩ (.cons ⟨none, .action .awaiting, none⟩ .nil)

theorem fits_invariant_turns :
    turns.Fits firstTurn ∧
      Returns turns (fun p => turns.Fits p.trail)
        (turns.play firstTurn (.ofArgs .empty) (.fresh 2) default) ∧
      ∃ s ∈ stops firstTurn turns (.ofArgs .empty),
        s.step.Admits (.taken ⟨⟨1⟩, "go", .empty⟩) ∧
          Returns turns turns.Fits (s.settle (.fresh 2) (.taken ⟨⟨1⟩, "go", .empty⟩) firstTurn) := by
  have fits : turns.Fits firstTurn := rfl
  obtain ⟨play_safe, settle_safe⟩ :=
    (fits_invariant turns (.fresh 2) (.ofArgs .empty)).2 firstTurn fits
  refine ⟨fits, play_safe default, _, List.mem_singleton_self _, rfl, ?_⟩
  exact settle_safe _ (List.mem_singleton_self _) _ rfl

end Flow

end Tabletop
