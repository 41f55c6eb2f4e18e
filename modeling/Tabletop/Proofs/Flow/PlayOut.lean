import Tabletop.Proofs.Flow.Evaluation
import Tabletop.Script.Host

/-! # Playing flows out

Playing a flow unit after unit agrees with its structured evaluation: the same
callbacks run with the same sights, in the same order, to the same end. A unit
works out the condition of the node it stands at next, while the evaluation does
so when it gets there. Nothing runs in between.

## Implementation notes

The lemmas are told from the node whose block runs. `GoesOut` is what is to be
shown of a node after one unit; `Resumes` is what it does when its block has
ended, and it is handed down into the block as a continuation.
-/

namespace Tabletop

variable {G : Type} [Game G]

namespace Flow

/-- After a unit with a signal, playing on leads to an end: the callbacks that
are run on the way, how the flow ends, and the game and the dice at the end. No
subflow is asked for. -/
inductive PlaysOut (flow : Flow G) (scope : Scope) :
    Signal → Trail → G → Dice → List (CallbackRun G) → Ending → G → Dice → Prop
  | ended (ending : Ending) {trail g d} :
      PlaysOut flow scope ending.signal trail g d [] ending g d
  | unit {trail g d p runs ending g' d'}
      (plays : flow.play trail scope g d = .ok p) (asks_nothing : p.calls = [])
      (rest : PlaysOut flow scope p.signal p.trail p.game p.dice runs ending g' d') :
      PlaysOut flow scope .moved trail g d (p.runs ++ runs) ending g' d'

/-- A unit leaves something behind that plays out. -/
def GoesOut (flow : Flow G) (scope : Scope) (left : Playing (Signal × Trail)) (g : G) (d : Dice)
    (runs : List (CallbackRun G)) (ending : Ending) (g' : G) (d' : Dice) : Prop :=
  ∃ signal trail, left = .ok (signal, trail) ∧
    PlaysOut flow scope signal trail g d runs ending g' d'

/-- The node runs blocks of its own, without waiting. -/
def isStructured (flow : Flow G) : Bool :=
  match flow.kind with
  | .action _ | .parallel .. => false
  | _ => true

omit [Game G] in
theorem isParallel_of_isStructured {flow : Flow G} (h : flow.isStructured) :
    flow.isParallel = false := by
  obtain ⟨name, kind⟩ := flow
  cases kind <;> simp_all [isStructured, isParallel]

omit [Game G] in
theorem waiting?_of_isStructured {flow : Flow G} (h : flow.isStructured) (mark : Mark Trail) :
    flow.waiting? mark = none := by
  obtain ⟨name, kind⟩ := flow
  cases kind <;> simp_all [isStructured, waiting?]

section Unit

variable {flow : Flow G} {scope : Scope} {mark : Mark Trail} {below : Trail} {g g₁ g₂ : G}
  {d d₁ d₂ : Dice} {runs runs₂ : List (CallbackRun G)} {ending ending₂ : Ending}

/-- A node behind its last step plays out as it goes on from there. -/
theorem PlaysOut.finish (hs : flow.isStructured) (hn : flow.next? mark = none)
    (h : GoesOut flow scope (flow.finishBlock g scope mark) g d runs ending g₁ d₁) :
    PlaysOut flow scope .moved (.cons mark below) g d runs ending g₁ d₁ := by
  obtain ⟨signal, trail, left, rest⟩ := h
  refine PlaysOut.unit (p := ⟨signal, trail, g, d, [], []⟩) ?_ rfl rest
  rw [play_finish (isParallel_of_isStructured hs) (waiting?_of_isStructured hs mark) hn, left]
  rfl

/-- A node at a callback plays out as it goes on behind the callback. -/
theorem PlaysOut.call {callback : StepCallback G} {control : Control} (hs : flow.isStructured)
    (hn : flow.next? mark = some (.call callback))
    (hc : callback ((scope.enter flow mark).scene g d) = .ok ⟨control, g₁, d₁⟩)
    (asks_nothing : control.calls = [])
    (h : GoesOut flow scope (flow.goOn g₁ scope mark below control.signal) g₁ d₁ runs ending g₂ d₂) :
    PlaysOut flow scope .moved (.cons mark below) g d
      (⟨callback, (scope.enter flow mark).scene g d⟩ :: runs) ending g₂ d₂ := by
  obtain ⟨signal, trail, left, rest⟩ := h
  refine PlaysOut.unit (p := ⟨signal, trail, g₁, d₁, control.calls,
    [⟨callback, (scope.enter flow mark).scene g d⟩]⟩) ?_ asks_nothing rest
  rw [play_call (isParallel_of_isStructured hs) (waiting?_of_isStructured hs mark) hn]
  simp only [runCallback, hc, Playing.ofChecked_ok, bind, Except.bind, left]
  rfl

/-- While the node below plays out, so does the node above, which goes on when
the one below has ended. -/
theorem PlaysOut.within {child : Flow G} {signal : Signal} (hs : flow.isStructured)
    (hn : flow.next? mark = some (.node child))
    (h : PlaysOut child (scope.enter flow mark) signal below g d runs ending g₁ d₁)
    (goes_on : ∀ below, GoesOut flow scope (flow.goOn g₁ scope mark below ending.signal) g₁ d₁
      runs₂ ending₂ g₂ d₂) :
    GoesOut flow scope (flow.goOn g scope mark below signal) g d (runs ++ runs₂) ending₂ g₂ d₂ := by
  induction h with
  | ended => exact goes_on _
  | @unit below g d p runs ending g₁ d₁ plays asks_nothing rest ih =>
      obtain ⟨signal, trail, left, out⟩ := ih goes_on
      refine ⟨.moved, .cons mark below, rfl, ?_⟩
      rw [List.append_assoc]
      refine PlaysOut.unit (p := { p with signal, trail }) ?_ asks_nothing out
      exact (play_node_eq_ok (isParallel_of_isStructured hs) (waiting?_of_isStructured hs mark)
        hn).2 ⟨p, signal, trail, plays, left, rfl⟩

end Unit

/-! ### Blocks -/

/-- What the node whose block has ended does then: it goes on behind the block,
or takes the interrupt. -/
def behindBlock (g : G) (flow : Flow G) (scope : Scope) (mark : Mark Trail) (below : Trail) :
    Ending → Playing (Signal × Trail)
  | .done => flow.finishBlock g scope mark
  | .interrupt i => flow.goOn g scope mark below (.interrupt i)

/-- The node plays out once its block has ended, wherever in the block. -/
def Resumes (flow : Flow G) (scope : Scope) (mark : Mark Trail) (blockEnding : Ending) (g : G)
    (d : Dice) (runs : List (CallbackRun G)) (ending : Ending) (g' : G) (d' : Dice) : Prop :=
  ∀ index below,
    GoesOut flow scope (flow.behindBlock g scope (mark.withStep index) below blockEnding) g d runs
      ending g' d'

/-- A node that stands at these steps of its block plays them out. -/
def BlockPlaysOut (steps : Block G) (inner : Scope) (g : G) (d : Dice)
    (runs : List (CallbackRun G)) (ending : Ending) (g₁ : G) (d₁ : Dice) : Prop :=
  ∀ {flow scope mark block index runs₂ ending₂ g₂ d₂}, flow.isStructured = true →
    flow.liveBlock mark = some block → block.drop index = steps → scope.enter flow mark = inner →
    Resumes flow scope mark ending g₁ d₁ runs₂ ending₂ g₂ d₂ →
    ∃ trail, flow.enter g scope (mark.withStep index) = .ok trail ∧
      PlaysOut flow scope .moved trail g d (runs ++ runs₂) ending₂ g₂ d₂

section Block

variable {flow : Flow G} {scope inner : Scope} {mark : Mark Trail} {block rest : Block G}
  {index : Nat} {g g₁ g₂ g₃ : G} {d d₁ d₂ d₃ : Dice} {runs runs₁ runs₂ : List (CallbackRun G)}
  {ending ending₂ : Ending}

/-- Behind a step a node goes on to the rest of the block, if there is any. -/
theorem advance_goesOut {step : Step G (Flow G)} (hs : flow.isStructured)
    (hb : flow.liveBlock mark = some block) (hd : block.drop index = step :: rest)
    (hi : scope.enter flow mark = inner)
    (evaluates : Evaluates (.block rest) inner g d runs ending g₁ d₁)
    (plays : BlockPlaysOut rest inner g d runs ending g₁ d₁)
    (resumes : Resumes flow scope mark ending g₁ d₁ runs₂ ending₂ g₂ d₂) :
    GoesOut flow scope (flow.advance g scope (mark.withStep index)) g d (runs ++ runs₂) ending₂
      g₂ d₂ := by
  have hrest : block.drop (index + 1) = rest := by
    rw [← List.drop_drop, hd]
    rfl
  have hlength : index + 1 < block.length ↔ rest ≠ [] := by
    rw [← hrest, Ne, List.drop_eq_nil_iff, Nat.not_le]
  by_cases hlast : rest = []
  · subst hlast
    cases evaluates with
    | nil =>
        have finishes := resumes index .nil
        have hnot : ¬index + 1 < block.length := by simp [hlength]
        simpa [advance, hb, hnot, behindBlock] using finishes
  · obtain ⟨trail, entered, out⟩ := plays hs hb hrest hi resumes
    refine ⟨.moved, trail, ?_, out⟩
    simp only [advance, Mark.step_withStep, liveBlock_withStep, hb, Option.map_some,
      Option.getD_some, hlength.2 hlast, if_true, Mark.withStep_withStep, entered]
    rfl

/-- A node that stands behind its block plays out. -/
theorem blockPlaysOut_nil : BlockPlaysOut (G := G) [] inner g d [] .done g d := by
  intro flow scope mark block index runs₂ ending₂ g₂ d₂ hs hb hd _ resumes
  have hn : flow.next? (mark.withStep index) = none := by
    rw [next?_eq (by simpa using hb), Mark.step_withStep]
    exact List.getElem?_eq_none (List.drop_eq_nil_iff.1 hd)
  refine ⟨.cons (mark.withStep index) .nil, by simp [enter, hn], ?_⟩
  exact PlaysOut.finish hs hn (resumes index .nil)

theorem blockPlaysOut_call {callback : StepCallback G}
    (proceeds : callback (inner.scene g d) = .ok ⟨.proceed, g₁, d₁⟩)
    (evaluates : Evaluates (.block rest) inner g₁ d₁ runs ending g₂ d₂)
    (plays : BlockPlaysOut rest inner g₁ d₁ runs ending g₂ d₂) :
    BlockPlaysOut (.call callback :: rest) inner g d (⟨callback, inner.scene g d⟩ :: runs) ending
      g₂ d₂ := by
  rintro flow scope mark block index runs₂ ending₂ g₃ d₃ hs hb hd rfl resumes
  have hn := next?_of_drop hb hd
  refine ⟨.cons (mark.withStep index) .nil, by simp [enter, hn], ?_⟩
  have proceeds' : callback ((scope.enter flow (mark.withStep index)).scene g d) =
      .ok ⟨.proceed, g₁, d₁⟩ := by simpa using proceeds
  have out : PlaysOut flow scope .moved (.cons (mark.withStep index) .nil) g d _ _ _ _ :=
    PlaysOut.call hs hn proceeds' rfl (advance_goesOut hs hb hd rfl evaluates plays resumes)
  simpa using out

theorem blockPlaysOut_callInterrupt {callback : StepCallback G} {i : Interrupt}
    (interrupts : callback (inner.scene g d) = .ok ⟨.interrupt i, g₁, d₁⟩) :
    BlockPlaysOut (.call callback :: rest) inner g d [⟨callback, inner.scene g d⟩] (.interrupt i)
      g₁ d₁ := by
  rintro flow scope mark block index runs₂ ending₂ g₂ d₂ hs hb hd rfl resumes
  have hn := next?_of_drop hb hd
  refine ⟨.cons (mark.withStep index) .nil, by simp [enter, hn], ?_⟩
  have interrupts' : callback ((scope.enter flow (mark.withStep index)).scene g d) =
      .ok ⟨.interrupt i, g₁, d₁⟩ := by simpa using interrupts
  have out := PlaysOut.call hs hn interrupts' rfl (resumes index .nil)
  simpa using out

/-- Entering a node at a node below it enters that one as well. -/
theorem enter_node {child : Flow G} {below : Trail}
    (hn : flow.next? mark = some (.node child))
    (entered : child.reset g (scope.enter flow mark) = .ok below) :
    flow.enter g scope mark = .ok (.cons mark below) := by
  simp only [enter, hn, entered]
  rfl

theorem blockPlaysOut_node {child : Flow G} {below : Trail}
    (entered : child.reset g inner = .ok below)
    (child_plays : PlaysOut child inner .moved below g d runs .done g₁ d₁)
    (evaluates : Evaluates (.block rest) inner g₁ d₁ runs₁ ending g₂ d₂)
    (plays : BlockPlaysOut rest inner g₁ d₁ runs₁ ending g₂ d₂) :
    BlockPlaysOut (.node child :: rest) inner g d (runs ++ runs₁) ending g₂ d₂ := by
  rintro flow scope mark block index runs₂ ending₂ g₃ d₃ hs hb hd rfl resumes
  have hn := next?_of_drop hb hd
  refine ⟨_, enter_node hn (by simpa using entered), ?_⟩
  obtain ⟨signal, trail, left, out⟩ := PlaysOut.within hs hn (by simpa using child_plays)
    fun _ => advance_goesOut hs hb hd rfl evaluates plays resumes
  cases left
  rwa [List.append_assoc]

theorem blockPlaysOut_nodeInterrupt {child : Flow G} {below : Trail} {i : Interrupt}
    (entered : child.reset g inner = .ok below)
    (child_plays : PlaysOut child inner .moved below g d runs (.interrupt i) g₁ d₁) :
    BlockPlaysOut (.node child :: rest) inner g d runs (.interrupt i) g₁ d₁ := by
  rintro flow scope mark block index runs₂ ending₂ g₂ d₂ hs hb hd rfl resumes
  have hn := next?_of_drop hb hd
  refine ⟨_, enter_node hn (by simpa using entered), ?_⟩
  obtain ⟨signal, trail, left, out⟩ := PlaysOut.within hs hn (by simpa using child_plays)
    fun below => resumes index below
  cases left
  exact out

end Block

/-! ### Loops -/

/-- The position of a loop shows a round. -/
inductive Shows : FlowKind G (Flow G) → Position Trail → Round → Prop
  | loop {condition body index} :
      Shows (.loop condition body) (.loop (some index) none) (.number index)
  | count {initial next test body index value} :
      Shows (.count initial next test body) (.loop (some index) (some value)) (.value value)
  | each {collection setsPlayer body index item later items}
      (h : items.drop index = item :: later) :
      Shows (.each collection setsPlayer body) (.each (some index) (some item) items)
        (.item item later)

/-- The position of a loop that has no round left. -/
inductive IsOver : FlowKind G (Flow G) → Position Trail → Prop
  | loop {condition body value} : IsOver (.loop condition body) (.loop none value)
  | count {initial next test body value} :
      IsOver (.count initial next test body) (.loop none value)
  | each {collection setsPlayer body value items} :
      IsOver (.each collection setsPlayer body) (.each none value items)

/-- The position shows the round, or that there is none. -/
def ShowsOption (kind : FlowKind G (Flow G)) (position : Position Trail) : Option Round → Prop
  | some round => Shows kind position round
  | none => IsOver kind position

/-- A loop that stands in a round plays out from there, and one that has no
round left is done. -/
def RoundsPlayOut (loop : Flow G) (scope : Scope) (g : G) (d : Dice)
    (runs : List (CallbackRun G)) (ending : Ending) (g' : G) (d' : Dice) : Option Round → Prop
  | some round => ∀ mark : Mark Trail, mark.name = loop.name → Shows loop.kind mark.position round →
      ∃ trail, loop.enter g scope (mark.withStep 0) = .ok trail ∧
        PlaysOut loop scope .moved trail g d runs ending g' d'
  | none => runs = [] ∧ ending = .done ∧ g' = g ∧ d' = d

section Loop

variable {loop : Flow G} {scope : Scope} {mark : Mark Trail} {round : Round} {g g₁ g₂ : G}
  {d d₁ d₂ : Dice} {runs runs₁ runs₂ : List (CallbackRun G)} {ending ending₂ : Ending}

omit [Game G] in
theorem Shows.isRunning {kind : FlowKind G (Flow G)} {position : Position Trail}
    (h : Shows kind position round) : position.isRunning := by
  cases h <;> rfl

omit [Game G] in
theorem IsOver.isRunning {kind : FlowKind G (Flow G)} {position : Position Trail}
    (h : IsOver kind position) : position.isRunning = false := by
  cases h <;> rfl

omit [Game G] in
theorem IsOver.isLoop (h : IsOver loop.kind mark.position) :
    loop.isLoop = true ∧ loop.isStructured = true := by
  obtain ⟨name, kind⟩ := loop
  obtain ⟨markName, position, stepIndex⟩ := mark
  cases h <;> exact ⟨rfl, rfl⟩

omit [Game G] in
theorem IsOver.liveBlock (h : IsOver loop.kind mark.position) : loop.liveBlock mark = none := by
  obtain ⟨name, kind⟩ := loop
  obtain ⟨markName, position, stepIndex⟩ := mark
  cases h <;> rfl

omit [Game G] in
/-- A loop that is over stays over. -/
theorem IsOver.next {kind : FlowKind G (Flow G)} {position : Position Trail}
    (h : IsOver kind position) (g : G) (args : Args) :
    ∃ position', nextPosition g args kind position = some position' ∧ IsOver kind position' := by
  cases h with
  | @loop condition body value =>
      have hnone : nextLoop condition g args none value = .loop none value := by simp [nextLoop]
      exact ⟨_, rfl, hnone ▸ IsOver.loop⟩
  | count => exact ⟨_, rfl, IsOver.count⟩
  | each => exact ⟨_, rfl, IsOver.each⟩

omit [Game G] in
theorem Shows.isLoop (h : Shows loop.kind mark.position round) :
    loop.isLoop = true ∧ loop.isStructured = true := by
  obtain ⟨name, kind⟩ := loop
  obtain ⟨markName, position, stepIndex⟩ := mark
  cases h <;> exact ⟨rfl, rfl⟩

omit [Game G] in
theorem Shows.liveBlock (h : Shows loop.kind mark.position round) :
    loop.liveBlock mark = some loop.kind.loopBody := by
  obtain ⟨name, kind⟩ := loop
  obtain ⟨markName, position, stepIndex⟩ := mark
  cases h <;> rfl

omit [Game G] in
theorem Shows.enter (hn : mark.name = loop.name) (h : Shows loop.kind mark.position round) :
    scope.enter loop mark = round.scope loop scope := by
  obtain ⟨name, kind⟩ := loop
  obtain ⟨markName, position, stepIndex⟩ := mark
  obtain rfl := hn
  cases h with
  | loop => rfl
  | count => rfl
  | @each collection setsPlayer body index item later items h =>
      cases setsPlayer <;> cases item <;> rfl

omit [Game G] in
theorem Shows.withStep (h : Shows loop.kind mark.position round) (index : Nat) :
    mark.withStep index = { mark with stepIndex := some index } := by
  obtain ⟨name, kind⟩ := loop
  obtain ⟨markName, position, stepIndex⟩ := mark
  cases h <;> rfl

omit [Game G] in
/-- The item after an item is the first of the later ones. -/
theorem nextEach_shows {collection : G → Args → Checked (List Argument)} {setsPlayer : Bool}
    {body : Block G} {index : Nat} {items later : List Argument} {item : Argument}
    (h : items.drop index = item :: later) :
    ShowsOption (.each collection setsPlayer body) (nextEach (some index) items)
      (Round.ofItems later) := by
  have hlater : items.drop (index + 1) = later := by
    rw [← List.drop_drop, h]
    rfl
  cases later with
  | nil =>
      have hnone : items[index + 1]? = none :=
        List.getElem?_eq_none (List.drop_eq_nil_iff.1 hlater)
      simpa [nextEach, hnone, ShowsOption, Round.ofItems] using IsOver.each
  | cons first later =>
      have hsome : items[index + 1]? = some first := by
        rw [← List.head?_drop, hlater]
        rfl
      simpa [nextEach, hsome, ShowsOption, Round.ofItems] using Shows.each hlater

omit [Game G] in
/-- After an iteration a loop shows the next round. -/
theorem Shows.next {kind : FlowKind G (Flow G)} {position : Position Trail}
    (h : Shows kind position round) (g : G) (args : Args) :
    ∃ position', nextPosition g args kind position = some position' ∧
      ShowsOption kind position' (kind.nextRound g args round) := by
  cases h with
  | @loop condition body index =>
      refine ⟨_, rfl, ?_⟩
      cases condition with
      | none => exact Shows.loop
      | some condition =>
          simp only [FlowKind.nextRound, nextLoop, Option.all_some]
          split
          · exact Shows.loop
          · exact IsOver.loop
  | @count initial next test body index value =>
      refine ⟨_, rfl, ?_⟩
      simp only [FlowKind.nextRound, nextCount]
      split
      · exact Shows.count
      · exact IsOver.count
  | each h => exact ⟨_, rfl, nextEach_shows h⟩

/-- A loop without a next round is left. -/
theorem nextIteration_over {position : Position Trail}
    (hnext : nextPosition g scope.args loop.kind mark.position = some position)
    (ended : IsOver loop.kind position) :
    GoesOut loop scope (loop.nextIteration g scope mark) g d [] .done g d := by
  refine ⟨.complete, .cons { mark with position, stepIndex := none } .nil, ?_,
    PlaysOut.ended .done⟩
  simp only [nextIteration, hnext, ended.isRunning]
  rfl

/-- Behind its body a loop plays the rounds that are left. -/
theorem nextIteration_goesOut (hn : mark.name = loop.name)
    (h : Shows loop.kind mark.position round)
    (plays : RoundsPlayOut loop scope g d runs ending g₁ d₁
      (loop.kind.nextRound g scope.args round)) (index : Nat) :
    GoesOut loop scope (loop.nextIteration g scope (mark.withStep index)) g d runs ending g₁ d₁ := by
  obtain ⟨position, hnext, shows⟩ := h.next g scope.args
  rw [h.withStep]
  cases hround : loop.kind.nextRound g scope.args round with
  | none =>
      rw [hround] at plays shows
      obtain ⟨rfl, rfl, rfl, rfl⟩ := plays
      exact nextIteration_over hnext shows
  | some round' =>
      rw [hround] at plays shows
      obtain ⟨trail, entered, out⟩ := plays { mark with position } hn shows
      refine ⟨.moved, trail, ?_, out⟩
      have shows : Shows loop.kind (Mark.mk mark.name position mark.stepIndex).position round' :=
        shows
      rw [shows.withStep 0] at entered
      simp only [nextIteration, hnext, shows.isRunning, if_true, entered]
      rfl

/-- A round whose body has run to its end, or is cut short, is followed by the
next one. -/
theorem roundsPlayOut_next
    (body_plays : BlockPlaysOut loop.kind.loopBody (round.scope loop scope) g d runs ending g₁ d₁)
    (goes_on : ending = .done ∨ ending = .interrupt .skipOn)
    (plays : RoundsPlayOut loop scope g₁ d₁ runs₂ ending₂ g₂ d₂
      (loop.kind.nextRound g₁ scope.args round)) :
    RoundsPlayOut loop scope g d (runs ++ runs₂) ending₂ g₂ d₂ (some round) := by
  intro mark hn h
  refine body_plays h.isLoop.2 h.liveBlock List.drop_zero (h.enter hn) fun index below => ?_
  have next := nextIteration_goesOut hn h plays index
  rcases goes_on with rfl | rfl
  · simpa [behindBlock, finishBlock, h.isLoop.1] using next
  · simpa [behindBlock, goOn, takeIn, h.isLoop.1] using next

theorem roundsPlayOut_again
    (body_plays : BlockPlaysOut loop.kind.loopBody (round.scope loop scope) g d runs
      (.interrupt .again) g₁ d₁)
    (plays : RoundsPlayOut loop scope g₁ d₁ runs₂ ending₂ g₂ d₂ (some round)) :
    RoundsPlayOut loop scope g d (runs ++ runs₂) ending₂ g₂ d₂ (some round) := by
  intro mark hn h
  refine body_plays h.isLoop.2 h.liveBlock List.drop_zero (h.enter hn) fun index below => ?_
  obtain ⟨trail, entered, out⟩ := plays mark hn h
  refine ⟨.moved, trail, ?_, out⟩
  simp only [behindBlock, goOn, h.isLoop.1, if_true, takeIn, Mark.withStep_withStep, entered]
  rfl

theorem roundsPlayOut_leave
    (body_plays : BlockPlaysOut loop.kind.loopBody (round.scope loop scope) g d runs
      (.interrupt .leave) g₁ d₁) :
    RoundsPlayOut loop scope g d runs .done g₁ d₁ (some round) := by
  intro mark hn h
  have resumes : Resumes loop scope mark (.interrupt .leave) g₁ d₁ [] .done g₁ d₁ := by
    intro index below
    have left : loop.behindBlock g₁ scope (mark.withStep index) below (.interrupt .leave) =
        .ok (.complete, .cons { mark.withStep index with
          position := (mark.withStep index).position.left, stepIndex := none } .nil) := by
      simp only [behindBlock, goOn, h.isLoop.1, if_true, takeIn]
      rfl
    exact ⟨_, _, left, PlaysOut.ended .done⟩
  simpa using body_plays h.isLoop.2 h.liveBlock List.drop_zero (h.enter hn) resumes

end Loop

/-! ### Flows -/

/-- A flow plays out from the trail it is entered with. -/
def EntersAndPlaysOut (flow : Flow G) (scope : Scope) (g : G) (d : Dice)
    (runs : List (CallbackRun G)) (ending : Ending) (g' : G) (d' : Dice) : Prop :=
  ∃ trail, flow.reset g scope = .ok trail ∧ PlaysOut flow scope .moved trail g d runs ending g' d'

section Enter

variable {name : Option String} {scope : Scope} {g g₁ : G} {d d₁ : Dice}
  {runs : List (CallbackRun G)} {ending : Ending}

/-- A node other than a loop hands on how its block ends. -/
theorem resumes_of_not_isLoop {flow : Flow G} {mark : Mark Trail} (h : flow.isLoop = false)
    (g : G) (d : Dice) (ending : Ending) : Resumes flow scope mark ending g d [] ending g d := by
  intro index below
  cases ending with
  | done =>
      refine ⟨.complete, .cons (flow.atEnd (mark.withStep index)) .nil, ?_,
        PlaysOut.ended .done⟩
      simp only [behindBlock, finishBlock, h]
      rfl
  | interrupt i =>
      refine ⟨.interrupt i, .cons (mark.withStep index) below, ?_,
        PlaysOut.ended (.interrupt i)⟩
      simp only [behindBlock, goOn, h]
      rfl

theorem enters_sequence {block : Block G}
    (plays : BlockPlaysOut block scope g d runs ending g₁ d₁) :
    EntersAndPlaysOut ⟨name, .sequence block⟩ scope g d runs ending g₁ d₁ := by
  have structured : isStructured ⟨name, .sequence block⟩ = true := rfl
  have live : liveBlock ⟨name, .sequence block⟩ ⟨name, .sequence 0, none⟩ = some block := rfl
  obtain ⟨trail, entered, out⟩ := plays structured live List.drop_zero rfl
    (resumes_of_not_isLoop rfl g₁ d₁ ending)
  refine ⟨trail, ?_, by simpa using out⟩
  rw [reset_eq]
  exact entered

omit [Game G] in
/-- A node that starts with a live block stands at the first step of it. -/
theorem freshMark_eq {flow : Flow G} {position : Position Trail} {block : Block G}
    (hs : flow.isSequence = false)
    (hb : flow.liveBlock ⟨flow.name, position, none⟩ = some block) :
    flow.freshMark position = Mark.withStep ⟨flow.name, position, none⟩ 0 := by
  rw [freshMark, if_neg (by simp [hs])]
  exact atFirstStep_of_some hs hb

/-- A node that starts without a live block stands behind its steps. -/
theorem enter_freshMark {flow : Flow G} {position : Position Trail} (g : G) (scope : Scope)
    (hb : flow.liveBlock ⟨flow.name, position, none⟩ = none) :
    flow.next? (flow.freshMark position) = none ∧
      flow.enter g scope (flow.freshMark position) = .ok (.cons (flow.freshMark position) .nil) := by
  have hfresh : flow.freshMark position = ⟨flow.name, position, none⟩ := by
    simp [freshMark, atFirstStep_of_none hb]
  have hn : flow.next? ⟨flow.name, position, none⟩ = none := by simp [next?, hb]
  rw [hfresh]
  exact ⟨hn, by simp [enter, hn]⟩

omit [Game G] in
/-- A switch stands in the block that is chosen, if there is one. -/
theorem liveBlock_startSwitch (name : Option String) (value : G → Args → Argument)
    (cases : List (Case G (Flow G))) (default : Option (Block G)) (v : Argument) :
    (liveBlock ⟨name, .switch value cases default⟩
      ⟨name, startSwitch cases default v, none⟩).getD [] =
        FlowKind.chosenBlock cases default v := by
  simp only [FlowKind.chosenBlock, List.find?_eq_bind_findIdx?_getElem?, startSwitch]
  cases hfound : cases.findIdx? fun c => c.test v with
  | none => cases default <;> simp [liveBlock]
  | some index =>
      obtain ⟨hlt, -⟩ := List.findIdx?_eq_some_iff_getElem.1 hfound
      simp [liveBlock, List.getElem?_eq_getElem hlt]

theorem enters_switch {value : G → Args → Argument} {cases : List (Case G (Flow G))}
    {default : Option (Block G)}
    (evaluates : Evaluates (.block (FlowKind.chosenBlock cases default (value g scope.args)))
      (scope.bind name (value g scope.args)) g d runs ending g₁ d₁)
    (plays : BlockPlaysOut (FlowKind.chosenBlock cases default (value g scope.args))
      (scope.bind name (value g scope.args)) g d runs ending g₁ d₁) :
    EntersAndPlaysOut ⟨name, .switch value cases default⟩ scope g d runs ending g₁ d₁ := by
  let flow : Flow G := ⟨name, .switch value cases default⟩
  let position := startSwitch cases default (value g scope.args)
  have entered : flow.reset g scope = flow.enter g scope (flow.freshMark position) := reset_eq ..
  have chosen := liveBlock_startSwitch name value cases default (value g scope.args)
  cases hb : flow.liveBlock ⟨name, position, none⟩ with
  | none =>
      -- Nothing is chosen, so the only unit leaves the switch.
      obtain ⟨hn, stands⟩ := enter_freshMark g scope hb
      rw [show liveBlock _ _ = none from hb] at chosen
      rw [← chosen] at evaluates
      cases evaluates
      exact ⟨_, entered.trans stands, PlaysOut.finish rfl hn
        ⟨.complete, _, rfl, PlaysOut.ended .done⟩⟩
  | some block =>
      rw [show liveBlock _ _ = some block from hb] at chosen
      rw [← chosen] at plays
      have structured : flow.isStructured = true := rfl
      obtain ⟨trail, stands, out⟩ := plays structured hb List.drop_zero rfl
        (resumes_of_not_isLoop rfl g₁ d₁ ending)
      rw [← freshMark_eq rfl hb] at stands
      exact ⟨trail, entered.trans stands, by simpa using out⟩

/-- A loop that is entered shows its first round. -/
theorem start_shows {kind : FlowKind G (Flow G)} {round : Option Round}
    (first : FlowKind.FirstRound g scope.args kind round) :
    ∃ position, start g kind scope = .ok position ∧ ShowsOption kind position round := by
  cases first with
  | forever => exact ⟨_, rfl, Shows.loop⟩
  | holds h => exact ⟨.loop (some 0) none, by simp [start, startLoop, h], Shows.loop⟩
  | fails h => exact ⟨.loop none none, by simp [start, startLoop, h], IsOver.loop⟩
  | count =>
      refine ⟨_, rfl, ?_⟩
      simp only [startCount]
      split
      · exact Shows.count
      · exact IsOver.count
  | @each collection setsPlayer body items h =>
      refine ⟨startEach items, by simp only [start, h]; rfl, ?_⟩
      cases items with
      | nil => exact IsOver.each
      | cons item later => exact Shows.each List.drop_zero

theorem enters_loop {loop : Flow G} {round : Option Round}
    (first : FlowKind.FirstRound g scope.args loop.kind round)
    (plays : RoundsPlayOut loop scope g d runs ending g₁ d₁ round) :
    EntersAndPlaysOut loop scope g d runs ending g₁ d₁ := by
  obtain ⟨position, started, shows⟩ := start_shows first
  have entered : loop.reset g scope = loop.enter g scope (loop.freshMark position) := by
    rw [reset_eq, started]
    rfl
  cases round with
  | none =>
      obtain ⟨rfl, rfl, rfl, rfl⟩ := plays
      have ended : IsOver loop.kind (Mark.mk loop.name position none).position := shows
      have hb := ended.liveBlock
      obtain ⟨hn, stands⟩ := enter_freshMark g₁ scope hb
      obtain ⟨position', hnext, ended'⟩ := ended.next g₁ scope.args
      refine ⟨_, entered.trans stands, PlaysOut.finish ended.isLoop.2 hn ?_⟩
      rw [finishBlock, if_pos ended.isLoop.1]
      exact nextIteration_over (by rwa [position_freshMark]) ended'
  | some round =>
      have shows : Shows loop.kind (Mark.mk loop.name position none).position round := shows
      obtain ⟨trail, stands, out⟩ := plays ⟨loop.name, position, none⟩ rfl shows
      rw [← freshMark_eq (isSequence_of_isLoop shows.isLoop.1) shows.liveBlock] at stands
      exact ⟨trail, entered.trans stands, out⟩

end Enter

/-- What a task comes to when it is played. -/
def Simulated (scope : Scope) (g : G) (d : Dice) (runs : List (CallbackRun G)) (ending : Ending)
    (g' : G) (d' : Dice) : Task G → Prop
  | .flow flow => EntersAndPlaysOut flow scope g d runs ending g' d'
  | .block steps => BlockPlaysOut steps scope g d runs ending g' d'
  | .rounds loop round => RoundsPlayOut loop scope g d runs ending g' d' round

/-- Whatever is evaluated is played the same way. -/
theorem simulated_of_evaluates {task : Task G} {scope : Scope} {g g' : G} {d d' : Dice}
    {runs : List (CallbackRun G)} {ending : Ending}
    (h : Evaluates task scope g d runs ending g' d') :
    Simulated scope g d runs ending g' d' task := by
  induction h with
  | sequence _ plays => exact enters_sequence plays
  | switch evaluates plays => exact enters_switch evaluates plays
  | loop first _ plays => exact enters_loop first plays
  | ended => exact ⟨rfl, rfl, rfl, rfl⟩
  | next _ goes_on _ body_plays plays => exact roundsPlayOut_next body_plays goes_on plays
  | again _ _ body_plays plays => exact roundsPlayOut_again body_plays plays
  | leave _ body_plays => exact roundsPlayOut_leave body_plays
  | nil => exact blockPlaysOut_nil
  | call proceeds evaluates plays => exact blockPlaysOut_call proceeds evaluates plays
  | callInterrupt interrupts => exact blockPlaysOut_callInterrupt interrupts
  | node _ evaluates child_plays plays =>
      obtain ⟨below, entered, out⟩ := child_plays
      exact blockPlaysOut_node entered out evaluates plays
  | nodeInterrupt _ child_plays =>
      obtain ⟨below, entered, out⟩ := child_plays
      exact blockPlaysOut_nodeInterrupt entered out

/-- If the structured evaluation of a flow has an end, then playing the flow unit
after unit from where it is entered gets to the same end: the same callbacks run,
in the same order and with the same sights, and leave the same game and the same
dice behind. -/
theorem playsOut_of_evaluates {flow : Flow G} {scope : Scope} {g g' : G} {dice dice' : Dice}
    {runs : List (CallbackRun G)} {ending : Ending}
    (h : Evaluates (.flow flow) scope g dice runs ending g' dice') :
    ∃ trail, flow.reset g scope = .ok trail ∧
      PlaysOut flow scope .moved trail g dice runs ending g' dice' :=
  simulated_of_evaluates h

/-- A callback that writes a line. -/
def tick : StepCallback Script.Host := fun s => .ok ⟨.proceed, s.game.write "tick", s.dice⟩

/-- A callback that asks the loop around it for something. -/
def ask (i : Interrupt) : StepCallback Script.Host := fun s => .ok ⟨.interrupt i, s.game, s.dice⟩

/-- A node that asks the loop around it for something once so many lines are
written. -/
def askAt (lines : Nat) (i : Interrupt) : Step Script.Host (Flow Script.Host) :=
  .node (ifElse (fun h _ => h.log.length == lines) [.call (ask i)] [])

/-- A loop whose first round is repeated, then cut short, and that is left in
the second. -/
def threeTicks : Flow Script.Host :=
  (range 0 9 [.call tick, askAt 1 .again, askAt 2 .skipOn, askAt 3 .leave]).named (some "i")

theorem playsOut_threeTicks :
    ∃ runs, Evaluates (.flow threeTicks) (.ofArgs .empty) (.fresh 2) default runs .done
        { Script.Host.fresh 2 with log := ["tick", "tick", "tick"] } default ∧
      ∃ trail, threeTicks.reset (.fresh 2) (.ofArgs .empty) = .ok trail ∧
        PlaysOut threeTicks (.ofArgs .empty) .moved trail (.fresh 2) default runs .done
          { Script.Host.fresh 2 with log := ["tick", "tick", "tick"] } default := by
  have evaluates : Evaluates (.flow threeTicks) (.ofArgs .empty) (.fresh 2) default _ .done
      { Script.Host.fresh 2 with log := ["tick", "tick", "tick"] } default :=
    .loop .count <|
      .again (.call rfl (.nodeInterrupt (.switch (.callInterrupt rfl)))) <|
      .next (.call rfl (.node (.switch .nil) (.nodeInterrupt (.switch (.callInterrupt rfl)))))
        (.inr rfl) <|
      .leave (.call rfl (.node (.switch .nil) (.node (.switch .nil)
        (.nodeInterrupt (.switch (.callInterrupt rfl))))))
  exact ⟨_, evaluates, playsOut_of_evaluates evaluates⟩

end Flow

end Tabletop
