import Tabletop.Proofs.Flow.Context
import Tabletop.Proofs.Session.Course
import Tabletop.Proofs.Session.Numbers

/-! # The follow-ups of a move

The follow-ups that a move brings are entered over the flow in which the move was taken,
the first one on top. They have their turns in this order. A turn lasts until the flow of
the follow-up is left, with all that it brings in its turn; what lies below stays as it is,
and none of its step callbacks is run.

Main statements: `Course.served` and `follow_ups_in_order`.
-/

namespace Tabletop

variable {G : Type}

/-! ### The flow of a follow-up -/

namespace Flow

/-- The callback is in a block of the node, or of a node below it. -/
inductive Has : Flow G → StepCallback G → Prop
  | here {flow callback} {block : Block G} (hb : block ∈ flow.blocks)
      (mem : .call callback ∈ block) : Has flow callback
  | inner {flow child callback} (mem : child ∈ flow.children) (has : Has child callback) :
      Has flow callback

variable {flow node : Flow G} {trail : Trail} {scope inner : Scope} {place : Place}
  {callback : StepCallback G}

/-- What a node has that stands in a flow, the flow has. -/
theorem Stands.has (stands : Stands trail flow scope place node inner) (has : node.Has callback) :
    flow.Has callback := by
  induction stands with
  | here => exact has
  | down next _ ih => exact .inner (mem_children_of_next? next) (ih has)
  | lane kind_eq _ _ _ _ ih => exact .inner (mem_children.2 (.inr ⟨_, kind_eq⟩)) (ih has)

/-- The callbacks that a unit runs are those of its flow. -/
theorem has_of_play [Game G] {g : G} {dice : Dice} {p : Progress Trail G} {run : CallbackRun G}
    (played : flow.play trail scope g dice = .ok p) (mem : run ∈ p.runs) :
    flow.Has run.callback := by
  obtain ⟨place, inner, ⟨stands, at_place, next⟩, -⟩ := ranAt_of_play played mem
  obtain ⟨block, hb, in_block⟩ := mem_blocks_of_next? next
  exact stands.has (.here hb in_block)

/-- A flow without callbacks asks for no flow. -/
theorem calls_eq_nil_of_play [Game G] {g : G} {dice : Dice} {p : Progress Trail G}
    (quiet : ∀ callback, ¬flow.Has callback) (played : flow.play trail scope g dice = .ok p) :
    p.calls = [] := by
  have none : ∀ run ∈ p.runs, False := fun run mem => quiet _ (has_of_play played mem)
  cases play_does played with
  | idle => rfl
  | ran => exact absurd List.mem_cons_self (none _)

end Flow

/-- The flow of a follow-up has no callbacks. -/
theorem FollowUp.not_has (f : FollowUp) (id : UInt32) (callback : StepCallback G) :
    ¬(f.flow id : Flow G).Has callback := by
  have step_quiet : ¬(Flow.act f.step : Flow G).Has callback := by
    rintro (⟨hb, mem⟩ | ⟨mem, -⟩)
    · obtain rfl := List.mem_singleton.1 hb
      cases mem
    · rcases Flow.mem_children.1 mem with ⟨block, hb, mem⟩ | ⟨players, ⟨⟩⟩
      obtain rfl := List.mem_singleton.1 hb
      cases mem
  rintro (⟨hb, mem⟩ | ⟨mem, has⟩)
  · obtain rfl := List.mem_singleton.1 hb
    simp at mem
  · rcases Flow.mem_children.1 mem with ⟨block, hb, mem⟩ | ⟨players, ⟨⟩⟩
    obtain rfl := List.mem_singleton.1 hb
    obtain rfl : _ = Flow.act f.step := by simpa using mem
    exact step_quiet has

namespace Rules

variable [Game G] {rules : Rules G} {t t' : Table G} {top : Activation}
  {rest : List Activation}

/-! ### Beats and the stack -/

/-- A follow-up asks for no flow in a unit. -/
theorem asks_nothing {flow : Flow G} {p : Progress Trail G}
    (found : rules.flows.get? t.session.followUps top.flow = some flow)
    (played : flow.play top.trail (.ofArgs top.args) t.game t.session.dice = .ok p)
    (is_followUp : top.flow.followUp?.isSome) : p.calls = [] := by
  cases id_eq : top.flow with
  | followUp id f =>
      rw [id_eq] at found
      obtain ⟨f', -, rfl⟩ := Option.map_eq_some_iff.1 found
      exact Flow.calls_eq_nil_of_play (f'.not_has id) played
  | _ => simp [id_eq, FlowId.followUp?] at is_followUp

/-- The running flow is where it was or has moved on, or it was left for good, and flows were
put on top. What lies below is as it was. A follow-up is left without anything in its place. -/
def MovesOn (top : Activation) (rest stack : List Activation) : Prop :=
  (∃ pushed trail, stack = pushed ++ { top with trail } :: rest) ∨
    ∃ pushed, stack = pushed ++ rest ∧ (top.flow.followUp?.isSome → pushed = [])

theorem UnitEnds.movesOn {p : Progress Trail G} (ends : rules.UnitEnds t p t')
    (stack_eq : t.session.stack = top :: rest)
    (asks_nothing : top.flow.followUp?.isSome → p.calls = []) :
    MovesOn top rest t'.session.stack := by
  have after := stack_afterUnit (p := p) stack_eq
  have pushing (pushed : List Activation) (plain : top.flow.followUp?.isSome → pushed = []) :
      MovesOn top rest (pushed ++ (t.afterUnit p).session.stack) := by
    rw [after]
    split
    · exact .inr ⟨pushed, rfl, plain⟩
    · exact .inl ⟨pushed, p.trail, rfl⟩
  cases ends with
  | stays => exact pushing [] fun _ => rfl
  | finish => exact pushing [] fun _ => rfl
  | @enters a asked => exact pushing [a] fun is_followUp => absurd (asks_nothing is_followUp) asked

/-- In a beat the running flow moves on, and what lies below stays as it is. -/
theorem Beat.movesOn {runs : List (CallbackRun G)} (beat : rules.Beat t runs t')
    (stack_eq : t.session.stack = top :: rest) : MovesOn top rest t'.session.stack := by
  cases beat with
  | unit playing on_top found played =>
      rename_i top' flow p
      obtain rfl : top = top' := by
        rw [Session.top?, stack_eq] at on_top
        exact Option.some.inj on_top
      exact (unitEnds playing on_top found played).movesOn stack_eq (asks_nothing found played)
  | finish playing empty => simp [stack_eq] at empty
  | skip =>
      obtain ⟨trail, moved⟩ := (skipUnplayable_moves stack_eq).holds.exists_trail
      exact .inl ⟨[], trail, moved⟩
  | settle mem move performed =>
      obtain ⟨trail, moved⟩ := (settleMove_moves stack_eq _ move performed).holds.exists_trail
      exact .inl ⟨[], trail, moved⟩
  | follow playing nonempty outcome =>
      obtain ⟨pushed, on_it⟩ := (takeOutcome_pushes rules t outcome).holds.exists_pushed
      exact .inl ⟨pushed, top.trail, on_it.trans (by rw [stack_eq])⟩
  | start =>
      rcases (start_ends rules t).holds with same | ⟨a, -, on_it⟩
      · exact .inl ⟨[], top.trail, by rw [same, stack_eq]; rfl⟩
      · exact .inl ⟨[a], top.trail, on_it.trans (by rw [stack_eq]; rfl)⟩
  | aside same => exact .inl ⟨[], top.trail, same.stack_eq.trans stack_eq⟩

end Rules

/-! ### Turns -/

/-- A follow-up has its turn: its flow is under way, over some flows that stay as they are. -/
def Moment.InTurn (m : Moment G) (a : Activation) (below : List Activation) : Prop :=
  ∃ above trail, m.table.session.stack = above ++ { a with trail } :: below

/-- In some moments follow-ups have their turns one after the other, over flows that are left
as they are. Each is on top when its turn begins, which ends when it is left, with the next
one on top. It may be that the moments end before all turns are over. -/
inductive Served (left : List Activation) : List Activation → List (Moment G) → Prop
  | done {m : Moment G} {later : List (Moment G)} (stack_eq : m.table.session.stack = left) :
      Served left [] (m :: later)
  | turn {a : Activation} {queue : List Activation} {m : Moment G} {during later : List (Moment G)}
      (on_top : m.table.session.stack = a :: (queue ++ left))
      (in_turn : ∀ m' ∈ m :: during, m'.InTurn a (queue ++ left))
      (next : Served left queue later) : Served left (a :: queue) (m :: during ++ later)
  | unfinished {a : Activation} {queue : List Activation} {m : Moment G}
      {during : List (Moment G)} (on_top : m.table.session.stack = a :: (queue ++ left))
      (in_turn : ∀ m' ∈ m :: during, m'.InTurn a (queue ++ left)) :
      Served left (a :: queue) (m :: during)

namespace Rules

variable [Game G] {rules : Rules G} {t t' : Table G} {a : Activation}
  {queue left : List Activation} {moments : List (Moment G)}

/-- Some moments are in the turn of a follow-up until the others are served. -/
def InTurnUntil (a : Activation) (queue left : List Activation) (moments : List (Moment G)) :
    Prop :=
  ∃ m during later, moments = (m :: during) ++ later ∧
    (∀ m' ∈ m :: during, m'.InTurn a (queue ++ left)) ∧ (later = [] ∨ Served left queue later)

/-- Follow-ups are served if the turn of the first one lasts until the others are served. -/
theorem Course.served_of_inTurnUntil (course : rules.Course t moments t')
    (stack_eq : t.session.stack = queue ++ left)
    (first : ∀ a rest, queue = a :: rest → InTurnUntil a rest left (moments ++ [⟨t', []⟩])) :
    Served left queue (moments ++ [⟨t', []⟩]) := by
  obtain ⟨runs, after, moments_eq⟩ := course.exists_cons
  rw [moments_eq] at first ⊢
  cases queue with
  | nil => exact .done stack_eq
  | cons a rest =>
      obtain ⟨m, during, later, same, in_turns, next⟩ := first a rest rfl
      obtain ⟨rfl, after_eq⟩ := List.cons_eq_cons.1 same
      rcases next with rfl | next
      · obtain rfl : after = during := by simpa using after_eq
        exact .unfinished stack_eq in_turns
      · rw [same]
        exact .turn stack_eq in_turns next

/-- From the turn of a follow-up on, a course stays in the turn until the others are served. -/
theorem Course.inTurnUntil (course : rules.Course t moments t')
    (followUps : ∀ b ∈ a :: queue, b.flow.followUp?.isSome)
    (in_turn : ∃ above trail, t.session.stack = above ++ { a with trail } :: (queue ++ left)) :
    InTurnUntil a queue left (moments ++ [⟨t', []⟩]) := by
  induction course generalizing a queue with
  | nil => exact ⟨_, [], [], rfl, by simpa [Moment.InTurn] using in_turn, .inl rfl⟩
  | @cons t t₁ t' runs moments beat course ih =>
      have stays (in_turn' : ∃ above trail,
          t₁.session.stack = above ++ { a with trail } :: (queue ++ left)) :
          InTurnUntil a queue left (⟨t, runs⟩ :: moments ++ [⟨t', []⟩]) := by
        obtain ⟨m, during, later, moments_eq, in_turns, next⟩ := ih followUps in_turn'
        refine ⟨⟨t, runs⟩, m :: during, later, congrArg (List.cons _) moments_eq, ?_, next⟩
        exact List.forall_mem_cons.2 ⟨in_turn, in_turns⟩
      obtain ⟨above, trail, stack_eq⟩ := in_turn
      cases above with
      | cons b above =>
          -- The running flow is above the follow-up, whose turn goes on.
          rcases beat.movesOn stack_eq with ⟨pushed, trail', moved⟩ | ⟨pushed, moved, -⟩
          · exact stays ⟨pushed ++ { b with trail := trail' } :: above, trail, by simpa using moved⟩
          · exact stays ⟨pushed ++ above, trail, by simpa using moved⟩
      | nil =>
          rcases beat.movesOn stack_eq with ⟨pushed, trail', moved⟩ | ⟨pushed, moved, alone⟩
          · exact stays ⟨pushed, trail', moved⟩
          · -- The follow-up is left, and nothing is in its place.
            obtain rfl : pushed = [] := alone (followUps a List.mem_cons_self)
            refine ⟨⟨t, runs⟩, [], moments ++ [⟨t', []⟩], rfl, ?_, .inr ?_⟩
            · exact List.forall_mem_singleton.2 ⟨[], trail, stack_eq⟩
            · refine course.served_of_inTurnUntil moved ?_
              rintro b rest rfl
              exact ih (fun c mem => followUps c (List.mem_cons_of_mem _ mem)) ⟨[], b.trail, moved⟩

/-- On every course follow-ups that are on top of other flows are served in turn. -/
theorem Course.served (course : rules.Course t moments t')
    (followUps : ∀ b ∈ queue, b.flow.followUp?.isSome)
    (stack_eq : t.session.stack = queue ++ left) : Served left queue (moments ++ [⟨t', []⟩]) := by
  refine course.served_of_inTurnUntil stack_eq ?_
  rintro a rest rfl
  exact course.inTurnUntil followUps ⟨[], a.trail, stack_eq⟩

/-! ### What a move brings -/

/-- Settles a move that was submitted, before the game plays on. -/
def applyMove (rules : Rules G) (s : Stop G) (move : Move) (performed : Performed G) :
    Drive G Unit := do
  settleMove s move performed
  rules.recordMove move performed
  rules.takeOutcome performed.1

/-- Settles a move that was forced, before the game plays on. -/
def applyForced (rules : Rules G) (s : Stop G) (move : Move) (performed : Performed G) :
    Drive G Unit := do
  settleMove s move performed
  rules.takeOutcome performed.1

/-- A move is accepted with an outcome, and settled: it is submitted where its player may
move and carried out there, or it is forced. -/
inductive Accepts (rules : Rules G) (t : Table G) (move : Move) : Outcome → Table G → Prop
  | submitted {s : Stop G} {performed : Performed G} {applied : Table G}
      (finds : Stop.findFor t.game move.player (rules.stopsNow t) = .ok (some s))
      (performs : rules.perform s t.game t.session.dice move = .ok (.ok performed))
      (applies : (rules.applyMove s move performed).on t = (.ok (), applied)) :
      Accepts rules t move performed.1 applied
  | forced {s : Stop G} {performed : Performed G} {applied : Table G}
      (stop_eq : rules.forcedStop? move t = some s)
      (performs : rules.performForced s t.game t.session.dice move = .ok performed)
      (applies : (rules.applyForced s move performed).on t = (.ok (), applied)) :
      Accepts rules t move performed.1 applied

/-- The moves that are submitted without a refusal are accepted, and the game plays on. -/
theorem exists_accepts_of_submit {move : Move} (h : (rules.submit move).on t = (.ok none, t')) :
    ∃ outcome applied, rules.Accepts t move outcome applied ∧
      rules.play.on applied = (.ok (), t') := by
  obtain ⟨s, finds, ⟨refusal, -, ⟨⟩, -⟩ | ⟨performed, performs, carries, -⟩⟩ := submit_eq_ok.1 h
  have in_two : rules.carryOn s move performed = (do
      rules.applyMove s move performed
      rules.play) := by
    simp only [carryOn, applyMove, recordMove, bind_assoc]
  rw [in_two] at carries
  obtain ⟨⟨⟩, applied, applies, plays⟩ := Drive.on_bind_eq_ok.1 carries
  exact ⟨_, applied, .submitted finds performs applies, plays⟩

/-- The moves that are forced are accepted, and the game plays on. -/
theorem exists_accepts_of_force {move : Move} (h : (rules.force move).on t = (.ok (), t')) :
    ∃ outcome applied, rules.Accepts t move outcome applied ∧
      rules.play.on applied = (.ok (), t') := by
  cases stop_eq : rules.forcedStop? move t with
  | none =>
      obtain ⟨e, -, fails⟩ := force_fails stop_eq
      rw [fails] at h
      cases h
  | some s =>
      rw [on_force stop_eq] at h
      split at h
      · cases h
      rename_i performed performs
      have in_two : (do
          settleMove s move performed
          rules.takeOutcome performed.1
          rules.play : Drive G Unit) = (do
          rules.applyForced s move performed
          rules.play) := by
        simp only [applyForced, bind_assoc]
      rw [in_two] at h
      obtain ⟨⟨⟩, applied, applies, plays⟩ := Drive.on_bind_eq_ok.1 h
      exact ⟨_, applied, .forced stop_eq performs applies, plays⟩

/-- A move is accepted only where the running flow waits. -/
theorem Accepts.stopsNow_ne_nil {move : Move} {outcome : Outcome} {applied : Table G}
    (h : rules.Accepts t move outcome applied) : rules.stopsNow t ≠ [] := by
  cases h with
  | submitted finds => exact List.ne_nil_of_mem (mem_of_findFor finds)
  | forced stop_eq => exact List.ne_nil_of_mem (mem_of_forcedStop? stop_eq)

/-- The flows under way are those of some follow-ups, one after the other. -/
def Brings (followUps : List FollowUp) (queue : List Activation) : Prop :=
  queue.map (·.flow.followUp?.map Prod.snd) = followUps.map some

omit [Game G] in
theorem Brings.isSome {followUps : List FollowUp} (brings : Brings followUps queue) :
    ∀ b ∈ queue, b.flow.followUp?.isSome := by
  intro b mem
  have listed : b.flow.followUp?.map Prod.snd ∈ followUps.map some :=
    brings ▸ List.mem_map_of_mem mem
  obtain ⟨f, -, same⟩ := List.mem_map.1 listed
  have is_some : (b.flow.followUp?.map Prod.snd).isSome := same ▸ rfl
  simpa using is_some

theorem enterFollowUp_eq_ok {f : FollowUp} (h : (rules.enterFollowUp f).on t = (.ok (), t')) :
    ∃ a, Brings [f] [a] ∧ t'.session.stack = a :: t.session.stack := by
  by_cases declared : rules.repertoire.contains f.name
  · obtain ⟨trail, -, ends⟩ := on_enterFollowUp (t := t) .faults declared
    rw [ends] at h
    split at h
    · cases h
      refine ⟨_, ?_, rfl⟩
      rfl
    · cases h
  · rw [enterFollowUp, if_neg declared] at h
    cases h

/-- Follow-ups are entered one over the other. -/
theorem exists_of_enterFollowUps {followUps : List FollowUp}
    (h : (followUps.forM rules.enterFollowUp).on t = (.ok (), t')) :
    ∃ entered, Brings followUps entered ∧
      t'.session.stack = entered.reverse ++ t.session.stack := by
  induction followUps generalizing t with
  | nil =>
      cases h
      exact ⟨[], rfl, rfl⟩
  | cons f followUps ih =>
      obtain ⟨_, t₁, first, later⟩ := Drive.on_bind_eq_ok.1 h
      obtain ⟨a, of_f, stack_eq⟩ := enterFollowUp_eq_ok first
      obtain ⟨entered, brings, stack_eq'⟩ := ih later
      refine ⟨a :: entered, congrArg₂ List.append of_f brings, ?_⟩
      rw [stack_eq', stack_eq, List.reverse_cons, List.append_assoc]
      rfl

/-- The follow-ups of an outcome are on top, the first one uppermost. -/
theorem exists_of_takeOutcome {outcome : Outcome}
    (h : (rules.takeOutcome outcome).on t = (.ok (), t')) :
    ∃ queue, Brings outcome.followUps queue ∧ t'.session.stack = queue ++ t.session.stack := by
  obtain ⟨_, t₁, announced, enters⟩ := Drive.on_bind_eq_ok.1 h
  cases announced
  obtain ⟨entered, brings, stack_eq⟩ := exists_of_enterFollowUps enters
  refine ⟨entered.reverse, ?_, stack_eq⟩
  rw [Brings, List.map_reverse, brings, ← List.map_reverse, List.reverse_reverse]

/-- A move is settled in the running flow alone. -/
theorem exists_of_settleMove {s : Stop G} {move : Move} {performed : Performed G}
    (stack_eq : t.session.stack = top :: rest)
    (h : (settleMove s move performed).on t = (.ok (), t')) :
    ∃ settled, t'.session.stack = { top with trail := settled } :: rest := by
  have moves := (settleMove_moves stack_eq s move performed).holds
  rw [h] at moves
  exact moves.exists_trail

/-- An accepted move is settled in the running flow, and its follow-ups are put on top. -/
theorem Accepts.exists_queue {move : Move} {outcome : Outcome} {applied : Table G}
    (h : rules.Accepts t move outcome applied) (stack_eq : t.session.stack = top :: rest) :
    ∃ settled queue, Brings outcome.followUps queue ∧
      applied.session.stack = queue ++ { top with trail := settled } :: rest := by
  cases h with
  | @submitted s performed applied _ _ applies =>
      obtain ⟨_, t₁, settles, applies⟩ := Drive.on_bind_eq_ok.1 applies
      obtain ⟨_, t₂, records, follows⟩ := Drive.on_bind_eq_ok.1 applies
      have same := recordMove_same rules t₁ move performed
      rw [records] at same
      obtain ⟨settled, settled_eq⟩ := exists_of_settleMove stack_eq settles
      obtain ⟨queue, brings, on_top⟩ := exists_of_takeOutcome follows
      refine ⟨settled, queue, brings, ?_⟩
      rw [on_top, same.stack_eq, settled_eq]
  | forced _ _ applies =>
      obtain ⟨_, t₁, settles, follows⟩ := Drive.on_bind_eq_ok.1 applies
      obtain ⟨settled, settled_eq⟩ := exists_of_settleMove stack_eq settles
      obtain ⟨queue, brings, on_top⟩ := exists_of_takeOutcome follows
      refine ⟨settled, queue, brings, ?_⟩
      rw [on_top, settled_eq]

/-- What is run in the moment is next in the running flow. -/
def RunsOnTop (rules : Rules G) (m : Moment G) : Prop :=
  ∀ run ∈ m.runs, ∃ top flow place, m.table.session.top? = some top ∧
    rules.flows.get? m.table.session.followUps top.flow = some flow ∧
      flow.RanAt top.trail (.ofArgs top.args) m.table.game m.table.session.dice place run

theorem Course.runsOnTop (course : rules.Course t moments t') :
    ∀ m ∈ moments, rules.RunsOnTop m := by
  induction course with
  | nil => simp
  | cons beat _ ih =>
      refine List.forall_mem_cons.2 ⟨?_, ih⟩
      cases beat with
      | unit playing on_top found played =>
          intro run mem
          obtain ⟨place, ran⟩ := Flow.ranAt_of_play played mem
          exact ⟨_, _, place, on_top, found, ran⟩
      | _ => exact fun _ mem => absurd mem List.not_mem_nil

/-- What lies below the running flow stays as it is in a unit of play, and when a move is
accepted and settled. The follow-ups of the move are on top of the flow then, the first one
uppermost, and through all operations that go on they are served in this order; what is run
until then is run in flows over the one of the move. -/
theorem follow_ups_in_order (rules : Rules G) :
    (∀ (t : Table G) (top : Activation) (rest : List Activation),
      t.session.stack = top :: rest →
        ∃ above, (rules.playOne.on t).2.session.stack = above ++ rest) ∧
    ∀ (t t' : Table G) (move : Move),
      (rules.submit move).on t = (.ok none, t') ∨ (rules.force move).on t = (.ok (), t') →
        ∃ (outcome : Outcome) (applied : Table G) (top : Activation)
          (rest queue : List Activation) (settled : Trail),
          rules.Accepts t move outcome applied ∧ rules.play.on applied = (.ok (), t') ∧
          t.session.stack = top :: rest ∧
          applied.session.stack = queue ++ { top with trail := settled } :: rest ∧
          Brings outcome.followUps queue ∧
          ∀ ops : List (Operation G), (∀ op ∈ ops, op.startsOver = false) →
            let moments :=
              rules.playMoments rules.config.maxSteps applied ++ rules.moments ops t'
            (∀ m ∈ moments, rules.RunsOnTop m) ∧
              Served ({ top with trail := settled } :: rest) queue
                (moments ++ [⟨(rules.runAll ops t').2, []⟩]) := by
  constructor
  · intro t top rest stack_eq
    rcases (beat_of_playOne rules t).movesOn stack_eq with
      ⟨pushed, trail, moved⟩ | ⟨pushed, moved, -⟩
    · exact ⟨pushed ++ [{ top with trail }], by simpa using moved⟩
    · exact ⟨pushed, moved⟩
  · intro t t' move answered
    obtain ⟨outcome, applied, accepts, plays⟩ :
        ∃ outcome applied, rules.Accepts t move outcome applied ∧
          rules.play.on applied = (.ok (), t') := by
      rcases answered with submitted | forced
      · exact exists_accepts_of_submit submitted
      · exact exists_accepts_of_force forced
    obtain ⟨top, rest, stack_eq⟩ := exists_stack_eq accepts.stopsNow_ne_nil
    obtain ⟨settled, queue, brings, applied_eq⟩ := accepts.exists_queue stack_eq
    refine ⟨outcome, applied, top, rest, queue, settled, accepts, plays, stack_eq, applied_eq,
      brings, ?_⟩
    intro ops go_on moments
    have played : rules.Course applied (rules.playMoments rules.config.maxSteps applied) t' := by
      have leads : rules.Course applied _ (rules.play.on applied).2 := play_leads
      rwa [plays] at leads
    have course : rules.Course applied moments (rules.runAll ops t').2 :=
      played.append (course_runAll ops go_on)
    exact ⟨course.runsOnTop, course.served brings.isSome applied_eq⟩

theorem follow_ups_in_order_errands :
    ∃ t t' : Table Script.Host, (errands.submit errands.send).on t = (.ok none, t') ∧
      ∃ (applied : Table Script.Host) (left queue : List Activation),
        Brings [errands.passOn, errands.fetch ⟨0⟩] queue ∧
          applied.session.stack = queue ++ left ∧
            Served left queue (errands.playMoments errands.config.maxSteps applied ++
              errands.moments errands.done t' ++ [⟨(errands.runAll errands.done t').2, []⟩]) ∧
              (errands.runAll errands.done t').2.session.stack.map (·.flow) = [.main] := by
  obtain ⟨t, accepted, told, left_main⟩ : ∃ t : Table Script.Host,
      ((errands.submit errands.send).on t).1 = .ok none ∧
        ((Stop.findFor t.game ⟨0⟩ (errands.stopsNow t)).toOption.join.bind fun s =>
          (errands.perform s t.game t.session.dice errands.send).toOption.bind
            fun result => result.toOption.map (·.1.followUps)) =
              some [errands.passOn, errands.fetch ⟨0⟩] ∧
        (errands.runAll errands.done ((errands.submit errands.send).on t).2).2.session.stack.map
          (·.flow) = [.main] :=
    ⟨(errands.runAll [.start, .play] ⟨.new errands.config, .fresh 2⟩).2, by decide +kernel,
      by decide +kernel, by decide +kernel⟩
  have accepted := Drive.on_eq_of_fst accepted
  obtain ⟨outcome, applied, top, rest, queue, settled, accepts, -, -, stack_eq, brings, served⟩ :=
    (follow_ups_in_order errands).2 t _ errands.send (.inl accepted)
  have followUps_eq : outcome.followUps = [errands.passOn, errands.fetch ⟨0⟩] := by
    cases accepts with
    | submitted finds performs applies =>
        rw [show Stop.findFor t.game ⟨0⟩ (errands.stopsNow t) = .ok (some _) from finds] at told
        simpa [Except.toOption, performs] using told
    | forced stop_eq => cases stop_eq
  obtain ⟨-, in_order⟩ := served errands.done (by simp [errands.done, Operation.startsOver])
  exact ⟨t, _, accepted, applied, _, queue, followUps_eq ▸ brings, stack_eq, in_order, left_main⟩

end Rules

end Tabletop
