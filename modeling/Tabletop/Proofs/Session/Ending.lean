import Tabletop.Proofs.Session.Course
import Tabletop.Script.Statement

/-! # The end of a game

A game is over once its last flow has come to its end. As long as a flow is under way the
game is played. The other way round there is one exception: in the unit in which the last
flow comes to its end it may ask for a flow that cannot be entered, and the operation then
ends in an error with a game that is played and has no flow under way.

Main statements: `Course.standing` and `status_and_stack`.
-/

namespace Tabletop

variable {G : Type}

namespace Rules

variable [Game G] {rules : Rules G} {t t' : Table G} {p : Progress Trail G}
  {moments : List (Moment G)}

/-- The last flow under way comes to its end in a unit from the table. -/
inductive CompletesLast (rules : Rules G) (t : Table G) (p : Progress Trail G) : Prop
  | intro {top : Activation} {flow : Flow G} (playing : t.session.status = .playing)
      (stack_eq : t.session.stack = [top])
      (found : rules.flows.get? t.session.followUps top.flow = some flow)
      (played : flow.play top.trail (.ofArgs top.args) t.game t.session.dice = .ok p)
      (completes : p.signal = .complete)

/-- The last flow comes to its end and asks for a flow that cannot be entered: it is not
declared, or the author made a mistake there. -/
def Strands (rules : Rules G) (t : Table G) : Prop :=
  ∃ p call, rules.CompletesLast t p ∧ p.calls = [call] ∧
    ((rules.flows.subflows.get? call.name = none ∧
        (rules.playOne.on t).1 = .error (.unknownFlow call.name)) ∨
      ∃ fault, (rules.playOne.on t).1 = .error (.fault fault))

/-- How a game stands after some moments. -/
structure Standing (rules : Rules G) (t : Table G) (moments : List (Moment G)) : Prop where
  /-- A game with a flow under way is played. -/
  playing_of_flow : t.session.stack ≠ [] → t.session.status = .playing
  /-- A game is over after its last flow came to its end. -/
  completed : t.session.status = .finished → ∃ m ∈ moments, ∃ p, rules.CompletesLast m.table p
  /-- A game that is played has a flow under way, unless a flow could not be entered. -/
  stranded : t.session.status = .playing →
    t.session.stack ≠ [] ∨ ∃ m ∈ moments, rules.Strands m.table

theorem entryTrail_eq_error {name : String} {args : Args} {e : PlayError}
    (fails : rules.entryTrail t (.subflow name) args = .error e) :
    (rules.flows.subflows.get? name = none ∧ e = .unknownFlow name) ∨
      ∃ fault, e = .fault fault := by
  unfold entryTrail at fails
  cases found : rules.flows.get? t.session.followUps (.subflow name) with
  | none =>
      rw [FlowBook.get, found] at fails
      cases fails
      exact .inl ⟨found, rfl⟩
  | some flow =>
      rw [FlowBook.get_eq_ok.2 found] at fails
      change Playing.ofChecked (flow.reset t.game (.ofArgs args)) = .error e at fails
      cases entered : flow.reset t.game (.ofArgs args) with
      | ok trail =>
          rw [entered] at fails
          cases fails
      | error fault =>
          rw [entered] at fails
          cases fails
          exact .inr ⟨fault, rfl⟩

/-- A last flow that comes to its end and asks in vain strands the game. -/
theorem strands_of_callFails (completes : rules.CompletesLast t p) (fails : rules.CallFails t p) :
    rules.Strands t := by
  obtain ⟨call, e, asked, missing, unit_eq⟩ := fails
  refine ⟨p, call, completes, asked, ?_⟩
  rw [unit_eq]
  rcases entryTrail_eq_error missing with ⟨undeclared, rfl⟩ | ⟨fault, rfl⟩
  · exact .inl ⟨undeclared, rfl⟩
  · exact .inr ⟨fault, rfl⟩

/-! ### Beats -/

namespace Standing

/-- A new game stands. -/
theorem new (config : Config) (g : G) : rules.Standing ⟨.new config, g⟩ moments :=
  ⟨fun some_flow => absurd rfl some_flow, nofun, nofun⟩

/-- It stands as before if the status is the same and no last flow came or went. -/
theorem still (h : rules.Standing t moments) (status_eq : t'.session.status = t.session.status)
    (nil_iff : t'.session.stack = [] ↔ t.session.stack = []) : rules.Standing t' moments where
  playing_of_flow := by
    rw [status_eq, Ne, nil_iff]
    exact h.playing_of_flow
  completed := by
    rw [status_eq]
    exact h.completed
  stranded := by
    rw [status_eq, Ne, nil_iff]
    exact h.stranded

/-- A game that is played with a flow under way stands. -/
theorem of_flow (playing : t.session.status = .playing) (some_flow : t.session.stack ≠ []) :
    rules.Standing t moments where
  playing_of_flow := fun _ => playing
  completed := by
    rw [playing]
    exact nofun
  stranded := fun _ => .inl some_flow

theorem mono (h : rules.Standing t moments) (later : List (Moment G)) :
    rules.Standing t (moments ++ later) where
  playing_of_flow := h.playing_of_flow
  completed := by
    intro finished
    obtain ⟨m, mem, completes⟩ := h.completed finished
    exact ⟨m, List.mem_append_left _ mem, completes⟩
  stranded := by
    intro playing
    refine (h.stranded playing).imp_right ?_
    rintro ⟨m, mem, strands⟩
    exact ⟨m, List.mem_append_left _ mem, strands⟩

/-- A game that is over without a flow stands if its last flow came to its end. -/
theorem of_completed (empty : t.session.stack = []) {m : Moment G} (mem : m ∈ moments)
    (completes : rules.CompletesLast m.table p) (finished : t.session.status = .finished) :
    rules.Standing t moments where
  playing_of_flow := fun some_flow => absurd empty some_flow
  completed := fun _ => ⟨m, mem, p, completes⟩
  stranded := by
    rw [finished]
    exact nofun

end Standing

/-- What is left of a last flow. -/
theorem completesLast_of_empty {top : Activation} {flow : Flow G}
    (playing : t.session.status = .playing) (on_top : t.session.top? = some top)
    (found : rules.flows.get? t.session.followUps top.flow = some flow)
    (played : flow.play top.trail (.ofArgs top.args) t.game t.session.dice = .ok p)
    (empty : (t.afterUnit p).session.stack = []) : rules.CompletesLast t p := by
  obtain ⟨rest, stack_eq⟩ := List.head?_eq_some_iff.1 on_top
  rw [stack_afterUnit stack_eq] at empty
  split at empty
  · rename_i completes
    obtain rfl := empty
    exact .intro playing stack_eq found played completes
  · cases empty

/-- After a unit of play the game stands. -/
theorem Standing.unit {top : Activation} {flow : Flow G}
    (playing : t.session.status = .playing) (on_top : t.session.top? = some top)
    (found : rules.flows.get? t.session.followUps top.flow = some flow)
    (played : flow.play top.trail (.ofArgs top.args) t.game t.session.dice = .ok p) :
    rules.Standing (rules.playOne.on t).2 (moments ++ [⟨t, p.runs⟩]) := by
  have last : (⟨t, p.runs⟩ : Moment G) ∈ moments ++ [⟨t, p.runs⟩] :=
    List.mem_append_right _ (List.mem_singleton_self _)
  have still_playing : (t.afterUnit p).session.status = .playing :=
    (status_afterUnit t p).trans playing
  have completes (empty : (t.afterUnit p).session.stack = []) : rules.CompletesLast t p :=
    completesLast_of_empty playing on_top found played empty
  have ends := unitEnds playing on_top found played
  generalize (rules.playOne.on t).2 = t' at ends ⊢
  cases ends with
  | stays left =>
      rcases left with some_flow | fails
      · exact .of_flow still_playing some_flow
      · by_cases empty : (t.afterUnit p).session.stack = []
        · refine ⟨fun some_flow => absurd empty some_flow, ?_, fun _ => .inr ⟨_, last, ?_⟩⟩
          · rw [still_playing]
            exact nofun
          · exact strands_of_callFails (completes empty) fails
        · exact .of_flow still_playing empty
  | finish empty => exact .of_completed empty last (completes empty) rfl
  | enters => exact .of_flow still_playing (List.cons_ne_nil _ _)

/-- Moving the running flow on leaves the game as it stands. -/
theorem Standing.movesTop {top : Activation} {rest : List Activation}
    (h : rules.Standing t moments) (stack_eq : t.session.stack = top :: rest)
    (moves : MovesTop top rest t t') : rules.Standing t' moments := by
  obtain ⟨trail, moved⟩ := moves.exists_trail
  exact h.still moves.status_eq (by simp [moved, stack_eq])

theorem Standing.skip (h : rules.Standing t moments) :
    rules.Standing (rules.skipUnplayable.on t).2 moments := by
  cases stack_eq : t.session.stack with
  | nil =>
      have on_top : t.session.top? = none := congrArg List.head? stack_eq
      simpa only [skipUnplayable, Drive.on_bind, Drive.on_session, on_top, Drive.on_pure] using h
  | cons top rest => exact h.movesTop stack_eq (skipUnplayable_moves stack_eq).holds

/-- After each beat the game stands. -/
theorem Standing.beat {runs : List (CallbackRun G)} (h : rules.Standing t moments)
    (beat : rules.Beat t runs t') : rules.Standing t' (moments ++ [⟨t, runs⟩]) := by
  cases beat with
  | unit playing on_top found played => exact .unit playing on_top found played
  | finish playing empty =>
      have ends : (rules.playOne.on t).2 = { t with session := t.session.finish } := by
        have on_top : t.session.top? = none := congrArg List.head? empty
        simp only [playOne, Drive.on_bind, Drive.on_session, playing, on_top, Drive.on_change,
          Drive.on_pure]
      rw [ends]
      rcases h.stranded playing with some_flow | ⟨m, mem, p, call, completes, -⟩
      · exact absurd empty some_flow
      · exact .of_completed empty (List.mem_append_left _ mem) completes rfl
  | skip => exact h.skip.mono _
  | settle mem move performed =>
      obtain ⟨top, rest, stack_eq⟩ := exists_stack_eq (List.ne_nil_of_mem mem)
      exact (h.movesTop stack_eq (settleMove_moves stack_eq _ move performed).holds).mono _
  | follow playing nonempty outcome =>
      have pushes := (takeOutcome_pushes rules t outcome).holds
      obtain ⟨pushed, on_it⟩ := pushes.exists_pushed
      refine .of_flow (pushes.status_eq.trans playing) ?_
      simp [on_it, nonempty]
  | start =>
      rcases (start_ends rules t).holds with same | ⟨a, starts, on_it⟩
      · rw [same]
        exact h.mono _
      · refine .of_flow starts ?_
        rw [on_it]
        exact List.cons_ne_nil _ _
  | aside same => exact (h.still same.status_eq (by rw [same.stack_eq])).mono _

/-- On a course the game stands in every moment. -/
theorem Course.standing {later : List (Moment G)} (course : rules.Course t later t')
    (h : rules.Standing t moments) : rules.Standing t' (moments ++ later) := by
  induction course generalizing moments with
  | nil => simpa using h
  | cons beat _ ih => simpa using ih (h.beat beat)

/-- Whatever is done, other than taking up a snapshot, the game stands. -/
theorem Standing.runAll (h : rules.Standing t moments) (ops : List (Operation G))
    (plain : ∀ op ∈ ops, op.isRestore = false) :
    rules.Standing (rules.runAll ops t).2 (moments ++ rules.moments ops t) := by
  induction ops generalizing t moments with
  | nil =>
      rw [Rules.moments, List.append_nil]
      exact h
  | cons op ops ih =>
      obtain ⟨op_plain, ops_plain⟩ := List.forall_mem_cons.1 plain
      have after : rules.Standing ((op.run rules).on t).2 (moments ++ rules.momentsOf t op) := by
        cases startsOver : op.startsOver with
        | false => exact (course_run op startsOver).standing h
        | true =>
            cases op with
            | replay moves =>
                have left : (((Operation.replay moves).run rules).on t).2 =
                    ((rules.replay moves).on t).2 := congrArg Prod.snd Drive.on_bind_pure
                rw [left]
                exact (course_replay moves).standing (.new rules.config t.game)
            | restore | restoreText => cases op_plain
            | _ => cases startsOver
      have later := ih after ops_plain
      rwa [List.append_assoc] at later

omit [Game G] in
/-- The snapshot of a coherent session is refused exactly if the game is played without a
flow under way. -/
theorem fst_restore_snapshot {s : Session} (h : rules.Coherent s) (u : Table G) :
    ((rules.restore s.snapshot).on u).1 =
      if s.status = .playing ∧ s.stack = [] then .error (.invalidTrail FlowId.mainName .noFlow)
      else .ok () := by
  split
  · rename_i stuck
    have refused : rules.checkSnapshot u.session.followUps s.snapshot =
        .error (.invalidTrail FlowId.mainName .noFlow) :=
      if_pos ⟨stuck.1, List.isEmpty_iff.2 stuck.2⟩
    have refused : rules.checkRestore u.session.followUps s.snapshot .faults =
        .error (.invalidTrail FlowId.mainName .noFlow) := by
      rw [checkRestore, refused]
      rfl
    simp only [restore, Drive.on_bind, Drive.on_session, Drive.on_playing, refused]
  · rename_i not_stuck
    have live : s.Live := fun playing empty => not_stuck ⟨playing, empty⟩
    rw [restore_snapshot ⟨h, live⟩]

/-- Whatever is done at a new table, with whatever replies, a game with a flow under way is
played, and it is over only after its last flow came to its end. It is played without a flow
only if its last flow asked, in the unit in which it came to its end, for a flow that could
not be entered. So the status and the flows under way agree if all replies are given, and a
snapshot of the game is refused in that one case only. -/
theorem status_and_stack (rules : Rules G) (g : G) (ops : List (Operation G))
    (plain : ∀ op ∈ ops, op.isRestore = false) :
    let new : Table G := ⟨.new rules.config, g⟩
    let after := rules.runAll ops new
    let t := after.2
    rules.Standing t (rules.moments ops new) ∧
      (Replied after.1 → (t.session.status = .playing ↔ t.session.stack ≠ [])) ∧
      ∀ u : Table G, ((rules.restore t.session.snapshot).on u).1 =
        if t.session.status = .playing ∧ t.session.stack = [] then
          .error (.invalidTrail FlowId.mainName .noFlow)
        else .ok () := by
  intro new after t
  have run : Runs rules after.1 t := (Runs.new g).runAll ops plain
  have standing : rules.Standing t ([] ++ rules.moments ops new) :=
    (Standing.new rules.config g).runAll ops plain
  refine ⟨standing, ?_, ?_⟩
  · intro replied
    exact ⟨(run.sound replied).live, standing.playing_of_flow⟩
  · exact fun u => fst_restore_snapshot run.coherent u

/-- The main flow asks for a flow that is not declared, and has come to its end then. -/
def astray : Rules Script.Host where
  flows := .ofMain (.sequence [.call (Script.stepCallback [.subflow "nowhere" []])])
  repertoire := .empty
  config := { maxSteps := 8 }

/-- A game that is started and played. -/
def astray.played : List (Playing Reply) × Table Script.Host :=
  astray.runAll [.start, .play] ⟨.new astray.config, .fresh 2⟩

/-- The game is played without a flow under way, and its snapshot is refused. -/
theorem played_without_flow_astray :
    checkFlow astray.repertoire astray.flows.main = .ok () ∧
      ((Operation.play.run astray).on
          ((Operation.start.run astray).on ⟨.new astray.config, .fresh 2⟩).2).1 =
        .error (.unknownFlow "nowhere") ∧
      ¬(astray.played.2.session.status = .playing ↔ astray.played.2.session.stack ≠ []) ∧
        ((astray.restore astray.played.2.session.snapshot).on astray.played.2).1 =
          .error (.invalidTrail FlowId.mainName .noFlow) := by
  have playing : astray.played.2.session.status = .playing := by decide +kernel
  have empty : astray.played.2.session.stack = [] := by decide +kernel
  refine ⟨by decide +kernel, by rfl, ?_, by decide +kernel⟩
  exact fun agree => agree.1 playing empty

theorem status_and_stack_astray :
    let ops : List (Operation Script.Host) := [.start, .play]
    let new : Table Script.Host := ⟨.new astray.config, .fresh 2⟩
    (∀ op ∈ ops, op.isRestore = false) ∧ astray.played.2.session.status = .playing ∧
      astray.played.2.session.stack = [] ∧
        ∃ m ∈ astray.moments ops new, astray.Strands m.table := by
  intro ops new
  have plain : ∀ op ∈ ops, op.isRestore = false := by simp [ops, Operation.isRestore]
  have playing : astray.played.2.session.status = .playing := by decide +kernel
  have empty : astray.played.2.session.stack = [] := by decide +kernel
  obtain ⟨standing, -, -⟩ := status_and_stack astray (.fresh 2) ops plain
  refine ⟨plain, playing, empty, ?_⟩
  exact (standing.stranded playing).resolve_left (not_not_intro empty)

end Rules

end Tabletop
