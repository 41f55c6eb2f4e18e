import Tabletop.Proofs.Flow.Units
import Tabletop.Proofs.Session.Below
import Tabletop.Proofs.Session.Runs
import Tabletop.Script.Statement

/-! # Flows that are asked for

A step callback may ask for a flow. Within the unit of play the flow it belongs to moves
on first, on the game as the callback left it; then the flow that was asked for is
entered. From there on nothing of the flows below is looked at until it has come to its
end, whatever is done at the table.

Main statement: `called_runs_first`.
-/

namespace Tabletop

variable {G : Type}

/-- A stretch of a game: an operation, or the rest of one that plays on. -/
inductive Stretch (G : Type) where
  | operation (op : Operation G)
  | rest (units : Nat)

/-- A reply, with the flows that lie below in a snapshot. -/
def Reply.over (left : List Activation) : Reply → Reply
  | .snapshot s => .snapshot { s with stack := s.stack ++ left }
  | reply => reply

/-- The table with a single flow under way. -/
def Table.alone (t : Table G) (a : Activation) : Table G :=
  { t with session := { t.session with stack := [a] } }

namespace Stretch

/-- Carries out a stretch. -/
def run [Game G] (rules : Rules G) : Stretch G → Drive G Reply
  | operation op => op.run rules
  | rest units => do
      rules.playWithin units
      return .done

/-- The stretch puts other flows in place of all that are under way. -/
def startsOver : Stretch G → Bool
  | operation op => op.startsOver
  | rest _ => false

end Stretch

namespace Rules

variable [Game G] {rules : Rules G} {t : Table G}

/-- Whatever is done at the table, its flows run before all that lies below them. Each
stretch comes to the same end whatever lies below, and leaves it as it is. This goes on
until the last unit of the last flow of the table, from where the stretch may go on with
those below, or until other flows are put in place of all of them. -/
inductive RunsFirst (rules : Rules G) : Table G → List (Stretch G) → Prop
  | nothing {t : Table G} : RunsFirst rules t []
  | ends {t : Table G} {stretch : Stretch G} {stretches : List (Stretch G)}
      (reply : Playing Reply) (t' : Table G)
      (same : ∀ left ≠ [], (stretch.run rules).on (t.over left) =
        (reply.map (Reply.over left), t'.over left))
      (later : t'.session.stack ≠ [] → RunsFirst rules t' stretches) :
      RunsFirst rules t (stretch :: stretches)
  | goesOn {t : Table G} {stretch : Stretch G} {stretches : List (Stretch G)}
      (units : Nat) (reply : Reply) (v u : Table G) (last : rules.LastUnit v u)
      (same : ∀ left ≠ [], (stretch.run rules).on (t.over left) =
        (do rules.playWithin units; return reply : Drive G Reply).on (u.over left)) :
      RunsFirst rules t (stretch :: stretches)
  | startsOver {t : Table G} {stretch : Stretch G} {stretches : List (Stretch G)}
      (reply : Playing Reply) (t' : Table G) (new : stretch.startsOver)
      (same : ∀ left ≠ [], (stretch.run rules).on (t.over left) = (reply, t')) :
      RunsFirst rules t (stretch :: stretches)

section RunsFirst

variable {stretches : List (Stretch G)}
  (later : ∀ t' : Table G, t'.session.stack ≠ [] → rules.RunsFirst t' stretches)

include later

/-- A stretch that ends before the flows of the table have come to their end. -/
theorem runsFirst_of_frames {stretch : Stretch G}
    (h : (stretch.run rules).Frames t fun reply _ => ∀ left, reply.over left = reply) :
    rules.RunsFirst t (stretch :: stretches) := by
  obtain ⟨reply, t', same, plain⟩ := h
  refine .ends reply t' (fun left some_left => ?_) (later t')
  rw [same left some_left]
  cases reply with
  | error e => rfl
  | ok reply => rw [Except.map, plain reply rfl]

/-- A stretch that plays on. -/
theorem runsFirst_of_over {α : Type} {d : Drive G α} {stretch : Stretch G} (f : α → Reply)
    (plain : ∀ left a, (f a).over left = f a) (run_eq : stretch.run rules = do return f (← d))
    (h : rules.Over d t) : rules.RunsFirst t (stretch :: stretches) := by
  cases h with
  | ends r t' same =>
      refine .ends (r.map f) t' (fun left some_left => ?_) (later t')
      rw [run_eq, Drive.on_bind, same left some_left]
      cases r with
      | error e => rfl
      | ok a => simp only [Except.map, plain, Drive.on_pure]
  | goesOn units a v u last same =>
      refine .goesOn units (f a) v u last fun left some_left => ?_
      rw [run_eq, Drive.on_bind, same left some_left, ← Drive.on_bind]
      simp only [bind_assoc, pure_bind]

/-- A snapshot that is not admitted leaves all as it is, and one that is replaces it. -/
theorem runsFirst_of_restore {stretch : Stretch G} {s : Snapshot} (new : stretch.startsOver)
    (run_eq : stretch.run rules = do rules.restore s; return .done) :
    rules.RunsFirst t (stretch :: stretches) := by
  have restores (left) : (rules.restore s).on (t.over left) =
      match rules.checkRestore t.session.followUps s .faults with
      | .error e => (.error e, t.over left)
      | .ok () => (.ok (), ⟨.ofSnapshot s, t.game⟩) := by
    have same : (t.over left).session.followUps = t.session.followUps := rfl
    simp only [restore, Drive.on_bind, Drive.on_session, Drive.on_playing, same]
    cases rules.checkRestore t.session.followUps s .faults <;> rfl
  rcases checks : rules.checkRestore t.session.followUps s .faults with e | _
  · refine .ends (.error e) t (fun left _ => ?_) (later t)
    simp only [run_eq, Drive.on_bind, restores, checks, Except.map]
  · refine .startsOver (.ok .done) ⟨.ofSnapshot s, t.game⟩ new fun left _ => ?_
    simp only [run_eq, Drive.on_bind, restores, checks, Drive.on_pure]

end RunsFirst

theorem start_frames : (rules.start).Frames t fun _ _ => True := by
  refine .session (fun _ _ => rfl) ?_
  split
  · exact .throw_bind _
  · refine .bind ((enterFlow_frames _ _).mono fun _ _ _ => ?_)
    exact .change (fun _ _ => rfl) trivial

omit [Game G] in
theorem stopsNow_over (nonempty : t.session.stack ≠ []) (left : List Activation) :
    rules.stopsNow (t.over left) = rules.stopsNow t := by
  obtain ⟨top, on_top⟩ := Session.exists_top? nonempty
  have same_top : (t.over left).session.top? = some top := Session.top?_over left on_top
  simp only [stopsNow, on_top, same_top]
  rfl

/-- Whatever is done next at a table, its flows run before all that lies below. -/
theorem runsFirst_step (nonempty : t.session.stack ≠ []) (stretch : Stretch G)
    {stretches : List (Stretch G)}
    (later : ∀ t' : Table G, t'.session.stack ≠ [] → rules.RunsFirst t' stretches) :
    rules.RunsFirst t (stretch :: stretches) := by
  cases stretch with
  | rest units =>
      exact runsFirst_of_over later (fun _ => .done) (fun _ _ => rfl) rfl
        (playWithin_over nonempty units)
  | operation op =>
      cases op with
      | start =>
          exact runsFirst_of_frames later
            (.bind (start_frames.mono fun _ _ _ => .pure fun _ => rfl))
      | playOne =>
          exact runsFirst_of_over later .signal (fun _ _ => rfl) rfl
            (over_of_frames (playOne_frames nonempty))
      | play =>
          exact runsFirst_of_over later (fun _ => .done) (fun _ _ => rfl) rfl (play_over nonempty)
      | submit move =>
          exact runsFirst_of_over later .refusal (fun _ _ => rfl) rfl (submit_over nonempty move)
      | force move =>
          exact runsFirst_of_over later (fun _ => .done) (fun _ _ => rfl) rfl
            (force_over nonempty move)
      | replay moves =>
          have same (left) : (rules.replay moves).on (t.over left) = (rules.replay moves).on t :=
            rfl
          exact .startsOver _ _ rfl fun left _ => by
            rw [Stretch.run, Operation.run, Drive.on_bind, same, ← Drive.on_bind]
      | save => exact .ends (.ok (.snapshot t.session.snapshot)) t (fun _ _ => rfl) (later t)
      | restore s => exact runsFirst_of_restore later rfl rfl
      | restoreText text =>
          cases reads : Snapshot.ofText text with
          | error reason =>
              exact runsFirst_of_frames later (.bind (by rw [restoreText, reads]; exact .throw _))
          | ok s =>
              have run_eq : (Stretch.operation (.restoreText text)).run rules =
                  (do rules.restore s; return .done : Drive G Reply) := by
                rw [Stretch.run, Operation.run, restoreText, reads]
              exact runsFirst_of_restore later rfl run_eq
      | drain =>
          exact runsFirst_of_frames later
            (.session (fun _ _ => rfl) (.bind (.change (fun _ _ => rfl) (.pure fun _ => rfl))))
      | draw use =>
          exact runsFirst_of_frames later
            (.session (fun _ _ => rfl) (.bind (.checked fun p _ =>
              .bind (.change (fun _ _ => rfl) (.pure fun _ => rfl)))))
      | host change =>
          exact runsFirst_of_frames later
            (.get (fun _ _ => rfl) (.bind (.putGame (.pure fun _ => rfl))))
      | awaiting =>
          have same (left) : rules.awaitingPlayers (t.over left) = rules.awaitingPlayers t := by
            simp only [awaitingPlayers, stopsNow_over nonempty]
            rfl
          exact runsFirst_of_frames later (.get (fun left _ => by rw [same])
            (.bind (.checked fun _ _ => .pure fun _ => rfl)))
      | menu player name args =>
          have same (left) : rules.menu? (t.over left) player name args =
              rules.menu? t player name args := by
            simp only [menu?, stopsNow_over nonempty]
            rfl
          exact runsFirst_of_frames later (.get (fun left _ => by rw [same])
            (.bind (.checked fun _ _ => .pure fun _ => rfl)))

/-- The flows of a table run before all that lies below them. -/
theorem runsFirst (nonempty : t.session.stack ≠ []) (stretches : List (Stretch G)) :
    rules.RunsFirst t stretches := by
  induction stretches generalizing t with
  | nil => exact .nothing
  | cons stretch stretches ih => exact runsFirst_step nonempty stretch fun _ => ih

/-! ### A flow that is asked for -/

omit [Game G] in
theorem over_alone (a : Activation) :
    (t.alone a).over t.session.stack = { t with session := t.session.push a } := rfl

/-- A flow that is asked for by a callback is entered at the end of the unit of play, in
which no other callback is run, or the unit ends in the error of entering it. Once it is
entered, it runs before all that is left of the flow which asked for it. -/
theorem called_runs_first {top : Activation} {flow : Flow G} {p : Progress Trail G}
    {run : CallbackRun G} {r : StepResult G} {call : SubflowCall}
    (playing : t.session.status = .playing) (on_top : t.session.top? = some top)
    (found : rules.flows.get? t.session.followUps top.flow = some flow)
    (played : flow.play top.trail (.ofArgs top.args) t.game t.session.dice = .ok p)
    (ran : run ∈ p.runs) (returned : run.callback run.scene = .ok r)
    (asks : r.control = .subflow call) :
    p.runs = [run] ∧ p.game = r.game ∧ p.dice = r.dice ∧
      match rules.entryTrail (t.afterUnit p) (.subflow call.name) call.args with
      | .error e => rules.playOne.on t = (.error e, t.afterUnit p)
      | .ok trail =>
          let called := (t.afterUnit p).alone ⟨.subflow call.name, call.args, trail⟩
          rules.playOne.on t = (.ok .moved, called.over (t.afterUnit p).session.stack) ∧
            ∀ stretches, rules.RunsFirst called stretches := by
  obtain ⟨runs_eq, game_eq, dice_eq, calls_eq⟩ :
      p.runs = [run] ∧ p.game = r.game ∧ p.dice = r.dice ∧ p.calls = [call] := by
    cases Flow.play_does played with
    | idle => cases ran
    | ran at_game at_dice returned' =>
        obtain rfl := List.mem_singleton.1 ran
        obtain rfl := Except.ok.inj (returned'.symm.trans returned)
        exact ⟨rfl, rfl, rfl, by rw [asks]; rfl⟩
  refine ⟨runs_eq, game_eq, dice_eq, ?_⟩
  have goes_on : p.signal.GoesOn := Flow.play_goesOn played (by simp [calls_eq])
  have unit : rules.playOne.on t = (rules.closeUnit p).on (t.afterUnit p) := by
    rw [playOne_eq_playTop playing on_top]
    refine on_playTop found played ?_
    rcases goes_on with moved | ended <;> simp [*]
  have enters : (rules.enterCalls p.calls).on (t.afterUnit p) =
      (rules.enterFlow (.subflow call.name) call.args).on (t.afterUnit p) := by
    rw [calls_eq]
    change (do rules.enterFlow (.subflow call.name) call.args; pure () : Drive G Unit).on _ = _
    rw [Drive.on_bind]
    rcases (rules.enterFlow (.subflow call.name) call.args).on _ with ⟨_ | _, _⟩ <;> rfl
  rw [unit, on_closeUnit, enters, on_enterFlow]
  cases rules.entryTrail (t.afterUnit p) (.subflow call.name) call.args with
  | error e => rfl
  | ok trail =>
      refine ⟨?_, runsFirst (List.cons_ne_nil _ _)⟩
      rw [over_alone]
      rcases goes_on with moved | ended <;> simp [*, Session.push]

/-- A flow asks for another one, which sets a variable, and then looks at that variable. -/
def bonus : Rules Script.Host where
  flows :=
    { main :=
        .sequence
          [.call asks, .node (.ifElse isSet [.call (logs "after")] [.call (logs "before")])]
      subflows := Dict.empty.insert "bonus" (.sequence [.call sets]) }
  repertoire := .empty
  config := { maxSteps := 8 }
where
  asks : StepCallback Script.Host := Script.stepCallback [.subflow "bonus" []]
  sets : StepCallback Script.Host := Script.stepCallback [.set "x" (.literal (.number 1))]
  logs (line : String) : StepCallback Script.Host :=
    Script.stepCallback [.log (.literal (.text line))]
  isSet (g : Script.Host) (_ : Args) : Bool := g.vars.get? "x" == some (.number 1)

/-- Where a flow of `bonus` is about to run its first callback. -/
def bonus.first : Trail := .cons ⟨none, .sequence 0, none⟩ .nil

/-- Where the main flow of `bonus` has found that the variable is not set. -/
def bonus.notSet : Trail :=
  .cons ⟨none, .sequence 1, none⟩ (.cons ⟨none, .switch none true (.bool false), some 0⟩ .nil)

/-- What the flow that asked moves on to is looked at first: the condition that follows
the request does not see what the flow which is asked for leaves behind. -/
theorem condition_precedes_called_bonus :
    let asked := (bonus.runAll [.start, .playOne] ⟨.new bonus.config, .fresh 2⟩).2
    let done := bonus.runAll [.start, .play] ⟨.new bonus.config, .fresh 2⟩
    asked.session.stack = [⟨.subflow "bonus", .empty, bonus.first⟩, ⟨.main, .empty, bonus.notSet⟩] ∧
      asked.game.vars.get? "x" = none ∧
      Replied done.1 ∧ done.2.session.status = .finished ∧
      bonus.isSet done.2.game .empty ∧ done.2.game.log = ["before"] := by
  intro asked done
  refine ⟨by rfl, by decide +kernel, ?_, by decide +kernel, by decide +kernel, by decide +kernel⟩
  unfold Replied
  decide +kernel

/-- After the request the main flow stands behind the condition, and the other flow runs
before it. -/
theorem called_runs_first_bonus :
    let t := (bonus.start.on ⟨.new bonus.config, .fresh 2⟩).2
    let called := t.alone ⟨.subflow "bonus", .empty, bonus.first⟩
    bonus.playOne.on t = (.ok .moved, called.over [⟨.main, .empty, bonus.notSet⟩]) ∧
      ∀ stretches, bonus.RunsFirst called stretches := by
  intro t called
  have on_top : t.session.top? = some ⟨.main, .empty, bonus.first⟩ := rfl
  have found : bonus.flows.get? t.session.followUps .main = some bonus.flows.main := rfl
  let run : CallbackRun Script.Host :=
    ⟨bonus.asks, (Scope.ofArgs .empty).scene t.game t.session.dice⟩
  have played : bonus.flows.main.play bonus.first (.ofArgs .empty) t.game t.session.dice =
      .ok ⟨.moved, bonus.notSet, t.game, t.session.dice, [⟨"bonus", .empty⟩], [run]⟩ := rfl
  have returned : run.callback run.scene =
      .ok ⟨.subflow ⟨"bonus", .empty⟩, t.game, t.session.dice⟩ := rfl
  exact (called_runs_first rfl on_top found played (List.mem_singleton.2 rfl) returned rfl).2.2.2

end Rules

end Tabletop
