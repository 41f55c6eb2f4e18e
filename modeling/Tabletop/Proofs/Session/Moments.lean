import Tabletop.Proofs.Session.Errors
import Tabletop.Proofs.Session.Runs
import Tabletop.Proofs.Session.Steps

/-! # The moments of a run

An operation does one thing to the table after the other: it plays the running flow by a
unit, skips stops, settles a move, enters the follow-ups of a move, or leaves the flows
alone. The table before each of these is a moment, together with the step callbacks that
are run then. `momentsOf` lists the moments of an operation, and `moments` those of some
operations in a row.

Main statements: `on_force` and `force_fails`, which with `on_submit` and `submit_fails`
say what the moves come to whose moments are listed here, and `submit_eq_error`.

## Implementation notes

The moments follow the definitions of the operations: after an error nothing more is
listed. What was run in a unit that ended in an error of its flow is not known, and not
listed.
-/

namespace Tabletop

variable {G : Type} {α : Type}

/-- A table, and the step callbacks that are run from there. -/
structure Moment (G : Type) where
  table : Table G
  runs : List (CallbackRun G)

/-- What comes after an operation on a table, which is nothing after an error. -/
def Drive.after (d : Drive G α) (t : Table G) (later : α → Table G → List (Moment G)) :
    List (Moment G) :=
  match d.on t with
  | (.ok a, t') => later a t'
  | (.error _, _) => []

/-- An operation that fails in any case, with nothing done. -/
theorem Drive.Ends.exists_error {d : Drive G α} {t : Table G} {kind : PlayError → Prop}
    (h : d.Ends t (fun _ _ => False) fun e t' => kind e ∧ t' = t) :
    ∃ e, kind e ∧ d.on t = (.error e, t) := by
  unfold Ends at h
  rcases ends : d.on t with ⟨e | _, t'⟩
  · rw [ends] at h
    obtain ⟨of_kind, rfl⟩ := h
    exact ⟨e, of_kind, rfl⟩
  · rw [ends] at h
    exact h.elim

namespace Rules

variable [Game G]

/-- The step callbacks that a unit from the table runs. -/
def runsOf (rules : Rules G) (t : Table G) : List (CallbackRun G) :=
  if t.session.status = .playing then
    match t.session.top? with
    | none => []
    | some top =>
        match rules.flows.get? t.session.followUps top.flow with
        | none => []
        | some flow =>
            match flow.play top.trail (.ofArgs top.args) t.game t.session.dice with
            | .error _ => []
            | .ok p => p.runs
  else []

/-- The moments in which the game plays on. -/
def playMoments (rules : Rules G) : (units : Nat) → Table G → List (Moment G)
  | 0, _ => []
  | units + 1, t =>
      ⟨t, rules.runsOf t⟩ :: rules.playOne.after t fun signal t₁ =>
        if t₁.session.status = .finished then []
        else if signal = .awaiting then
          ⟨t₁, []⟩ :: rules.skipUnplayable.after t₁ fun skipped t₂ =>
            if skipped then rules.playMoments units t₂ else []
        else rules.playMoments units t₁

/-- The moments from the outcome of a move on. -/
def outcomeMoments (rules : Rules G) (outcome : Outcome) (t : Table G) : List (Moment G) :=
  ⟨t, []⟩ :: (rules.takeOutcome outcome).after t fun _ t₁ =>
    rules.playMoments rules.config.maxSteps t₁

/-- Keeps a move that was carried out. -/
def recordMove (rules : Rules G) (move : Move) (performed : Performed G) : Drive G Unit :=
  Drive.change fun session => session.record rules.config { move with args := performed.1.args }

/-- The moments from a submitted move on. -/
def submitMoments (rules : Rules G) (move : Move) (t : Table G) : List (Moment G) :=
  match Stop.findFor t.game move.player (rules.stopsNow t) with
  | .ok (some s) =>
      match rules.perform s t.game t.session.dice move with
      | .ok (.ok performed) =>
          ⟨t, []⟩ :: (settleMove s move performed).after t fun _ t₁ =>
            ⟨t₁, []⟩ :: (rules.recordMove move performed).after t₁ fun _ t₂ =>
              rules.outcomeMoments performed.1 t₂
      | _ => []
  | _ => []

/-- The stop at which a move is forced: the first one at which its player may move, or else
the first one. -/
def forcedStop? (rules : Rules G) (move : Move) (t : Table G) : Option (Stop G) :=
  if rules.config.allowForce then
    match Stop.findFor t.game move.player (rules.stopsNow t) with
    | .ok found => found.or (rules.stopsNow t).head?
    | .error _ => none
  else none

/-- The moments from a forced move on. -/
def forceMoments (rules : Rules G) (move : Move) (t : Table G) : List (Moment G) :=
  match rules.forcedStop? move t with
  | some s =>
      match rules.performForced s t.game t.session.dice move with
      | .ok performed =>
          ⟨t, []⟩ :: (settleMove s move performed).after t fun _ t₁ =>
            rules.outcomeMoments performed.1 t₁
      | .error _ => []
  | none => []

/-- The moments from some submitted moves on, none of which may be refused. -/
def submitAllMoments (rules : Rules G) : List Move → Table G → List (Moment G)
  | [], _ => []
  | move :: rest, t =>
      rules.submitMoments move t ++ (rules.submit move).after t fun refusal t₁ =>
        if refusal.isSome then [] else rules.submitAllMoments rest t₁

/-- The moments of a replay, from the new table on. -/
def replayMoments (rules : Rules G) (moves : List Move) (g : G) : List (Moment G) :=
  let t : Table G := ⟨.new rules.config, g⟩
  ⟨t, []⟩ :: rules.start.after t fun _ t₁ =>
    rules.playMoments rules.config.maxSteps t₁ ++ rules.play.after t₁ fun _ t₂ =>
      rules.submitAllMoments moves t₂

/-- The moments of an operation, other than taking up a snapshot. -/
def momentsOf (rules : Rules G) (t : Table G) : Operation G → List (Moment G)
  | .playOne => [⟨t, rules.runsOf t⟩]
  | .play => rules.playMoments rules.config.maxSteps t
  | .submit move => rules.submitMoments move t
  | .force move => rules.forceMoments move t
  | .replay moves => rules.replayMoments moves t.game
  | _ => [⟨t, []⟩]

/-- The moments of some operations in a row. -/
def moments (rules : Rules G) : List (Operation G) → Table G → List (Moment G)
  | [], _ => []
  | op :: ops, t => rules.momentsOf t op ++ rules.moments ops ((op.run rules).on t).2

variable {rules : Rules G} {t t' : Table G} {move : Move}

/-! ### What moves come to -/

omit [Game G] in
/-- What is done only while the game is played, with the stops of the running flow. -/
theorem playing_ends {β : Type} {k : List (Stop G) → Drive G β} {good : β → Table G → Prop}
    {fair : PlayError → Table G → Prop} (otherwise : ∀ e, e.TurnsAway ∨ e.InPlay → fair e t)
    (next : (k (rules.stopsNow t)).Ends t good fair) :
    (do
      requirePlaying
      k (← rules.stops (← requireTop)) : Drive G β).Ends t good fair := by
  refine .bind (.session ?_)
  split
  · exact .throw (otherwise _ (.inl .notStarted))
  · exact .throw (otherwise _ (.inl .finished))
  rename_i playing
  refine .pure (.bind (.session ?_))
  split
  · rename_i top on_top
    refine .pure (.bind ?_)
    cases found : rules.flows.get? t.session.followUps top.flow with
    | none =>
        unfold Drive.Ends
        rw [stops, Drive.on_bind, on_flow, FlowBook.get, found]
        exact otherwise _ (.inr (.unknownFlow _))
    | some flow =>
        unfold Drive.Ends
        rw [on_stops found, ← stopsNow_eq playing on_top found]
        exact next
  · exact .throw (otherwise _ (.inl .notAwaiting))

/-- A move is submitted in vain where its player may not move. -/
theorem submit_fails
    (nowhere : ∀ s, Stop.findFor t.game move.player (rules.stopsNow t) ≠ .ok (some s)) :
    ∃ e, (e.TurnsAway ∨ e.InPlay) ∧ (rules.submit move).on t = (.error e, t) := by
  apply Drive.Ends.exists_error
  refine playing_ends (fun _ early => ⟨early, rfl⟩) ?_
  dsimp only
  split
  · exact .bind (.throw ⟨.inl .notAwaiting, rfl⟩)
  refine .get (.bind (.checked (fun found finds => ?_) fun _ => ⟨.inr (.fault _), rfl⟩))
  split
  · exact .throw ⟨.inl (.ineligible _), rfl⟩
  · exact absurd finds (nowhere _)

/-- A submitted move that ends in an error was turned away or met an error of play before
it was looked at, could not be carried out at its stop, or met the error after it was. -/
theorem submit_eq_error {e : PlayError} (fails : (rules.submit move).on t = (.error e, t')) :
    ((e.TurnsAway ∨ e.InPlay) ∧ t' = t) ∨
      ∃ s, Stop.findFor t.game move.player (rules.stopsNow t) = .ok (some s) ∧
        ((rules.perform s t.game t.session.dice move = .error e ∧ t' = t) ∨
          ∃ performed, rules.perform s t.game t.session.dice move = .ok (.ok performed) ∧
            rules.FollowsMove performed.1 e) := by
  by_cases somewhere : ∃ s, Stop.findFor t.game move.player (rules.stopsNow t) = .ok (some s)
  · obtain ⟨s, finds⟩ := somewhere
    refine .inr ⟨s, finds, ?_⟩
    rw [on_submit finds] at fails
    cases performs : rules.perform s t.game t.session.dice move with
    | error e' =>
        rw [performs] at fails
        cases fails
        exact .inl ⟨rfl, rfl⟩
    | ok answer =>
        rw [performs] at fails
        cases answer with
        | error refusal => cases fails
        | ok performed =>
            have ends : (do
                rules.carryOn s move performed
                return none : Drive G (Option Refusal)).Ends t (fun _ _ => True) fun e _ =>
                  rules.FollowsMove performed.1 e :=
              .bind ((carryOn_proceeds (mem_of_findFor finds) move performed).mono
                fun _ _ _ => .pure trivial)
            exact .inr ⟨performed, rfl, ends.fair_of_on (congrArg Prod.fst fails)⟩
  · obtain ⟨e', early, ends⟩ := submit_fails fun s finds => somewhere ⟨s, finds⟩
    rw [ends] at fails
    cases fails
    exact .inl ⟨early, rfl⟩

/-- A move is forced in vain if there is no stop for it. -/
theorem force_fails (nowhere : rules.forcedStop? move t = none) :
    ∃ e, (e = .forceDisabled ∨ e.TurnsAway ∨ e.InPlay) ∧
      (rules.force move).on t = (.error e, t) := by
  apply Drive.Ends.exists_error
  unfold forcedStop? at nowhere
  unfold force
  cases allowed : rules.config.allowForce with
  | false => exact .bind (.throw ⟨.inl rfl, rfl⟩)
  | true =>
      simp only [allowed, if_true] at nowhere
      refine playing_ends (fun _ early => ⟨.inr early, rfl⟩) ?_
      refine .get (.bind (.checked (fun found finds => ?_) fun _ => ⟨.inr (.inr (.fault _)), rfl⟩))
      simp only [finds] at nowhere
      rw [nowhere]
      exact .throw ⟨.inr (.inl .notAwaiting), rfl⟩

theorem mem_of_forcedStop? {s : Stop G} (stop_eq : rules.forcedStop? move t = some s) :
    s ∈ rules.stopsNow t := by
  unfold forcedStop? at stop_eq
  split at stop_eq
  · split at stop_eq
    · rename_i found finds
      rcases Option.or_eq_some_iff.1 stop_eq with rfl | ⟨-, first⟩
      · exact mem_of_findFor finds
      · exact List.mem_of_mem_head? first
    · cases stop_eq
  · cases stop_eq

/-- A move is forced at its stop without a check, and the game plays on. -/
theorem on_force {s : Stop G} (stop_eq : rules.forcedStop? move t = some s) :
    (rules.force move).on t =
      match rules.performForced s t.game t.session.dice move with
      | .error e => (.error e, t)
      | .ok performed =>
          (do
            settleMove s move performed
            rules.takeOutcome performed.1
            rules.play : Drive G Unit).on t := by
  have waits : rules.stopsNow t ≠ [] := List.ne_nil_of_mem (mem_of_forcedStop? stop_eq)
  unfold forcedStop? at stop_eq
  split at stop_eq
  · rename_i allowed
    split at stop_eq
    · rename_i found finds
      obtain ⟨playing, top, flow, on_top, known⟩ := exists_of_stopsNow_ne_nil waits
      have stops_eq : (rules.stops top).on t = (.ok (rules.stopsNow t), t) :=
        stops_eq_ok.2 ⟨⟨flow, known, stopsNow_eq playing on_top known⟩, rfl⟩
      simp only [force, allowed, Bool.not_true, Bool.false_eq_true, if_false, Drive.on_bind,
        requirePlaying_eq_ok.2 ⟨playing, rfl⟩, requireTop_eq_ok.2 ⟨on_top, rfl⟩, stops_eq,
        Drive.on_get, Drive.on_checked, finds, Playing.ofChecked_ok, stop_eq, Drive.on_playing]
      cases rules.performForced s t.game t.session.dice move with
      | error e => rfl
      | ok performed => rfl
    · cases stop_eq
  · cases stop_eq

end Rules

end Tabletop
