import Tabletop.Proofs.Flow.Units
import Tabletop.Proofs.Session.Steps

/-! # Tables at rest

A table is at rest when the game is over, or when its running flow waits and no stop
is to be skipped. Play goes on until the table is at rest, and does nothing to a table
that is.

Main statements: `rests_of_play` and `Rests.playWithin_eq`.
-/

namespace Tabletop

variable {G : Type}

namespace Stop

/-- The stop is left to the players: it may be passed, or one of those who may move
here can do something. -/
def Stays [Game G] (s : Stop G) (r : Repertoire G) (g : G) : Prop :=
  s.step.isOptional ∨ ∃ players, s.eligible g = .ok players ∧ s.anyPlayable r g players = .ok true

end Stop

namespace Rules

variable [Game G] {rules : Rules G} {t t' : Table G} {top : Activation} {flow : Flow G}

/-- The game is over, or the running flow waits and all its stops are left to the
players. -/
inductive Rests (rules : Rules G) (t : Table G) : Prop
  | finished (status_eq : t.session.status = .finished)
  | waiting {top : Activation} {flow : Flow G} (status_eq : t.session.status = .playing)
      (on_top : t.session.top? = some top)
      (found : rules.flows.get? t.session.followUps top.flow = some flow)
      (idle : flow.play top.trail (.ofArgs top.args) t.game t.session.dice =
        .ok ⟨.awaiting, top.trail, t.game, t.session.dice, [], []⟩)
      (stops_stay : ∀ s ∈ flow.stops top.trail (.ofArgs top.args), s.Stays rules.repertoire t.game)

/-! ### Skipping -/

/-- No stop is skipped if and only if all of them stay. -/
theorem skipStops_eq_false {g : G} {stops : List (Stop G)} {trail trail' : Trail} :
    rules.skipStops g stops trail = .ok (trail', false) ↔
      trail' = trail ∧ ∀ s ∈ stops, s.Stays rules.repertoire g := by
  induction stops generalizing trail with
  | nil => simp [skipStops, eq_comm]
  | cons s rest ih =>
      unfold skipStops
      rw [List.forall_mem_cons]
      cases optional : s.step.isOptional with
      | true => simp [Stop.Stays, optional, ih]
      | false =>
          simp only [Bool.false_eq_true, if_false, bind_eq_ok, Stop.Stays, optional, false_or]
          constructor
          · rintro ⟨_, players_eq, playable, playable_eq, h⟩
            obtain ⟨players, eligible, rfl⟩ : ∃ players, s.eligible g = .ok players ∧ _ = players :=
              ⟨_, Playing.ofChecked_eq_ok.1 players_eq, rfl⟩
            cases playable with
            | true =>
                obtain ⟨same, stay⟩ := ih.1 h
                exact ⟨same, ⟨_, eligible, Playing.ofChecked_eq_ok.1 playable_eq⟩, stay⟩
            | false =>
                obtain ⟨settled, -, h⟩ := bind_eq_ok.1 h
                obtain ⟨skipped, -, h⟩ := bind_eq_ok.1 h
                cases h
          · rintro ⟨rfl, ⟨players, eligible, playable⟩, stay⟩
            refine ⟨players, Playing.ofChecked_eq_ok.2 eligible, true,
              Playing.ofChecked_eq_ok.2 playable, ih.2 ⟨rfl, stay⟩⟩

/-- Nothing is skipped if and only if all stops stay, and then the table is left as it
was. -/
theorem skipUnplayable_eq_false (on_top : t.session.top? = some top)
    (found : rules.flows.get? t.session.followUps top.flow = some flow) :
    rules.skipUnplayable.on t = (.ok false, t') ↔ t' = t ∧
      ∀ s ∈ flow.stops top.trail (.ofArgs top.args), s.Stays rules.repertoire t.game := by
  simp only [skipUnplayable, Drive.on_bind, Drive.on_session, on_top, Drive.on_game,
    on_stops found, Drive.on_playing]
  cases skips : rules.skipStops t.game (flow.stops top.trail (.ofArgs top.args)) top.trail with
  | error e =>
      simp only [Prod.mk.injEq, reduceCtorEq, false_and, false_iff]
      rintro ⟨-, stay⟩
      rw [skipStops_eq_false.2 ⟨rfl, stay⟩] at skips
      cases skips
  | ok p =>
      obtain ⟨trail, skipped⟩ := p
      cases skipped with
      | true =>
          simp only [Drive.on_change, Drive.on_pure, Prod.mk.injEq, Except.ok.injEq, reduceCtorEq,
            false_and, false_iff]
          rintro ⟨-, stay⟩
          rw [skipStops_eq_false.2 ⟨rfl, stay⟩] at skips
          cases skips
      | false =>
          obtain ⟨rfl, stay⟩ := skipStops_eq_false.1 skips
          simp only [Drive.on_change, Drive.on_pure, setTrail_of_top? on_top, Prod.mk.injEq,
            true_and]
          exact ⟨fun h => ⟨h.symm, stay⟩, fun h => h.1.symm⟩

/-! ### Waiting -/

theorem playOne_of_idle (playing : t.session.status = .playing)
    (on_top : t.session.top? = some top)
    (found : rules.flows.get? t.session.followUps top.flow = some flow)
    (idle : flow.play top.trail (.ofArgs top.args) t.game t.session.dice =
      .ok ⟨.awaiting, top.trail, t.game, t.session.dice, [], []⟩) :
    rules.playOne.on t = (.ok .awaiting, t) := by
  have nonempty := Session.stack_ne_nil_of_top? on_top
  rw [playOne_eq_playTop playing on_top, on_playTop found idle (by simp), on_closeUnit]
  simp [enterCalls_nil, Table.afterUnit, Session.afterUnit, setTrail_of_top? on_top, nonempty]

/-- Only a unit that ends in waiting is followed by waiting. -/
theorem closeUnit_eq_awaiting {p : Progress Trail G}
    (h : (rules.closeUnit p).on t = (.ok .awaiting, t')) : p.signal = .awaiting := by
  rw [on_closeUnit] at h
  split at h
  · cases h
  · split at h
    · cases h
    · by_cases ended : p.signal = .complete
      · rw [if_pos ended] at h
        cases h
      · rw [if_neg ended] at h
        exact Except.ok.inj (Prod.mk.inj h).1

/-- A unit of a game that ends in waiting left the table as it was. -/
theorem idle_of_playOne (h : rules.playOne.on t = (.ok .awaiting, t')) :
    t' = t ∧ t.session.status = .playing ∧ ∃ top flow, t.session.top? = some top ∧
      rules.flows.get? t.session.followUps top.flow = some flow ∧
        flow.stops top.trail (.ofArgs top.args) ≠ [] ∧
          flow.play top.trail (.ofArgs top.args) t.game t.session.dice =
            .ok ⟨.awaiting, top.trail, t.game, t.session.dice, [], []⟩ := by
  cases playing : t.session.status with
  | notStarted => simp [playOne, Drive.on_bind, Drive.on_session, playing, Drive.on_throw] at h
  | finished => simp [playOne, Drive.on_bind, Drive.on_session, playing, Drive.on_pure] at h
  | playing =>
      cases on_top : t.session.top? with
      | none =>
          simp only [playOne, Drive.on_bind, Drive.on_session, playing, on_top, Drive.on_change,
            Drive.on_pure] at h
          cases h
      | some top =>
          rw [playOne_eq_playTop playing on_top] at h
          obtain ⟨flow, p, found, played, closes⟩ := playTop_eq_ok h
          obtain ⟨rfl, has_stop⟩ := Flow.play_awaiting played (closeUnit_eq_awaiting closes)
          have nonempty := Session.stack_ne_nil_of_top? on_top
          have same : t' = t := by
            simpa [on_closeUnit, enterCalls_nil, Table.afterUnit, Session.afterUnit,
              setTrail_of_top? on_top, nonempty] using closes.symm
          exact ⟨same, rfl, top, flow, rfl, found, has_stop, played⟩

/-! ### Rest -/

/-- Play that has a result leaves the table at rest. -/
theorem rests_of_playWithin {units : Nat} (h : (rules.playWithin units).on t = (.ok (), t')) :
    rules.Rests t' := by
  induction units generalizing t with
  | zero => cases h
  | succ units ih =>
      unfold playWithin at h
      obtain ⟨signal, t₁, plays, goes_on⟩ := Drive.on_bind_eq_ok.1 h
      rw [Drive.on_bind, Drive.on_session] at goes_on
      dsimp only at goes_on
      split at goes_on
      · rename_i finished
        cases goes_on
        exact .finished finished
      split at goes_on
      · rename_i waits
        subst waits
        obtain ⟨same, playing, top, flow, on_top, found, -, idle⟩ := idle_of_playOne plays
        subst same
        obtain ⟨skipped, t₂, skips, ends⟩ := Drive.on_bind_eq_ok.1 goes_on
        cases skipped with
        | true => exact ih ends
        | false =>
            cases ends
            obtain ⟨rfl, stay⟩ := (skipUnplayable_eq_false on_top found).1 skips
            exact .waiting playing on_top found idle stay
      · exact ih goes_on

/-- Play does nothing to a table at rest. -/
theorem Rests.playWithin_eq (h : rules.Rests t) (units : Nat) :
    (rules.playWithin (units + 1)).on t = (.ok (), t) := by
  cases h with
  | finished status_eq =>
      simp [playWithin, playOne, Drive.on_bind, Drive.on_session, status_eq, Drive.on_pure]
  | waiting status_eq on_top found idle stay =>
      have skips : rules.skipUnplayable.on t = (.ok false, t) :=
        (skipUnplayable_eq_false on_top found).2 ⟨rfl, stay⟩
      simp [playWithin, Drive.on_bind, Drive.on_session,
        playOne_of_idle status_eq on_top found idle, status_eq, skips, Drive.on_pure]

/-- Play that has a result on a table at rest did nothing. -/
theorem Rests.eq_of_play (h : rules.Rests t) (plays : rules.play.on t = (.ok (), t')) : t' = t := by
  unfold play at plays
  cases units : rules.config.maxSteps with
  | zero =>
      rw [units] at plays
      cases plays
  | succ units' =>
      rw [units, h.playWithin_eq] at plays
      exact (congrArg Prod.snd plays).symm

theorem rests_of_play (h : rules.play.on t = (.ok (), t')) : rules.Rests t' :=
  rests_of_playWithin h

/-- An accepted move leaves the table at rest. -/
theorem rests_of_submit {move : Move} (h : (rules.submit move).on t = (.ok none, t')) :
    rules.Rests t' := by
  obtain ⟨s, -, ⟨refusal, -, ⟨⟩, -⟩ | ⟨performed, -, carries, -⟩⟩ := submit_eq_ok.1 h
  obtain ⟨_, t₁, -, announces⟩ := Drive.on_bind_eq_ok.1 carries
  obtain ⟨_, t₂, -, follows⟩ := Drive.on_bind_eq_ok.1 announces
  obtain ⟨_, t₃, -, plays⟩ := Drive.on_bind_eq_ok.1 follows
  exact rests_of_play plays

/-- A table at rest whose game is not over has a stop, and all its stops are left to the
players. -/
theorem Rests.stopsNow (h : rules.Rests t) (going : t.session.status ≠ .finished) :
    rules.stopsNow t ≠ [] ∧ ∀ s ∈ rules.stopsNow t, s.Stays rules.repertoire t.game := by
  cases h with
  | finished status_eq => exact absurd status_eq going
  | waiting status_eq on_top found idle stay =>
      rw [stopsNow_eq status_eq on_top found]
      exact ⟨(Flow.play_awaiting idle rfl).2, stay⟩

end Rules

end Tabletop
