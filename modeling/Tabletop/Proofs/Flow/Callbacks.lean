import Tabletop.Proofs.Flow.Units

/-! # The callback that a unit runs

A unit of play goes down the trail, from each node to the one it stands at. Among players
side by side it passes those who are done or wait, and takes up the first one who does
neither. The callback it comes to in this way is the one it runs, whatever the game and
the dice are.

Main statements: `play_parallel_cases` for players side by side, and `exists_runsAt_of_play`.
-/

namespace Tabletop

variable {G : Type} [Game G]

namespace Flow

/-- Nothing in the trail can run before a player moves, whatever the game and the dice
are. -/
def Idle (trail : Trail) (flow : Flow G) (scope : Scope) : Prop :=
  ∀ (g : G) (dice : Dice), play trail flow scope g dice = .ok ⟨.awaiting, trail, g, dice, [], []⟩

/-- Among players side by side it is one player's turn in a unit of play: those before are
done, or they wait. -/
inductive HasTurn (body : Flow G) (scope : Scope) :
    List Trail → List Player → List Bool → Nat → Trail → Player → Prop
  | here {lane lanes player players completed} :
      HasTurn body scope (lane :: lanes) (player :: players) (false :: completed) 0 lane player
  | done {first lanes other players completed index lane player}
      (later : HasTurn body scope lanes players completed index lane player) :
      HasTurn body scope (first :: lanes) (other :: players) (true :: completed) (index + 1) lane
        player
  | waits {first lanes other players completed index lane player}
      (idle : Idle first body (scope.withPlayer other))
      (later : HasTurn body scope lanes players completed index lane player) :
      HasTurn body scope (first :: lanes) (other :: players) (false :: completed) (index + 1) lane
        player

/-- A unit of play comes to the node at the place, and runs the callback there in a
scope. -/
inductive RunsAt : Trail → Flow G → Scope → Place → StepCallback G → Scope → Prop
  | here {mark below flow scope callback} (next : flow.next? mark = some (.call callback)) :
      RunsAt (.cons mark below) flow scope .here callback (scope.enter flow mark)
  | down {mark below flow child scope place callback inner}
      (next : flow.next? mark = some (.node child))
      (runs : RunsAt below child (scope.enter flow mark) place callback inner) :
      RunsAt (.cons mark below) flow scope (.down place) callback inner
  | lane {mark below flow players body seated lanes completed index player lane scope place
        callback inner}
      (kind_eq : flow.kind = .parallel players body)
      (position_eq : mark.position = .parallel seated lanes completed)
      (turn : HasTurn body scope lanes seated completed index lane player)
      (runs : RunsAt lane body (scope.withPlayer player) place callback inner) :
      RunsAt (.cons mark below) flow scope (.lane index place) callback inner

section Turns

variable {flow body : Flow G} {scope : Scope} {lanes : List Trail} {players : List Player}
  {completed : List Bool} {index : Nat} {lane lane' : Trail} {player : Player}

theorem HasTurn.at_lane (turn : HasTurn body scope lanes players completed index lane player) :
    lanes[index]? = some lane ∧ players[index]? = some player ∧ completed[index]? = some false := by
  induction turn with
  | here => exact ⟨rfl, rfl, rfl⟩
  | done later ih => exact ih
  | waits idle later ih => exact ih

/-- It stays the player's turn with another trail. -/
theorem HasTurn.set (turn : HasTurn body scope lanes players completed index lane player) :
    HasTurn body scope (lanes.set index lane') players completed index lane' player := by
  induction turn with
  | here => exact .here
  | done later ih => exact .done ih
  | waits idle later ih => exact .waits idle ih

/-- Players side by side are played in the trail of the one whose turn it is, if it does not
turn out to wait. -/
theorem playLanes_of_hasTurn {g : G} {dice : Dice}
    (turn : HasTurn body scope lanes players completed index lane player)
    (goes_on : ∀ p, play lane body (scope.withPlayer player) g dice = .ok p →
      p.signal ≠ .awaiting) :
    playLanes lanes flow body players completed scope g dice =
      (play lane body (scope.withPlayer player) g dice).map fun p =>
        { p with trail := (lanes.set index p.trail, completed.set index (p.signal == .complete)) } := by
  induction turn with
  | @here lane lanes player players completed =>
      rw [playLanes]
      cases played : play lane body (scope.withPlayer player) g dice with
      | error e => rfl
      | ok p =>
          have not_awaiting := goes_on p played
          obtain ⟨signal, trail, game, dice', calls, runs⟩ := p
          cases signal with
          | awaiting => exact absurd rfl not_awaiting
          | _ => rfl
  | @done first lanes other players completed index lane player later ih =>
      rw [playLanes, ih goes_on]
      cases play lane body (scope.withPlayer player) g dice <;> rfl
  | @waits first lanes other players completed index lane player idle later ih =>
      rw [playLanes, idle g dice]
      change (playLanes lanes flow body players completed scope g dice >>= _) = _
      rw [ih goes_on]
      cases play lane body (scope.withPlayer player) g dice <;> rfl

end Turns

/-! ### Waiting does not depend on the game -/

section Idle

variable {flow body : Flow G} {scope : Scope} {mark : Mark Trail} {below trail : Trail} {g : G}
  {dice : Dice}

/-- Players side by side who wait would wait in any game. -/
theorem playLanes_idle {lanes : List Trail} {players : List Player} {completed : List Bool}
    {p : Progress (List Trail × List Bool) G}
    (each : ∀ lane ∈ lanes, ∀ scope g dice p, play lane body scope g dice = .ok p →
      p.signal = .awaiting → Idle lane body scope)
    (played : playLanes lanes flow body players completed scope g dice = .ok p)
    (waits : p.signal = .awaiting) (g' : G) (dice' : Dice) :
    playLanes lanes flow body players completed scope g' dice' =
      .ok ⟨.awaiting, (lanes, completed), g', dice', [], []⟩ := by
  induction lanes generalizing players completed g dice p with
  | nil =>
      rcases players with _ | ⟨player, players⟩ <;> rcases completed with _ | ⟨done, completed⟩ <;>
        cases played
      rfl
  | cons lane lanes ih =>
      obtain ⟨lane_idle, lanes_idle⟩ := List.forall_mem_cons.1 each
      rcases players with _ | ⟨player, players⟩
      · rcases completed with _ | ⟨_ | _, completed⟩ <;> cases played
      rcases completed with _ | ⟨_ | _, completed⟩
      · cases played
      · obtain ⟨q, lane_played, played⟩ := bind_eq_ok.1 played
        cases hs : q.signal with
        | awaiting =>
            have idle := lane_idle _ _ _ _ lane_played hs
            simp only [hs] at played
            obtain ⟨r, lanes_played, played⟩ := bind_eq_ok.1 played
            cases played
            rw [playLanes, idle g' dice']
            change (playLanes lanes flow body players completed scope g' dice' >>= _) = _
            rw [ih lanes_idle lanes_played waits]
            rfl
        | _ =>
            simp only [hs] at played
            cases played
            cases waits
      · obtain ⟨q, lanes_played, played⟩ := bind_eq_ok.1 played
        cases played
        rw [playLanes, ih lanes_idle lanes_played waits]
        rfl

/-- A trail that waits in one game waits in any. -/
theorem idle_of_play {p : Progress Trail G} (played : play trail flow scope g dice = .ok p)
    (waits : p.signal = .awaiting) : Idle trail flow scope := by
  induction trail using Trail.induction generalizing flow scope g dice p with
  | nil => cases played
  | cons mark below below_idle lanes_idle =>
      intro g' dice'
      cases hp : flow.isParallel with
      | true =>
          obtain ⟨players, body, kind_eq⟩ := eq_parallel_of_isParallel hp
          obtain ⟨seated, lanes, completed, q, position_eq, lanes_played, rfl⟩ :=
            (play_parallel_eq_ok kind_eq).1 played
          obtain ⟨lanes_wait, not_all⟩ := laneSignal_eq_awaiting.1 waits
          obtain ⟨rfl, -⟩ := (playLanes_unit 0 (fun lane _ => playsUnit lane) lanes_played).2.2
            lanes_wait
          refine (play_parallel_eq_ok kind_eq).2 ⟨seated, lanes, completed, _, position_eq,
            playLanes_idle (fun lane mem _ _ _ _ => lanes_idle _ _ _ position_eq lane mem)
              lanes_played lanes_wait g' dice', ?_⟩
          simp [laneSignal, not_all, Mark.withLanes, ← position_eq]
      | false =>
          cases hw : flow.waiting? mark with
          | some step => exact play_waiting (by simp [hw])
          | none =>
              rcases hn : flow.next? mark with _ | callback | child
              · rw [play_finish hp hw hn] at played
                obtain ⟨⟨signal, trail⟩, ends, played⟩ := bind_eq_ok.1 played
                cases played
                exact absurd waits (finishBlock_goesOn ends).ne_awaiting
              · rw [play_call hp hw hn] at played
                obtain ⟨r, -, played⟩ := bind_eq_ok.1 played
                obtain ⟨⟨signal, trail⟩, ends, played⟩ := bind_eq_ok.1 played
                cases played
                have ended := (goOn_awaiting ends waits).1
                cases hc : r.control <;> simp [hc, Control.signal] at ended
              · obtain ⟨q, signal, trail, below_played, ends, rfl⟩ :=
                  (play_node_eq_ok hp hw hn).1 played
                have ended := (goOn_awaiting ends waits).1
                rw [play_node hp hw hn, below_idle below_played ended g' dice']
                rfl

end Idle

/-! ### Players side by side in a unit -/

section Lanes

variable {flow body : Flow G} {scope : Scope} {mark : Mark Trail} {below lane lane' : Trail}
  {g : G} {dice : Dice} {players : List Player} {player player' : Player} {lanes : List Trail}
  {completed : List Bool} {index index' : Nat}

/-- What does something in a unit is not idle. -/
theorem not_idle_of_play {trail : Trail} {p : Progress Trail G}
    (played : play trail flow scope g dice = .ok p) (busy : p.signal ≠ .awaiting) :
    ¬Idle trail flow scope := by
  intro idle
  rw [idle g dice] at played
  cases played
  exact busy rfl

/-- It is the turn of one player who has something to do. -/
theorem HasTurn.index_eq (turn : HasTurn body scope lanes players completed index lane player)
    (turn' : HasTurn body scope lanes players completed index' lane' player')
    (busy : ¬Idle lane body (scope.withPlayer player))
    (busy' : ¬Idle lane' body (scope.withPlayer player')) : index = index' := by
  induction turn generalizing index' with
  | here =>
      cases turn' with
      | here => rfl
      | waits idle => exact absurd idle busy
  | done later ih =>
      cases turn' with
      | done later' => exact congrArg (· + 1) (ih later' busy)
  | waits idle later ih =>
      cases turn' with
      | here => exact absurd idle busy'
      | waits _ later' => exact congrArg (· + 1) (ih later' busy)

/-- In a unit of players side by side all those not done wait, or one of them plays. -/
theorem playLanes_cases {p : Progress (List Trail × List Bool) G}
    (played : playLanes lanes flow body players completed scope g dice = .ok p) :
    p = ⟨.awaiting, (lanes, completed), g, dice, [], []⟩ ∨
      ∃ index lane player q, HasTurn body scope lanes players completed index lane player ∧
        play lane body (scope.withPlayer player) g dice = .ok q ∧ q.signal ≠ .awaiting ∧
          p = { q with trail :=
            (lanes.set index q.trail, completed.set index (q.signal == .complete)) } := by
  induction lanes generalizing players completed g dice p with
  | nil =>
      rcases players with _ | ⟨player, players⟩ <;> rcases completed with _ | ⟨done, completed⟩ <;>
        cases played
      exact .inl rfl
  | cons lane lanes ih =>
      rcases players with _ | ⟨player, players⟩
      · rcases completed with _ | ⟨_ | _, completed⟩ <;> cases played
      rcases completed with _ | ⟨_ | _, completed⟩
      · cases played
      · obtain ⟨q, lane_played, played⟩ := bind_eq_ok.1 played
        cases hs : q.signal with
        | awaiting =>
            have idle := idle_of_play lane_played hs
            obtain ⟨rfl, -⟩ := play_awaiting lane_played hs
            obtain ⟨r, lanes_played, played⟩ := bind_eq_ok.1 played
            cases played
            rcases ih lanes_played with rfl | ⟨index, lane', player', q, turn, q_played, busy, rfl⟩
            · exact .inl rfl
            · exact .inr ⟨index + 1, lane', player', q, .waits idle turn, q_played, busy, rfl⟩
        | _ =>
            simp only [hs] at played
            cases played
            exact .inr ⟨0, lane, player, q, .here, lane_played, by simp [hs], by simp [hs]⟩
      · obtain ⟨q, lanes_played, played⟩ := bind_eq_ok.1 played
        cases played
        rcases ih lanes_played with rfl | ⟨index, lane', player', q, turn, q_played, busy, rfl⟩
        · exact .inl rfl
        · exact .inr ⟨index + 1, lane', player', q, .done turn, q_played, busy, rfl⟩

/-- While players side by side wait, it is the turn of nobody who has something to do. -/
theorem idle_of_hasTurn {p : Progress (List Trail × List Bool) G}
    (played : playLanes lanes flow body players completed scope g dice = .ok p)
    (waits : p.signal = .awaiting)
    (turn : HasTurn body scope lanes players completed index lane player) :
    Idle lane body (scope.withPlayer player) := by
  refine Classical.byContradiction fun busy => ?_
  have goes_on : ∀ q, play lane body (scope.withPlayer player) g dice = .ok q →
      q.signal ≠ .awaiting := fun q lane_played hs => busy (idle_of_play lane_played hs)
  rw [playLanes_of_hasTurn turn goes_on] at played
  obtain ⟨q, lane_played, rfl⟩ := Playing.map_eq_ok.1 played
  exact goes_on q lane_played waits

/-- In a unit of nodes side by side nobody who is not done has something to do, and nothing
happens, or the player plays whose turn it is. -/
theorem play_parallel_cases {seats : Option (G → Args → Checked (List Player))}
    {p : Progress Trail G} (kind_eq : flow.kind = .parallel seats body)
    (position_eq : mark.position = .parallel players lanes completed)
    (played : play (.cons mark below) flow scope g dice = .ok p) :
    ((∀ {index lane player}, HasTurn body scope lanes players completed index lane player →
        Idle lane body (scope.withPlayer player)) ∧
      p = ⟨laneSignal completed .awaiting, .cons mark below, g, dice, [], []⟩) ∨
      ∃ index lane player q, HasTurn body scope lanes players completed index lane player ∧
        play lane body (scope.withPlayer player) g dice = .ok q ∧ q.signal ≠ .awaiting ∧
          p = { q with
            signal := laneSignal (completed.set index (q.signal == .complete)) q.signal
            trail := .cons (mark.withLanes players (lanes.set index q.trail)
              (completed.set index (q.signal == .complete))) below } := by
  obtain ⟨_, _, _, r, position_eq', lanes_played, rfl⟩ := (play_parallel_eq_ok kind_eq).1 played
  obtain ⟨rfl, rfl, rfl⟩ := Position.parallel.inj (position_eq.symm.trans position_eq')
  rcases playLanes_cases lanes_played with rfl | ⟨index, lane, player, q, turn, q_played, busy, rfl⟩
  · refine .inl ⟨idle_of_hasTurn lanes_played rfl, ?_⟩
    rw [Mark.withLanes, ← position_eq]
  · exact .inr ⟨index, lane, player, q, turn, q_played, busy, rfl⟩

/-- Nodes side by side are played only at players side by side. -/
theorem exists_parallel_of_play {seats : Option (G → Args → Checked (List Player))}
    {p : Progress Trail G} (kind_eq : flow.kind = .parallel seats body)
    (played : play (.cons mark below) flow scope g dice = .ok p) :
    ∃ players lanes completed, mark.position = .parallel players lanes completed := by
  obtain ⟨seated, lanes, completed, -, position_eq, -⟩ := (play_parallel_eq_ok kind_eq).1 played
  exact ⟨seated, lanes, completed, position_eq⟩

end Lanes

/-! ### Callbacks that were run -/

section Play

variable {flow body : Flow G} {scope : Scope} {mark : Mark Trail} {below trail : Trail} {g : G}
  {dice : Dice} {run : CallbackRun G}

/-- Each callback that a unit of play runs is the one that it comes to, and sees the scope
there. -/
theorem exists_runsAt_of_play {p : Progress Trail G}
    (played : play trail flow scope g dice = .ok p) (mem : run ∈ p.runs) :
    ∃ place inner, RunsAt trail flow scope place run.callback inner ∧
      run.scene = inner.scene g dice := by
  induction trail using Trail.induction generalizing flow scope g dice p with
  | nil => cases played
  | cons mark below below_runs lanes_run =>
      cases hp : flow.isParallel with
      | true =>
          obtain ⟨players, body, kind_eq⟩ := eq_parallel_of_isParallel hp
          obtain ⟨seated, lanes, completed, position_eq⟩ := exists_parallel_of_play kind_eq played
          rcases play_parallel_cases kind_eq position_eq played with
            ⟨-, rfl⟩ | ⟨index, lane, player, q, turn, lane_played, -, rfl⟩
          · cases mem
          · have mem_lanes : lane ∈ lanes := List.mem_of_getElem? turn.at_lane.1
            obtain ⟨place, inner, runs, scene_eq⟩ :=
              lanes_run _ _ _ position_eq lane mem_lanes lane_played mem
            exact ⟨.lane index place, inner, .lane kind_eq position_eq turn runs, scene_eq⟩
      | false =>
          cases hw : flow.waiting? mark with
          | some step =>
              rw [play_waiting (by simp [hw])] at played
              cases played
              cases mem
          | none =>
              rcases hn : flow.next? mark with _ | callback | child
              · rw [play_finish hp hw hn] at played
                obtain ⟨⟨signal, trail⟩, ends, played⟩ := bind_eq_ok.1 played
                cases played
                cases mem
              · rw [play_call hp hw hn] at played
                obtain ⟨r, returned, played⟩ := bind_eq_ok.1 played
                obtain ⟨⟨signal, trail⟩, ends, played⟩ := bind_eq_ok.1 played
                cases played
                obtain rfl := List.mem_singleton.1 mem
                exact ⟨.here, _, .here hn, rfl⟩
              · obtain ⟨q, signal, trail, below_played, -, rfl⟩ :=
                  (play_node_eq_ok hp hw hn).1 played
                obtain ⟨place, inner, runs, scene_eq⟩ := below_runs below_played mem
                exact ⟨.down place, inner, .down hn runs, scene_eq⟩

end Play

end Flow

end Tabletop
