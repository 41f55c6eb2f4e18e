import Tabletop.Proofs.Flow.Safety

/-! # What a unit of play does

A unit of play runs at most one callback, and what it leaves of the game, of the
dice and of requests is what that callback left. A unit that ends in waiting runs
none: the flow is left as it was, and there is a stop to wait at.

Main statement: `play_atomic`, which says both of a trail that fits. `play_does` and
`play_awaiting` say it of any trail that can be played.
-/

namespace Tabletop

variable {G τ : Type}

/-- A node that ends a unit with the signal asks nothing of a loop and of a player. -/
def Signal.GoesOn (signal : Signal) : Prop := signal = .moved ∨ signal = .complete

theorem Signal.GoesOn.ne_awaiting {signal : Signal} (h : signal.GoesOn) : signal ≠ .awaiting := by
  rcases h with rfl | rfl <;> simp

/-- A unit of play from a game and its dice ran no callback, or it ran one and left
what the callback left. -/
inductive Progress.Does (g : G) (dice : Dice) : Progress τ G → Prop
  | idle {signal trail} : Does g dice ⟨signal, trail, g, dice, [], []⟩
  | ran {signal trail callback scene r} (at_game : scene.game = g) (at_dice : scene.dice = dice)
      (returned : callback scene = .ok r) :
      Does g dice ⟨signal, trail, r.game, r.dice, r.control.calls, [⟨callback, scene⟩]⟩

/-- What a unit did is the same for the nodes above. -/
theorem Progress.Does.above {τ' : Type} {g : G} {dice : Dice} {p : Progress τ G}
    (h : p.Does g dice) (signal : Signal) (trail : τ') :
    Progress.Does g dice ⟨signal, trail, p.game, p.dice, p.calls, p.runs⟩ := by
  cases h with
  | idle => exact .idle
  | ran at_game at_dice returned => exact .ran at_game at_dice returned

/-- A unit runs one callback at most, which asks for one flow at most. -/
theorem Progress.Does.runs_and_calls {g : G} {dice : Dice} {p : Progress τ G} (h : p.Does g dice) :
    p.runs.length ≤ 1 ∧ p.calls.length ≤ 1 := by
  cases h with
  | idle => exact ⟨Nat.zero_le 1, Nat.zero_le 1⟩
  | @ran _ _ _ _ r =>
      refine ⟨Nat.le_refl 1, ?_⟩
      cases r.control <;> simp [Control.calls]

namespace Flow

variable [Game G] {flow body : Flow G} {scope : Scope} {mark : Mark Trail} {below trail : Trail}
  {g : G} {dice : Dice} {signal : Signal}

/-! ### Going on never waits -/

theorem nextIteration_goesOn (h : flow.nextIteration g scope mark = .ok (signal, trail)) :
    signal.GoesOn := by
  unfold nextIteration at h
  split at h
  · cases h
  · split at h
    · obtain ⟨entered, -, h⟩ := bind_eq_ok.1 h
      cases h
      exact .inl rfl
    · cases h
      exact .inr rfl

theorem finishBlock_goesOn (h : flow.finishBlock g scope mark = .ok (signal, trail)) :
    signal.GoesOn := by
  unfold finishBlock at h
  split at h
  · exact nextIteration_goesOn h
  · cases h
    exact .inr rfl

theorem advance_goesOn (h : flow.advance g scope mark = .ok (signal, trail)) :
    signal.GoesOn := by
  unfold advance at h
  split at h
  · obtain ⟨entered, -, h⟩ := bind_eq_ok.1 h
    cases h
    exact .inl rfl
  · exact finishBlock_goesOn h

theorem takeIn_goesOn {i : Interrupt} (h : flow.takeIn g scope mark i = .ok (signal, trail)) :
    signal.GoesOn := by
  cases i with
  | skipOn => exact nextIteration_goesOn h
  | again =>
      obtain ⟨entered, -, h⟩ := bind_eq_ok.1 h
      cases h
      exact .inl rfl
  | leave =>
      cases h
      exact .inr rfl

/-- A node goes on if the step it stands at does. -/
theorem goOn_goesOn {ended : Signal}
    (h : flow.goOn g scope mark below ended = .ok (signal, trail)) (goes_on : ended.GoesOn) :
    signal.GoesOn := by
  rcases goes_on with rfl | rfl
  · cases h
    exact .inl rfl
  · exact advance_goesOn h

/-- A node waits only if the step it stands at does, and then it stays there. -/
theorem goOn_awaiting {ended : Signal}
    (h : flow.goOn g scope mark below ended = .ok (signal, trail)) (waits : signal = .awaiting) :
    ended = .awaiting ∧ trail = .cons mark below := by
  cases ended with
  | complete => exact absurd waits (advance_goesOn h).ne_awaiting
  | interrupt i =>
      unfold goOn at h
      dsimp only at h
      split at h
      · exact absurd waits (takeIn_goesOn h).ne_awaiting
      · cases h
        cases waits
  | moved =>
      cases h
      cases waits
  | awaiting =>
      cases h
      exact ⟨rfl, rfl⟩

omit [Game G] in
theorem laneSignal_eq_awaiting {completed : List Bool} :
    laneSignal completed signal = .awaiting ↔
      signal = .awaiting ∧ completed.all id = false := by
  cases signal <;> simp only [laneSignal] <;> try split
  all_goals simp_all

/-! ### One unit -/

omit [Game G] in
theorem laneSignal_goesOn {completed : List Bool} (h : signal.GoesOn) :
    (laneSignal completed signal).GoesOn := by
  rcases h with rfl | rfl
  · exact .inl rfl
  · unfold laneSignal
    dsimp only
    split
    · exact .inr rfl
    · exact .inl rfl

/-- A unit of play of the trail runs at most one callback. It goes on after a request for
a flow, and if it ends in waiting it runs none: then all is as before, and the trail has
a stop. -/
def PlaysUnit (G : Type) [Game G] (trail : Trail) : Prop :=
  ∀ (flow : Flow G) (scope : Scope) (g : G) (dice : Dice) (p : Progress Trail G),
    play trail flow scope g dice = .ok p →
      p.Does g dice ∧ (p.calls ≠ [] → p.signal.GoesOn) ∧ (p.signal = .awaiting →
        p = ⟨.awaiting, trail, g, dice, [], []⟩ ∧ stops trail flow scope ≠ [])

/-- What a unit of play of nodes side by side does. Waiting players who are not done
have a stop. -/
theorem playLanes_unit {lanes : List Trail} {players : List Player} {completed : List Bool}
    {p : Progress (List Trail × List Bool) G} (first : Nat)
    (each : ∀ lane ∈ lanes, PlaysUnit G lane)
    (h : playLanes lanes flow body players completed scope g dice = .ok p) :
    p.Does g dice ∧ (p.calls ≠ [] → p.signal.GoesOn) ∧ (p.signal = .awaiting →
      p = ⟨.awaiting, (lanes, completed), g, dice, [], []⟩ ∧
        (completed.all id = false → laneStops lanes body players completed first scope ≠ [])) := by
  induction lanes generalizing players completed first g dice p with
  | nil =>
      rcases players with _ | ⟨player, players⟩ <;> rcases completed with _ | ⟨done, completed⟩ <;>
        cases h
      exact ⟨.idle, by simp, fun _ => ⟨rfl, by simp⟩⟩
  | cons lane lanes ih =>
      obtain ⟨lane_plays, lanes_play⟩ := List.forall_mem_cons.1 each
      rcases players with _ | ⟨player, players⟩
      · rcases completed with _ | ⟨_ | _, completed⟩ <;> cases h
      rcases completed with _ | ⟨_ | _, completed⟩
      · cases h
      · obtain ⟨q, played, h⟩ := bind_eq_ok.1 h
        obtain ⟨does, goes_on, idle⟩ := lane_plays _ _ _ _ _ played
        cases hs : q.signal with
        | awaiting =>
            -- The unit goes on with the next player on the same game and dice.
            obtain ⟨rfl, has_stop⟩ := idle hs
            obtain ⟨r, played, h⟩ := bind_eq_ok.1 h
            cases h
            obtain ⟨does, goes_on, idle⟩ := ih (first + 1) lanes_play played
            refine ⟨does.above _ _, goes_on, fun waits => ?_⟩
            obtain ⟨rfl, -⟩ := idle waits
            exact ⟨rfl, fun _ => by simp [laneStops, has_stop]⟩
        | _ =>
            simp only [hs] at h
            cases h
            exact ⟨does.above _ _, by simpa [hs] using goes_on, by simp⟩
      · obtain ⟨q, played, h⟩ := bind_eq_ok.1 h
        cases h
        obtain ⟨does, goes_on, idle⟩ := ih (first + 1) lanes_play played
        refine ⟨does.above _ _, goes_on, fun waits => ?_⟩
        obtain ⟨rfl, has_stop⟩ := idle waits
        exact ⟨rfl, fun not_all => has_stop (by simpa using not_all)⟩

theorem play_parallel_unit {players : Option (G → Args → Checked (List Player))}
    {p : Progress Trail G} (kind_eq : flow.kind = .parallel players body)
    (each : ∀ players lanes completed, mark.position = .parallel players lanes completed →
      ∀ lane ∈ lanes, PlaysUnit G lane)
    (h : play (.cons mark below) flow scope g dice = .ok p) :
    p.Does g dice ∧ (p.calls ≠ [] → p.signal.GoesOn) ∧ (p.signal = .awaiting →
      p = ⟨.awaiting, .cons mark below, g, dice, [], []⟩ ∧
        stops (.cons mark below) flow scope ≠ []) := by
  rw [stops_parallel kind_eq]
  obtain ⟨seated, lanes, completed, q, position_eq, played, rfl⟩ := (play_parallel_eq_ok kind_eq).1 h
  obtain ⟨does, goes_on, idle⟩ := playLanes_unit 0 (each _ _ _ position_eq) played
  refine ⟨does.above _ _, fun asks => laneSignal_goesOn (goes_on asks), fun waits => ?_⟩
  obtain ⟨waits, not_all⟩ := laneSignal_eq_awaiting.1 waits
  obtain ⟨rfl, has_stop⟩ := idle waits
  obtain ⟨name, position, stepIndex⟩ := mark
  obtain rfl : position = .parallel seated lanes completed := position_eq
  exact ⟨by simp [laneSignal, not_all, Mark.withLanes], has_stop not_all⟩

theorem playsUnit (trail : Trail) : PlaysUnit G trail := by
  induction trail using Trail.induction with
  | nil => intro flow scope g dice p h; cases h
  | cons mark below below_plays lanes_play =>
      intro flow scope g dice p h
      cases hp : flow.isParallel with
      | true =>
          obtain ⟨players, body, kind_eq⟩ := eq_parallel_of_isParallel hp
          exact play_parallel_unit kind_eq lanes_play h
      | false =>
          cases hw : flow.waiting? mark with
          | some step =>
              rw [play_waiting (by simp [hw])] at h
              cases h
              exact ⟨.idle, by simp, fun _ => ⟨rfl, by simp [stops_here hw]⟩⟩
          | none =>
              rcases hn : flow.next? mark with _ | callback | child
              · rw [play_finish hp hw hn] at h
                obtain ⟨⟨signal, trail⟩, ends, h⟩ := bind_eq_ok.1 h
                cases h
                have goes_on := finishBlock_goesOn ends
                exact ⟨.idle, fun _ => goes_on, fun waits => absurd waits goes_on.ne_awaiting⟩
              · rw [play_call hp hw hn] at h
                obtain ⟨r, returned, h⟩ := bind_eq_ok.1 h
                obtain ⟨⟨signal, trail⟩, ends, h⟩ := bind_eq_ok.1 h
                cases h
                refine ⟨.ran rfl rfl (Playing.ofChecked_eq_ok.1 returned), fun asks => ?_,
                  fun waits => ?_⟩
                · refine goOn_goesOn ends ?_
                  cases hc : r.control with
                  | subflow call => exact .inr rfl
                  | _ => simp [hc, Control.calls] at asks
                · have ended := (goOn_awaiting ends waits).1
                  cases hc : r.control <;> simp [hc, Control.signal] at ended
              · obtain ⟨q, signal, trail, played, ends, rfl⟩ := (play_node_eq_ok hp hw hn).1 h
                obtain ⟨does, goes_on, idle⟩ := below_plays _ _ _ _ _ played
                refine ⟨does.above _ _, fun asks => goOn_goesOn ends (goes_on asks),
                  fun waits => ?_⟩
                obtain ⟨ended, rfl⟩ := goOn_awaiting ends waits
                obtain rfl : signal = .awaiting := waits
                obtain ⟨rfl, has_stop⟩ := idle ended
                exact ⟨rfl, by simpa [stops_down hp hw, hn] using has_stop⟩

/-- A unit of play runs at most one callback, on the game and the dice it starts
from, and leaves what the callback left. -/
theorem play_does {p : Progress Trail G} (h : play trail flow scope g dice = .ok p) :
    p.Does g dice := (playsUnit trail flow scope g dice p h).1

/-- After a request for a flow a unit of play goes on. -/
theorem play_goesOn {p : Progress Trail G} (h : play trail flow scope g dice = .ok p)
    (asks : p.calls ≠ []) : p.signal.GoesOn := (playsUnit trail flow scope g dice p h).2.1 asks

/-- A unit of play that ends in waiting did nothing, and the flow has a stop. -/
theorem play_awaiting {p : Progress Trail G} (h : play trail flow scope g dice = .ok p)
    (waits : p.signal = .awaiting) :
    p = ⟨.awaiting, trail, g, dice, [], []⟩ ∧ stops trail flow scope ≠ [] :=
  (playsUnit trail flow scope g dice p h).2.2 waits

/-- A unit of play is atomic. From a trail that fits it gives a result, but for a fault of a
callback of the author. It runs one callback at most and asks for one flow at most, and what
it leaves is what that callback left. If it ends in waiting it ran none: the trail, the game
and the dice are as before, and there is a stop to wait at. -/
theorem play_atomic (fits : flow.Fits trail) (scope : Scope) (g : G) (dice : Dice) :
    Returns flow
      (fun p => p.runs.length ≤ 1 ∧ p.calls.length ≤ 1 ∧ p.Does g dice ∧
        (p.signal = .awaiting →
          p.runs = [] ∧ p.trail = trail ∧ p.game = g ∧ p.dice = dice ∧
            stops p.trail flow scope ≠ []))
      (play trail flow scope g dice) := by
  apply (playsSafely trail flow scope g dice fits).told.mono
  rintro p ⟨played, -⟩
  have does := play_does played
  obtain ⟨runs_le, calls_le⟩ := does.runs_and_calls
  refine ⟨runs_le, calls_le, does, fun waits => ?_⟩
  obtain ⟨rfl, has_stop⟩ := play_awaiting played waits
  exact ⟨rfl, rfl, rfl, rfl, has_stop⟩

/-- Each player acts and gets a bonus. -/
def bonuses : Flow Script.Host :=
  everyPlayer none
    [.node (act ⟨none, none, none, [⟨"go", [], .empty, false⟩]⟩),
      .call fun scene => .ok ⟨.subflow ⟨"bonus", .empty⟩, scene.game, scene.dice⟩]

/-- The first player waits to act, and the second one stands at a step. -/
def bonuses.trailAt (second : Trail) : Trail :=
  .cons ⟨none, .parallel [⟨0⟩, ⟨1⟩] [waits, second] [false, false], none⟩ .nil
where
  waits : Trail := .ofList [⟨none, .sequence 0, none⟩, ⟨none, .action .awaiting, none⟩]

/-- While the first player waits the second one gets a bonus, and when both wait nothing
happens. -/
theorem play_atomic_bonuses :
    let scope := Scope.ofArgs .empty
    let goes_on := bonuses.trailAt (.ofList [⟨none, .sequence 1, none⟩])
    let waits := bonuses.trailAt bonuses.trailAt.waits
    bonuses.Fits goes_on ∧ bonuses.Fits waits ∧
      (∃ p, play goes_on bonuses scope (Script.Host.fresh 2) default = .ok p ∧
        p.runs.length = 1 ∧ p.calls.length = 1 ∧ p.Does (Script.Host.fresh 2) default) ∧
      ∃ p, play waits bonuses scope (Script.Host.fresh 2) default = .ok p ∧
        p.runs = [] ∧ p.trail = waits ∧ stops p.trail bonuses scope ≠ [] := by
  intro scope goes_on waits
  have goes_on_fits : bonuses.Fits goes_on := rfl
  have waits_fits : bonuses.Fits waits := rfl
  obtain ⟨-, -, does, -⟩ := (play_atomic goes_on_fits scope (.fresh 2) default).good_of_eq_ok rfl
  obtain ⟨-, -, -, idle⟩ := (play_atomic waits_fits scope (.fresh 2) default).good_of_eq_ok rfl
  obtain ⟨runs_eq, trail_eq, -, -, has_stop⟩ := idle rfl
  exact ⟨goes_on_fits, waits_fits, ⟨_, rfl, rfl, rfl, does⟩, ⟨_, rfl, runs_eq, trail_eq, has_stop⟩⟩

end Flow

end Tabletop
