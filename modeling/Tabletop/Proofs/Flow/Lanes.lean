import Tabletop.Proofs.Flow.Lasting

/-! # Players side by side

Nodes side by side keep a trail and a flag for each player. Whatever is done to the flow
around them, as long as their mark lasts, changes the trail or the flag of one player at
most, and only of one who is not done: who is done stays done, and stays where he is. The
nodes are finished in the unit that sets the last flag, or at once if all are set.

Main statement: `lanes_accounted`.
-/

namespace Tabletop

variable {G : Type}

namespace Flow

/-- At most one of the players has another trail or another flag than before, and that one
was not done. -/
structure OneMoves (lanes : List Trail) (completed : List Bool) (lanes' : List Trail)
    (completed' : List Bool) : Prop where
  lanes_length : lanes'.length = lanes.length
  completed_length : completed'.length = completed.length
  only_one : ∃ index : Nat, ∀ other : Nat,
    lanes'[other]? ≠ lanes[other]? ∨ completed'[other]? ≠ completed[other]? →
      other = index ∧ completed[other]? = some false

/-- Who is done stays done, with the trail that he has. -/
def DoneStay (lanes : List Trail) (completed : List Bool) (lanes' : List Trail)
    (completed' : List Bool) : Prop :=
  ∀ index : Nat, completed[index]? = some true →
    completed'[index]? = some true ∧ lanes'[index]? = lanes[index]?

section Account

variable {lanes lanes' lanes'' : List Trail} {completed completed' completed'' : List Bool}

theorem OneMoves.refl : OneMoves lanes completed lanes completed where
  lanes_length := rfl
  completed_length := rfl
  only_one := ⟨0, by simp⟩

theorem OneMoves.set {index : Nat} (not_done : completed[index]? = some false) (lane : Trail)
    (done : Bool) : OneMoves lanes completed (lanes.set index lane) (completed.set index done) where
  lanes_length := List.length_set
  completed_length := List.length_set
  only_one := by
    refine ⟨index, fun other changed => ?_⟩
    by_cases same : index = other
    · subst same
      exact ⟨rfl, not_done⟩
    · rw [List.getElem?_set_ne same, List.getElem?_set_ne same] at changed
      simp at changed

theorem OneMoves.doneStay (h : OneMoves lanes completed lanes' completed') :
    DoneStay lanes completed lanes' completed' := by
  obtain ⟨index, only⟩ := h.only_one
  intro other done
  have same : ¬(lanes'[other]? ≠ lanes[other]? ∨ completed'[other]? ≠ completed[other]?) := by
    intro changed
    obtain ⟨-, not_done⟩ := only other changed
    rw [done] at not_done
    cases not_done
  obtain ⟨lane_eq, flag_eq⟩ := not_or.1 same
  exact ⟨(not_not.1 flag_eq).trans done, not_not.1 lane_eq⟩

theorem DoneStay.refl : DoneStay lanes completed lanes completed := fun _ done => ⟨done, rfl⟩

theorem DoneStay.trans (h : DoneStay lanes completed lanes' completed')
    (h' : DoneStay lanes' completed' lanes'' completed'') :
    DoneStay lanes completed lanes'' completed'' := by
  intro index done
  obtain ⟨done', lane_eq⟩ := h index done
  obtain ⟨done'', lane_eq'⟩ := h' index done'
  exact ⟨done'', lane_eq'.trans lane_eq⟩

end Account

/-! ### What is done to nodes side by side -/

section Lanes

variable [Game G] {flow body node : Flow G} {players : Option (G → Args → Checked (List Player))}
  {scope inner : Scope} {mark : Mark Trail} {below trail : Trail} {seated : List Player}
  {lanes : List Trail} {completed : List Bool} {place : Place} {g : G} {dice : Dice}

theorem withLanes_eq_self (position_eq : mark.position = .parallel seated lanes completed) :
    mark.withLanes seated lanes completed = mark := by
  rw [Mark.withLanes, ← position_eq]

/-- A unit of nodes side by side is that of one player who is not done, and the nodes are
finished if all are done after it. -/
theorem lanes_of_play {p : Progress Trail G} (kind_eq : flow.kind = .parallel players body)
    (position_eq : mark.position = .parallel seated lanes completed)
    (played : play (.cons mark below) flow scope g dice = .ok p) :
    ∃ lanes' completed', p.trail = .cons (mark.withLanes seated lanes' completed') below ∧
      OneMoves lanes completed lanes' completed' ∧
        (p.signal = .complete ↔ ∀ done ∈ completed', done = true) := by
  rcases play_parallel_cases kind_eq position_eq played with
    ⟨-, rfl⟩ | ⟨index, lane, player, q, turn, -, busy, rfl⟩
  · refine ⟨lanes, completed, by rw [withLanes_eq_self position_eq], .refl, ?_⟩
    simp only [laneSignal]
    split <;> simp_all
  · obtain ⟨-, -, not_done⟩ := turn.at_lane
    refine ⟨_, _, rfl, .set not_done _ _, ?_⟩
    cases hs : q.signal with
    | awaiting => exact absurd hs busy
    | complete =>
        simp only [laneSignal]
        split <;> simp_all
    | _ =>
        -- The player goes on later, so not all are done.
        refine iff_of_false (by simp [laneSignal]) fun all_done => ?_
        obtain ⟨lt, -⟩ := List.getElem?_eq_some_iff.1 not_done
        cases all_done _ (List.mem_of_getElem? (List.getElem?_set_self lt))

/-- Settling a stop of nodes side by side is settling one of a player who is not done. -/
theorem lanes_of_settle {s : Stop G} {status : ActionStatus} {settled : Trail}
    (kind_eq : flow.kind = .parallel players body)
    (position_eq : mark.position = .parallel seated lanes completed)
    (waits : Waits (.cons mark below) flow scope s)
    (settles : s.settle g status (.cons mark below) = .ok settled) :
    ∃ lanes', settled = .cons (mark.withLanes seated lanes' completed) below ∧
      OneMoves lanes completed lanes' completed := by
  cases waits with
  | here waiting => simp [waiting?, kind_eq] at waiting
  | down next =>
      have single := isParallel_of_next? next
      simp [isParallel, kind_eq] at single
  | @lane _ _ _ _ _ _ _ _ index _ _ _ _ kind_eq' position_eq' at_lane _ not_done inner =>
      obtain ⟨⟩ := position_eq.symm.trans position_eq'
      rw [Stop.settle_within_lane position_eq at_lane] at settles
      obtain ⟨settled', -, rfl⟩ := Playing.map_eq_ok.1 settles
      refine ⟨_, rfl, ?_⟩
      have moves : OneMoves lanes completed (lanes.set index settled') (completed.set index false) :=
        .set not_done settled' false
      obtain ⟨lt, flag_eq⟩ := List.getElem?_eq_some_iff.1 not_done
      rwa [← flag_eq, List.set_getElem_self] at moves

/-- What is done to nodes side by side moves one player at most. -/
theorem lanes_of_act {act : Act G} {trail' : Trail} (kind_eq : flow.kind = .parallel players body)
    (position_eq : mark.position = .parallel seated lanes completed)
    (leads : act.Leads (.cons mark below) flow scope g trail') :
    ∃ lanes' completed', trail' = .cons (mark.withLanes seated lanes' completed') below ∧
      OneMoves lanes completed lanes' completed' := by
  cases leads with
  | unit played =>
      obtain ⟨lanes', completed', trail_eq, moves, -⟩ := lanes_of_play kind_eq position_eq played
      exact ⟨lanes', completed', trail_eq, moves⟩
  | settle mem settles =>
      obtain ⟨lanes', trail_eq, moves⟩ :=
        lanes_of_settle kind_eq position_eq (waits_of_mem_stops mem) settles
      exact ⟨lanes', completed, trail_eq, moves⟩

/-- What is done around nodes side by side, sparing their mark, moves one player at most. -/
theorem lanes_of_spared {act : Act G} {trail' : Trail}
    (stands : Stands trail flow scope place node inner)
    (kind_eq : node.kind = .parallel players body)
    (found : trail.at? place = some (.cons mark below))
    (position_eq : mark.position = .parallel seated lanes completed)
    (leads : act.Leads trail flow scope g trail') (spares : act.Spares trail flow scope place) :
    Stands trail' flow scope place node inner ∧ ∃ lanes' completed',
      trail'.at? place = some (.cons (mark.withLanes seated lanes' completed') below) ∧
        OneMoves lanes completed lanes' completed' := by
  obtain ⟨stands', same | ⟨act', g', sub', leads', at_place⟩⟩ := leads.at_place spares stands found
  · exact ⟨stands', lanes, completed, by rw [same, withLanes_eq_self position_eq], .refl⟩
  · obtain ⟨lanes', completed', rfl, moves⟩ := lanes_of_act kind_eq position_eq leads'
    exact ⟨stands', lanes', completed', at_place, moves⟩

/-- Something is done to the flow that spares the mark at the place. -/
def SparesAt (flow : Flow G) (scope : Scope) (place : Place) (trail trail' : Trail) : Prop :=
  ∃ act g, Act.Leads trail flow scope act g trail' ∧ act.Spares trail flow scope place

/-- As long as the mark of nodes side by side lasts, those who are done stay done. -/
theorem doneStay_of_spared {trail' : Trail} (stands : Stands trail flow scope place node inner)
    (kind_eq : node.kind = .parallel players body)
    (found : trail.at? place = some (.cons mark below))
    (position_eq : mark.position = .parallel seated lanes completed)
    (goes : Relation.ReflTransGen (SparesAt flow scope place) trail trail') :
    Stands trail' flow scope place node inner ∧ ∃ lanes' completed',
      trail'.at? place = some (.cons (mark.withLanes seated lanes' completed') below) ∧
        DoneStay lanes completed lanes' completed' := by
  induction goes with
  | refl =>
      exact ⟨stands, lanes, completed, by rw [found, withLanes_eq_self position_eq], .refl⟩
  | tail _ step ih =>
      obtain ⟨stands', lanes', completed', found', stay⟩ := ih
      obtain ⟨act, g', leads, spares⟩ := step
      obtain ⟨stands'', lanes'', completed'', found'', moves⟩ :=
        lanes_of_spared stands' kind_eq found' rfl leads spares
      exact ⟨stands'', lanes'', completed'', found'', stay.trans moves.doneStay⟩

omit [Game G] in
/-- What stands in a flow whose trail fits has a trail that fits. -/
theorem fits_of_stands (stands : Stands trail flow scope place node inner) (fits : flow.Fits trail) :
    ∃ sub, trail.at? place = some sub ∧ node.Fits sub := by
  induction stands with
  | here => exact ⟨_, rfl, fits⟩
  | down next stands ih =>
      obtain ⟨-, -, below_fits⟩ := (fits_cons (isParallel_of_next? next)).1 fits
      exact ih (by simpa [FitsBelow, next] using below_fits)
  | lane kind_eq position_eq at_lane at_player stands ih =>
      obtain ⟨-, rfl, seated, lanes, completed, position_eq', -, -, lanes_fit⟩ :=
        (fits_parallel kind_eq).1 fits
      obtain ⟨⟩ := position_eq.symm.trans position_eq'
      obtain ⟨sub, found, sub_fits⟩ := ih (lanes_fit _ (List.mem_of_getElem? at_lane))
      exact ⟨sub, (Trail.at?_lane position_eq at_lane).trans found, sub_fits⟩

/-- Nodes side by side account for each of their players. Wherever they stand in a trail that
fits, they have one trail and one flag for each player. A unit of theirs moves one player at
most, who was not done, and they are finished by it exactly if all are done after it. Each
unit of the whole flow and each stop that is settled, if it spares their mark, moves one
player at most, who was not done. And for as long as their mark lasts, those who are done
stay done and stay where they are. -/
theorem lanes_accounted (fits : flow.Fits trail)
    (stands : Stands trail flow scope place node inner)
    (kind_eq : node.kind = .parallel players body) :
    ∃ mark seated lanes completed, trail.at? place = some (.cons mark .nil) ∧
      mark.position = .parallel seated lanes completed ∧
      lanes.length = seated.length ∧ completed.length = seated.length ∧
      (∀ g dice, Returns node
        (fun p => ∃ lanes' completed', p.trail = .cons (mark.withLanes seated lanes' completed') .nil ∧
          OneMoves lanes completed lanes' completed' ∧
            (p.signal = .complete ↔ ∀ done ∈ completed', done = true))
        (play (.cons mark .nil) node inner g dice)) ∧
      (∀ act g trail', Act.Leads trail flow scope act g trail' →
        act.Spares trail flow scope place → ∃ lanes' completed',
          trail'.at? place = some (.cons (mark.withLanes seated lanes' completed') .nil) ∧
            OneMoves lanes completed lanes' completed') ∧
      ∀ trail', Relation.ReflTransGen (SparesAt flow scope place) trail trail' →
        ∃ lanes' completed',
          trail'.at? place = some (.cons (mark.withLanes seated lanes' completed') .nil) ∧
            DoneStay lanes completed lanes' completed' := by
  obtain ⟨sub, found, sub_fits⟩ := fits_of_stands stands fits
  cases sub with
  | nil => exact absurd sub_fits not_fits_nil
  | cons mark below =>
      obtain ⟨-, rfl, seated, lanes, completed, position_eq, lanes_length, completed_length, -⟩ :=
        (fits_parallel kind_eq).1 sub_fits
      refine ⟨mark, seated, lanes, completed, found, position_eq, lanes_length, completed_length,
        fun g dice => ?_, fun act g trail' leads spares => ?_, fun trail' goes => ?_⟩
      · apply (playsSafely _ node inner g dice sub_fits).told.mono
        rintro p ⟨played, -⟩
        exact lanes_of_play kind_eq position_eq played
      · exact (lanes_of_spared stands kind_eq found position_eq leads spares).2
      · exact (doneStay_of_spared stands kind_eq found position_eq goes).2

end Lanes

/-- Round after round all players act once. -/
def rounds : Flow Script.Host :=
  forever [.node (everyPlayer none [.node (act ⟨none, none, none, [⟨"go", [], .empty, false⟩]⟩)])]

/-- The first player is done with the round, and the second one has moved. -/
def rounds.lastToMove : Trail :=
  .cons ⟨none, .loop (some 0) none, some 0⟩
    (.cons ⟨none, .parallel [⟨0⟩, ⟨1⟩] [done, moved] [true, false], none⟩ .nil)
where
  done : Trail := .ofList [⟨none, .sequence 1, none⟩]
  moved : Trail :=
    .ofList
      [⟨none, .sequence 0, none⟩, ⟨none, .action (.taken ⟨⟨1⟩, "go", .empty⟩), none⟩]

/-- The round is over in the unit in which the second player is done. -/
theorem lanes_accounted_lastToMove :
    let trail := rounds.lastToMove
    let scope := Scope.ofArgs .empty
    let node := everyPlayer none [.node (act ⟨none, none, none, [⟨"go", [], .empty, false⟩]⟩)]
    rounds.Fits trail ∧ Stands trail rounds scope (.down .here) node scope ∧
      ∃ mark, trail.at? (.down .here) = some (.cons mark .nil) ∧
        ∃ p, play (.cons mark .nil) node scope (Script.Host.fresh 2) default = .ok p ∧
          p.signal = .complete ∧ ∃ seated lanes completed,
            p.trail = .cons (mark.withLanes seated lanes completed) .nil ∧
              ∀ done ∈ completed, done = true := by
  intro trail scope node
  have fits : rounds.Fits trail := rfl
  have stands : Stands trail rounds scope (.down .here) node scope := .down rfl .here
  obtain ⟨mark, seated, lanes, completed, found, -, -, -, unit, -, -⟩ :=
    lanes_accounted fits stands rfl
  refine ⟨fits, stands, mark, found, ?_⟩
  obtain ⟨⟩ := found
  obtain ⟨lanes', completed', trail_eq, -, signal_iff⟩ := (unit (.fresh 2) default).good_of_eq_ok rfl
  exact ⟨_, rfl, rfl, seated, lanes', completed', trail_eq, signal_iff.1 rfl⟩

end Flow

end Tabletop
