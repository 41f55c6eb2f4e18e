import Tabletop.Proofs.Flow.SideBySide
import Tabletop.Proofs.Flow.TakenSteps

/-! # Marks that last

A mark lasts until a node above it leaves its step: then all that stands below that node is
dropped, and its next step may be entered anew. As long as this does not happen, what is
done to a flow leaves the mark as it is, or it is done to the node of the mark alone. Each
mark that was not there before is that of a node which was entered just then.

Main statements: `Act.Leads.at_place` and `Act.Leads.fresh`.
-/

namespace Tabletop

variable {G : Type}

/-- There is a mark at the place. -/
def Trail.HasMark (trail : Trail) (place : Place) : Prop :=
  ∃ mark below, trail.at? place = some (cons mark below)

theorem Trail.HasMark.lane {mark : Mark Trail} {below lane : Trail} {players : List Player}
    {lanes : List Trail} {completed : List Bool} {index : Nat} {place : Place}
    (has : lane.HasMark place) (position_eq : mark.position = .parallel players lanes completed)
    (at_lane : lanes[index]? = some lane) : (cons mark below).HasMark (.lane index place) := by
  obtain ⟨mark', below', found⟩ := has
  exact ⟨mark', below', (Trail.at?_lane position_eq at_lane).trans found⟩

namespace Flow

/-! ### Marks that are swept away -/

/-- In a unit of play a node above the place leaves the step that the place is in. -/
inductive Sweeps [Game G] (g : G) (dice : Dice) : Trail → Flow G → Scope → Place → Prop
  | here {mark below flow child scope place p} (next : flow.next? mark = some (.node child))
      (played : play below child (scope.enter flow mark) g dice = .ok p)
      (leaves : flow.leaves p.signal) : Sweeps g dice (.cons mark below) flow scope (.down place)
  | down {mark below flow child scope place} (next : flow.next? mark = some (.node child))
      (sweeps : Sweeps g dice below child (scope.enter flow mark) place) :
      Sweeps g dice (.cons mark below) flow scope (.down place)
  | lane {mark below flow players body seated lanes completed index player lane scope place}
      (kind_eq : flow.kind = .parallel players body)
      (position_eq : mark.position = .parallel seated lanes completed)
      (turn : HasTurn body scope lanes seated completed index lane player)
      (sweeps : Sweeps g dice lane body (scope.withPlayer player) place) :
      Sweeps g dice (.cons mark below) flow scope (.lane index place)

section Sweeps

variable [Game G] {flow node : Flow G} {scope inner : Scope} {place : Place} {mark : Mark Trail}
  {below trail sub : Trail} {g : G} {dice : Dice} {p : Progress Trail G}

/-- A unit that sweeps a place goes on. -/
theorem Sweeps.goesOn (sweeps : Sweeps g dice trail flow scope place)
    (played : play trail flow scope g dice = .ok p) : p.signal.GoesOn := by
  induction sweeps generalizing p with
  | here next below_played leaves =>
      obtain ⟨q, q_played, ⟨stays, -⟩ | ⟨-, -, goes_on⟩⟩ := play_node_cases next played
      · obtain rfl := Except.ok.inj (below_played.symm.trans q_played)
        rw [leaves] at stays
        cases stays
      · exact goes_on
  | down next sweeps ih =>
      obtain ⟨q, q_played, ⟨-, rfl⟩ | ⟨-, -, goes_on⟩⟩ := play_node_cases next played
      · have goes_on := ih q_played
        exact goes_on
      · exact goes_on
  | lane kind_eq position_eq turn sweeps ih =>
      have busy : ¬Idle _ _ _ := fun idle => (ih (idle g dice)).ne_awaiting rfl
      rcases play_parallel_cases kind_eq position_eq played with
        ⟨all_idle, -⟩ | ⟨index, lane, player, q, turn', q_played, busy', rfl⟩
      · exact absurd (all_idle turn) busy
      · obtain rfl := turn.index_eq turn' busy (not_idle_of_play q_played busy')
        obtain ⟨at_lane, at_player, -⟩ := turn.at_lane
        obtain ⟨at_lane', at_player', -⟩ := turn'.at_lane
        obtain rfl := Option.some.inj (at_lane.symm.trans at_lane')
        obtain rfl := Option.some.inj (at_player.symm.trans at_player')
        exact laneSignal_goesOn (ih q_played)

theorem Sweeps.exists_next (sweeps : Sweeps g dice (.cons mark below) flow scope (.down place)) :
    ∃ child, flow.next? mark = some (.node child) := by
  cases sweeps with
  | here next | down next => exact ⟨_, next⟩

/-- What is swept away below a node that stays is swept away in the unit below it. -/
theorem Sweeps.further_down (sweeps : Sweeps g dice (.cons mark below) flow scope (.down place))
    (next : flow.next? mark = some (.node node))
    (played : play below node (scope.enter flow mark) g dice = .ok p)
    (stays : flow.leaves p.signal = false) :
    Sweeps g dice below node (scope.enter flow mark) place := by
  cases sweeps with
  | here next' played' leaves =>
      obtain ⟨⟩ := next.symm.trans next'
      obtain ⟨⟩ := played.symm.trans played'
      rw [leaves] at stays
      cases stays
  | down next' sweeps =>
      obtain ⟨⟩ := next.symm.trans next'
      exact sweeps

/-- What is swept away in the trail of a player is so in his turn. -/
theorem Sweeps.in_turn {players : Option (G → Args → Checked (List Player))} {body : Flow G}
    {seated : List Player} {lanes : List Trail} {completed : List Bool} {index : Nat}
    (sweeps : Sweeps g dice (.cons mark below) flow scope (.lane index place))
    (kind_eq : flow.kind = .parallel players body)
    (position_eq : mark.position = .parallel seated lanes completed) :
    ∃ lane player, HasTurn body scope lanes seated completed index lane player ∧
      Sweeps g dice lane body (scope.withPlayer player) place := by
  cases sweeps with
  | lane kind_eq' position_eq' turn sweeps =>
      obtain ⟨⟩ := kind_eq.symm.trans kind_eq'
      obtain ⟨⟩ := position_eq.symm.trans position_eq'
      exact ⟨_, _, turn, sweeps⟩

theorem Sweeps.not_idle (sweeps : Sweeps g dice trail flow scope place) :
    ¬Idle trail flow scope :=
  fun idle => (sweeps.goesOn (idle g dice)).ne_awaiting rfl

/-- What is not swept away in a unit is left, or is played by itself. -/
theorem at_place_of_play (played : play trail flow scope g dice = .ok p)
    (spared : ¬Sweeps g dice trail flow scope place)
    (stands : Stands trail flow scope place node inner) (found : trail.at? place = some sub) :
    Stands p.trail flow scope place node inner ∧
      (p.trail.at? place = some sub ∨
        ∃ q, play sub node inner g dice = .ok q ∧ p.trail.at? place = some q.trail) := by
  induction stands generalizing p with
  | here =>
      cases found
      exact ⟨.here, .inr ⟨p, played, rfl⟩⟩
  | down next stands ih =>
      obtain ⟨q, q_played, ⟨-, rfl⟩ | ⟨leaves, -⟩⟩ := play_node_cases next played
      · obtain ⟨stands', at_place⟩ := ih q_played (fun sweeps => spared (.down next sweeps)) found
        exact ⟨.down next stands', at_place⟩
      · exact absurd (.here next q_played leaves) spared
  | @lane mark below flow players body seated lanes completed index player lane scope place node
      inner kind_eq position_eq at_lane at_player stands ih =>
      rcases play_parallel_cases kind_eq position_eq played with
        ⟨-, rfl⟩ | ⟨index', lane', player', q, turn, q_played, -, rfl⟩
      · exact ⟨.lane kind_eq position_eq at_lane at_player stands, .inl found⟩
      · rw [Trail.at?_lane position_eq at_lane] at found
        dsimp only
        by_cases same : index' = index
        · subst same
          obtain ⟨at_lane', at_player', -⟩ := turn.at_lane
          obtain rfl := Option.some.inj (at_lane.symm.trans at_lane')
          obtain rfl := Option.some.inj (at_player.symm.trans at_player')
          obtain ⟨stands', at_place⟩ := ih q_played
            (fun sweeps => spared (.lane kind_eq position_eq turn sweeps)) found
          obtain ⟨lt, -⟩ := List.getElem?_eq_some_iff.1 at_lane
          refine ⟨.lane kind_eq rfl (List.getElem?_set_self lt) at_player stands', ?_⟩
          rwa [Trail.at?_lane rfl (List.getElem?_set_self lt)]
        · have at_lane' : (lanes.set index' q.trail)[index]? = some lane := by
            rwa [List.getElem?_set_ne same]
          refine ⟨.lane kind_eq rfl at_lane' at_player stands, .inl ?_⟩
          rwa [Trail.at?_lane rfl at_lane']

end Sweeps

/-! ### Acts -/

/-- What is done to the trail of a flow: a unit of play, or a stop that is settled. -/
inductive Act (G : Type) where
  | unit (g : G) (dice : Dice)
  | settle (s : Stop G) (g : G) (status : ActionStatus)

/-- The act leads a flow from the trail to another one, and leaves a game. -/
inductive Act.Leads [Game G] (trail : Trail) (flow : Flow G) (scope : Scope) :
    Act G → G → Trail → Prop
  | unit {g dice p} (played : play trail flow scope g dice = .ok p) :
      Leads trail flow scope (.unit g dice) p.game p.trail
  | settle {s g status settled} (mem : s ∈ stops trail flow scope)
      (settles : s.settle g status trail = .ok settled) :
      Leads trail flow scope (.settle s g status) g settled

/-- The act drops nothing at the place: no node above it leaves the step that the place is
in. A stop that is settled leaves all nodes above it at their steps. -/
def Act.Spares [Game G] (trail : Trail) (flow : Flow G) (scope : Scope) (place : Place) :
    Act G → Prop
  | .unit g dice => ¬Sweeps g dice trail flow scope place
  | .settle .. => True

/-- At the place of a flow stands a node at the mark at which it is entered in the game. -/
def FreshAt [Game G] (g : G) (trail : Trail) (flow : Flow G) (scope : Scope) (place : Place)
    (mark : Mark Trail) : Prop :=
  ∃ node inner entry, Stands trail flow scope place node inner ∧
    start g node.kind inner = .ok entry ∧ mark = node.freshMark entry

section Fresh

variable [Game G] {flow child body : Flow G} {scope : Scope} {place : Place} {mark mark' : Mark Trail}
  {below trail : Trail} {g : G}

theorem FreshAt.down (next : flow.next? mark = some (.node child))
    (fresh : FreshAt g below child (scope.enter flow mark) place mark') :
    FreshAt g (.cons mark below) flow scope (.down place) mark' := by
  obtain ⟨node, inner, entry, stands, starts, mark_eq⟩ := fresh
  exact ⟨node, inner, entry, .down next stands, starts, mark_eq⟩

theorem FreshAt.lane {players : Option (G → Args → Checked (List Player))} {seated : List Player}
    {lanes : List Trail} {completed : List Bool} {index : Nat} {player : Player} {lane : Trail}
    (kind_eq : flow.kind = .parallel players body)
    (position_eq : mark.position = .parallel seated lanes completed)
    (at_lane : lanes[index]? = some lane) (at_player : seated[index]? = some player)
    (fresh : FreshAt g lane body (scope.withPlayer player) place mark') :
    FreshAt g (.cons mark below) flow scope (.lane index place) mark' := by
  obtain ⟨node, inner, entry, stands, starts, mark_eq⟩ := fresh
  exact ⟨node, inner, entry, .lane kind_eq position_eq at_lane at_player stands, starts, mark_eq⟩

/-- Nodes that start side by side are entered with each player in turn. -/
theorem lane_of_start {kind : FlowKind G (Flow G)} {seated : List Player} {lanes : List Trail}
    {completed : List Bool} {index : Nat} {lane : Trail}
    (starts : start g kind scope = .ok (.parallel seated lanes completed))
    (at_lane : lanes[index]? = some lane) :
    ∃ players body player, kind = .parallel players body ∧ seated[index]? = some player ∧
      body.reset g (scope.withPlayer player) = .ok lane := by
  obtain ⟨players, body, rfl, -⟩ := lanes_of_start starts
  obtain ⟨_, -, starts⟩ := bind_eq_ok.1 starts
  obtain ⟨_, entered, starts⟩ := bind_eq_ok.1 starts
  cases starts
  obtain ⟨player, at_player, entered⟩ := exists_of_getElem?_mapM entered at_lane
  exact ⟨players, body, player, rfl, at_player, entered⟩

/-- Every mark of a flow that is entered is fresh. -/
theorem fresh_of_reset (entered : flow.reset g scope = .ok trail)
    (found : trail.at? place = some (.cons mark below)) : FreshAt g trail flow scope place mark := by
  induction flow using Flow.induction generalizing scope trail place with
  | node flow children =>
      rw [reset_eq] at entered
      obtain ⟨position, starts, enters⟩ := bind_eq_ok.1 entered
      cases place with
      | here =>
          obtain ⟨below', rfl, -⟩ := enter_eq_ok enters
          cases found
          exact ⟨flow, scope, position, .here, starts, rfl⟩
      | down place =>
          unfold enter at enters
          split at enters
          · rename_i child next
            obtain ⟨below', child_entered, enters⟩ := bind_eq_ok.1 enters
            cases enters
            exact (children child (mem_children_of_next? next) child_entered found).down next
          · cases enters
            cases Trail.eq_nil_of_at?_nil found
      | lane index place =>
          obtain ⟨below', rfl, -⟩ := enter_eq_ok enters
          obtain ⟨seated, lanes, completed, lane, position_eq, at_lane, in_lane⟩ :=
            Trail.exists_lane_of_at? found
          rw [position_freshMark] at position_eq
          rw [position_eq] at starts
          obtain ⟨players, body, player, kind_eq, at_player, lane_entered⟩ :=
            lane_of_start starts at_lane
          have fresh := children body (mem_children.2 (.inr ⟨players, kind_eq⟩)) lane_entered in_lane
          exact fresh.lane kind_eq (by rw [position_freshMark, position_eq]) at_lane at_player

/-- Below a node that was entered every mark is fresh. -/
theorem fresh_of_enter (enters : flow.enter g scope mark = .ok trail)
    (found : trail.at? (.down place) = some (.cons mark' below)) :
    FreshAt g trail flow scope (.down place) mark' := by
  unfold enter at enters
  split at enters
  · rename_i child next
    obtain ⟨below', entered, enters⟩ := bind_eq_ok.1 enters
    cases enters
    exact (fresh_of_reset entered found).down next
  · cases enters
    cases Trail.eq_nil_of_at?_nil found

end Fresh

section Act

variable [Game G] {flow node : Flow G} {scope inner : Scope} {place : Place}
  {mark mark' : Mark Trail} {trail trail' sub settled below below' : Trail} {g : G} {dice : Dice}
  {p : Progress Trail G} {s : Stop G} {status : ActionStatus} {index : Nat}

/-- What is side by side at another node was there before its unit. -/
theorem at?_lane_of_play (single : flow.isParallel = false)
    (played : play (.cons mark below) flow scope g dice = .ok p)
    (found : p.trail.at? (.lane index place) = some sub) :
    (Trail.cons mark below).at? (.lane index place) = some sub := by
  obtain ⟨mark', below', trail_eq, stays_or_moves⟩ := exists_moves_of_play single played
  rw [trail_eq] at found
  obtain ⟨players, lanes, completed, lane, position_eq, at_lane, found⟩ :=
    Trail.exists_lane_of_at? found
  have position_eq' : mark.position = .parallel players lanes completed := by
    rcases stays_or_moves with rfl | moves
    · exact position_eq
    · exact (moves.continues.position_eq_of_eq position_eq rfl).trans position_eq
  rw [Trail.at?_lane position_eq' at_lane]
  exact found

/-- Each mark that was not there before a unit, or was swept away, is fresh after it. -/
theorem fresh_of_play (played : play trail flow scope g dice = .ok p)
    (new : trail.HasMark place → Sweeps g dice trail flow scope place)
    (found : p.trail.at? place = some (.cons mark below)) :
    FreshAt p.game p.trail flow scope place mark := by
  induction place generalizing trail flow scope p with
  | here =>
      cases trail with
      | nil => cases played
      | cons mark' below' => cases new ⟨mark', below', rfl⟩
  | down place ih =>
      cases trail with
      | nil => cases played
      | cons mark' below' =>
          cases single : flow.isParallel with
          | true =>
              obtain ⟨players, body, kind_eq⟩ := eq_parallel_of_isParallel single
              rw [play_parallel kind_eq] at played
              obtain ⟨q, -, played⟩ := bind_eq_ok.1 played
              cases played
              obtain ⟨child, next⟩ := (new ⟨mark, below, found⟩).exists_next
              rw [isParallel_of_next? next] at single
              cases single
          | false =>
              by_cases node : ∃ child, flow.next? mark' = some (.node child)
              · obtain ⟨child, next⟩ := node
                obtain ⟨q, q_played, ⟨stays, rfl⟩ | ⟨-, ⟨_, -, enters⟩, -⟩⟩ :=
                  play_node_cases next played
                · have new_below (has : below'.HasMark place) :=
                    (new has).further_down next q_played stays
                  exact .down next (ih q_played new_below found)
                · exact fresh_of_enter enters found
              · rcases play_leaf_cases single (not_exists.1 node) played with same | ⟨_, -, enters⟩
                · rw [same] at found
                  exact absurd (new ⟨mark, below, found⟩).exists_next node
                · exact fresh_of_enter enters found
  | lane index place ih =>
      cases trail with
      | nil => cases played
      | cons mark' below' =>
          cases single : flow.isParallel with
          | false =>
              cases new ⟨mark, below, at?_lane_of_play single played found⟩ with
              | lane kind_eq => simp [isParallel, kind_eq] at single
          | true =>
              obtain ⟨players, body, kind_eq⟩ := eq_parallel_of_isParallel single
              obtain ⟨seated, lanes, completed, position_eq⟩ := exists_parallel_of_play kind_eq played
              rcases play_parallel_cases kind_eq position_eq played with
                ⟨all_idle, rfl⟩ | ⟨index', lane, player, q, turn, q_played, busy, rfl⟩
              · obtain ⟨lane, player, turn, sweeps⟩ :=
                  (new ⟨mark, below, found⟩).in_turn kind_eq position_eq
                exact absurd (all_idle turn) sweeps.not_idle
              · obtain ⟨at_lane, at_player, -⟩ := turn.at_lane
                by_cases same : index' = index
                · subst same
                  obtain ⟨lt, -⟩ := List.getElem?_eq_some_iff.1 at_lane
                  have at_lane' := List.getElem?_set_self (a := q.trail) lt
                  refine FreshAt.lane kind_eq rfl at_lane' at_player (ih q_played (fun has => ?_) ?_)
                  · obtain ⟨lane', player', turn', sweeps⟩ :=
                      (new (has.lane position_eq at_lane)).in_turn kind_eq position_eq
                    obtain ⟨at_lane'', at_player', -⟩ := turn'.at_lane
                    obtain ⟨⟩ := at_lane.symm.trans at_lane''
                    obtain ⟨⟩ := at_player.symm.trans at_player'
                    exact sweeps
                  · exact (Trail.at?_lane rfl at_lane').symm.trans found
                · -- Another player has played, so the trail of this one is as before.
                  obtain ⟨_, _, _, lane', ⟨⟩, at_lane', found'⟩ := Trail.exists_lane_of_at? found
                  rw [List.getElem?_set_ne same] at at_lane'
                  have has : lane'.HasMark place := ⟨mark, below, found'⟩
                  obtain ⟨lane', player', turn', sweeps⟩ :=
                    (new (has.lane position_eq at_lane')).in_turn kind_eq position_eq
                  exact absurd (turn.index_eq turn' (not_idle_of_play q_played busy) sweeps.not_idle)
                    same

/-- Settling a stop leaves what stands in the flow, or settles a stop of it. -/
theorem at_place_of_settle (waits : Waits trail flow scope s)
    (settles : s.settle g status trail = .ok settled)
    (stands : Stands trail flow scope place node inner) (found : trail.at? place = some sub) :
    Stands settled flow scope place node inner ∧
      (settled.at? place = some sub ∨ ∃ s' sub', Waits sub node inner s' ∧
        s'.settle g status sub = .ok sub' ∧ settled.at? place = some sub') := by
  induction stands generalizing s settled with
  | here =>
      cases found
      exact ⟨.here, .inr ⟨s, settled, waits, settles, rfl⟩⟩
  | down next stands ih =>
      cases waits with
      | here waiting => simp [waiting?_of_next? next] at waiting
      | down next' inner =>
          obtain ⟨⟩ := next.symm.trans next'
          rw [Stop.settle_within_down] at settles
          obtain ⟨settled', settles', rfl⟩ := Playing.map_eq_ok.1 settles
          obtain ⟨stands', at_place⟩ := ih inner settles' found
          exact ⟨.down next stands', at_place⟩
      | lane kind_eq =>
          have single := isParallel_of_next? next
          simp [isParallel, kind_eq] at single
  | @lane mark below flow players body seated lanes completed index player lane scope place node
      inner kind_eq position_eq at_lane at_player stands ih =>
      cases waits with
      | here waiting => simp [waiting?, kind_eq] at waiting
      | down next =>
          have single := isParallel_of_next? next
          simp [isParallel, kind_eq] at single
      | @lane _ _ _ _ _ _ _ _ index' _ _ _ s kind_eq' position_eq' at_lane' at_player' _ inner =>
          obtain ⟨⟩ := kind_eq.symm.trans kind_eq'
          obtain ⟨⟩ := position_eq.symm.trans position_eq'
          rw [Stop.settle_within_lane position_eq at_lane'] at settles
          obtain ⟨settled', settles', rfl⟩ := Playing.map_eq_ok.1 settles
          rw [Trail.at?_lane position_eq at_lane] at found
          by_cases same : index' = index
          · subst same
            obtain ⟨⟩ := at_lane.symm.trans at_lane'
            obtain ⟨⟩ := at_player.symm.trans at_player'
            obtain ⟨stands', at_place⟩ := ih inner settles' found
            obtain ⟨lt, -⟩ := List.getElem?_eq_some_iff.1 at_lane
            refine ⟨.lane kind_eq rfl (List.getElem?_set_self lt) at_player stands', ?_⟩
            rwa [Trail.at?_lane rfl (List.getElem?_set_self lt)]
          · have left : (lanes.set index' settled')[index]? = some lane := by
              rwa [List.getElem?_set_ne same]
            refine ⟨.lane kind_eq rfl left at_player stands, .inl ?_⟩
            rwa [Trail.at?_lane rfl left]

/-- Each mark that was not there before a stop was settled is fresh after it. -/
theorem fresh_of_settle (waits : Waits trail flow scope s)
    (settles : s.settle g status trail = .ok settled) (new : ¬trail.HasMark place)
    (found : settled.at? place = some (.cons mark below)) :
    FreshAt g settled flow scope place mark := by
  induction waits generalizing settled place with
  | here waiting =>
      obtain ⟨entered, enters, settles⟩ := bind_eq_ok.1 settles
      cases settles
      replace enters := Playing.ofChecked_eq_ok.1 enters
      cases place with
      | here => exact absurd ⟨_, _, rfl⟩ new
      | down place => exact fresh_of_enter enters found
      | lane index place =>
          obtain ⟨below', rfl, -⟩ := enter_eq_ok enters
          obtain ⟨_, _, _, _, ⟨⟩, -⟩ := Trail.exists_lane_of_at? found
  | down next inner ih =>
      rw [Stop.settle_within_down] at settles
      obtain ⟨settled', settles', rfl⟩ := Playing.map_eq_ok.1 settles
      cases place with
      | here => exact absurd ⟨_, _, rfl⟩ new
      | down place => exact (ih settles' new found).down next
      | lane index place => exact absurd ⟨_, _, found⟩ new
  | @lane _ _ _ _ _ _ _ _ index' _ _ _ _ kind_eq position_eq at_lane at_player _ inner ih =>
      rw [Stop.settle_within_lane position_eq at_lane] at settles
      obtain ⟨settled', settles', rfl⟩ := Playing.map_eq_ok.1 settles
      cases place with
      | here => exact absurd ⟨_, _, rfl⟩ new
      | down place => exact absurd ⟨_, _, found⟩ new
      | lane index place =>
          obtain ⟨_, _, _, lane', ⟨⟩, at_lane', found'⟩ := Trail.exists_lane_of_at? found
          by_cases same : index' = index
          · subst same
            obtain ⟨lt, -⟩ := List.getElem?_eq_some_iff.1 at_lane
            have at_settled := List.getElem?_set_self (a := settled') lt
            obtain ⟨⟩ := at_settled.symm.trans at_lane'
            have new_in_lane : ¬Trail.HasMark _ place :=
              fun has => new (has.lane position_eq at_lane)
            exact .lane kind_eq rfl at_settled at_player (ih settles' new_in_lane found')
          · rw [List.getElem?_set_ne same] at at_lane'
            have has : lane'.HasMark place := ⟨mark, below, found'⟩
            exact absurd (has.lane position_eq at_lane') new

namespace Act.Leads

variable {act : Act G} {g' : G}

/-- What is spared by an act stands where it stood, with the trail it had from there on, or
the act was one on this trail. -/
theorem at_place (leads : act.Leads trail flow scope g' trail')
    (spares : act.Spares trail flow scope place)
    (stands : Stands trail flow scope place node inner) (found : trail.at? place = some sub) :
    Stands trail' flow scope place node inner ∧
      (trail'.at? place = some sub ∨ ∃ act' g'' sub', Act.Leads sub node inner act' g'' sub' ∧
        trail'.at? place = some sub') := by
  cases leads with
  | unit played =>
      obtain ⟨stands', same | ⟨q, q_played, at_place⟩⟩ := at_place_of_play played spares stands found
      · exact ⟨stands', .inl same⟩
      · exact ⟨stands', .inr ⟨_, _, _, .unit q_played, at_place⟩⟩
  | settle mem settles =>
      obtain ⟨stands', same | ⟨s', sub', waits, settles', at_place⟩⟩ :=
        at_place_of_settle (waits_of_mem_stops mem) settles stands found
      · exact ⟨stands', .inl same⟩
      · exact ⟨stands', .inr ⟨_, _, _, .settle (mem_stops_of_waits waits) settles', at_place⟩⟩

/-- A mark that was not there before an act, or that it did not spare, is fresh in the game
that the act leaves. -/
theorem fresh (leads : act.Leads trail flow scope g' trail')
    (new : trail.HasMark place → ¬act.Spares trail flow scope place)
    (found : trail'.at? place = some (.cons mark below)) :
    FreshAt g' trail' flow scope place mark := by
  cases leads with
  | unit played => exact fresh_of_play played (fun has => not_not.1 (new has)) found
  | settle mem settles =>
      exact fresh_of_settle (waits_of_mem_stops mem) settles (fun has => new has trivial) found

end Act.Leads

end Act

end Flow

end Tabletop
