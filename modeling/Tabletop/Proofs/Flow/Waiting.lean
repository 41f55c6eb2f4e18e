import Tabletop.Flow.Stop

/-! # Where a flow waits

`Waits` says step by step how a stop is found: at the mark of an action step, in
what the mark stands at, or in the trail of a player who is not done. Settling a
stop rebuilds the marks on the way to it and leaves them as they are.

Main statement: `waits_of_mem_stops`. Each stop is found in this way.
-/

namespace Tabletop

variable {G : Type}

/-- The step may come to rest in the status: it is passed over, or a move that it
accepts is taken. -/
def ActionStep.Admits {φ : Type} (step : ActionStep G φ) : ActionStatus → Prop
  | .awaiting => False
  | .skipped => True
  | .taken move => step.accepts move.name

/-- A trail of a flow waits at a stop. -/
inductive Flow.Waits : Trail → Flow G → Scope → Stop G → Prop
  | here {mark below flow step scope} (waiting : flow.waiting? mark = some step) :
      Waits (.cons mark below) flow scope ⟨flow, step, .here, scope⟩
  | down {mark below flow child scope s} (next : flow.next? mark = some (.node child))
      (inner : Waits below child (scope.enter flow mark) s) :
      Waits (.cons mark below) flow scope (s.within .down)
  | lane {mark below flow players body seated lanes completed index player lane scope s}
      (kind_eq : flow.kind = .parallel players body)
      (position_eq : mark.position = .parallel seated lanes completed)
      (at_lane : lanes[index]? = some lane) (at_player : seated[index]? = some player)
      (not_done : completed[index]? = some false)
      (inner : Waits lane body (scope.withPlayer player) s) :
      Waits (.cons mark below) flow scope (s.within (.lane index))

namespace Flow

section Stops

variable {flow body : Flow G} {mark : Mark Trail} {below trail : Trail} {scope : Scope} {s : Stop G}

/-- A node that has a step to run does not wait. -/
theorem waiting?_of_next? {step : Step G (Flow G)} (next : flow.next? mark = some step) :
    flow.waiting? mark = none := by
  cases waiting : flow.waiting? mark with
  | none => rfl
  | some _ =>
      obtain ⟨flowName, kind⟩ := flow
      obtain ⟨name, position, stepIndex⟩ := mark
      cases kind with
      | action step =>
          cases position with
          | action status => cases status <;> simp [waiting?, next?, liveBlock] at waiting next
          | _ => simp [waiting?] at waiting
      | _ => simp [waiting?] at waiting

theorem stops_parallel {players : Option (G → Args → Checked (List Player))}
    (h : flow.kind = .parallel players body) :
    stops (.cons mark below) flow scope = markStops mark body scope := by
  simp only [stops, h]

theorem stops_here {step : ActionStep G (Flow G)} (h : flow.waiting? mark = some step) :
    stops (.cons mark below) flow scope = [⟨flow, step, .here, scope⟩] := by
  obtain ⟨name, kind⟩ := flow
  cases kind with
  | action step => simp only [stops, h]
  | _ => simp [waiting?] at h

theorem stops_down (hp : flow.isParallel = false) (hw : flow.waiting? mark = none) :
    stops (.cons mark below) flow scope =
      match flow.next? mark with
      | some (.node child) =>
          (stops below child (scope.enter flow mark)).map (Stop.within .down)
      | _ => [] := by
  obtain ⟨name, kind⟩ := flow
  cases kind with
  | parallel players body => cases hp
  | _ => simp only [stops, hw]; rcases next? _ mark with _ | _ | _ <;> rfl

/-- A stop in the trails side by side is one in the trail of a player who is not
done. -/
theorem mem_laneStops {lanes : List Trail} {players : List Player} {completed : List Bool}
    {first : Nat} (h : s ∈ laneStops lanes body players completed first scope) :
    ∃ index lane player, lanes[index]? = some lane ∧ players[index]? = some player ∧
      completed[index]? = some false ∧ ∃ inner ∈ stops lane body (scope.withPlayer player),
        s = inner.within (.lane (first + index)) := by
  induction lanes generalizing players completed first with
  | nil => simp [laneStops] at h
  | cons lane lanes ih =>
      rcases players with _ | ⟨player, players⟩
      · simp [laneStops] at h
      rcases completed with _ | ⟨done, completed⟩
      · simp [laneStops] at h
      have found : done = false ∧ s ∈ (stops lane body (scope.withPlayer player)).map
          (Stop.within (.lane first)) ∨
          s ∈ laneStops lanes body players completed (first + 1) scope := by
        cases done with
        | true => exact .inr h
        | false => exact (List.mem_append.1 h).imp_left fun mem => ⟨rfl, mem⟩
      rcases found with ⟨rfl, mem⟩ | mem
      · obtain ⟨inner, inner_mem, rfl⟩ := List.mem_map.1 mem
        exact ⟨0, lane, player, rfl, rfl, rfl, inner, inner_mem, rfl⟩
      · obtain ⟨index, lane', player', hl, hp, hc, inner, inner_mem, rfl⟩ := ih mem
        refine ⟨index + 1, lane', player', hl, hp, hc, inner, inner_mem, ?_⟩
        rw [Nat.add_right_comm, Nat.add_assoc]

theorem waits_of_mem_stops (h : s ∈ stops trail flow scope) : Waits trail flow scope s := by
  induction trail using Trail.induction generalizing flow scope s with
  | nil => simp [stops] at h
  | cons mark below below_waits lanes_wait =>
      cases hp : flow.isParallel with
      | true =>
          obtain ⟨players, body, kind_eq⟩ := eq_parallel_of_isParallel hp
          rw [stops_parallel kind_eq] at h
          obtain ⟨name, position, stepIndex⟩ := mark
          cases position with
          | parallel seated lanes completed =>
              obtain ⟨index, lane, player, hl, hp, hc, inner, mem, rfl⟩ := mem_laneStops h
              rw [Nat.zero_add]
              exact .lane kind_eq rfl hl hp hc
                (lanes_wait _ _ _ rfl lane (List.mem_of_getElem? hl) mem)
          | _ => simp [markStops, positionStops] at h
      | false =>
          cases hw : flow.waiting? mark with
          | some step =>
              rw [stops_here hw] at h
              obtain rfl := List.mem_singleton.1 h
              exact .here hw
          | none =>
              rw [stops_down hp hw] at h
              split at h
              · rename_i child hn
                obtain ⟨inner, mem, rfl⟩ := List.mem_map.1 h
                exact .down hn (below_waits mem)
              · cases h

end Stops

end Flow

namespace Stop

variable [Game G] {s : Stop G} {g : G} {status : ActionStatus} {mark : Mark Trail}
  {below lane : Trail}

omit [Game G] in
theorem eq_within_down {place : Place} (h : s.place = .down place) :
    s = within .down { s with place } := by
  obtain ⟨flow, step, _, scope⟩ := s
  cases h
  rfl

omit [Game G] in
theorem eq_within_lane {place : Place} {index : Nat} (h : s.place = .lane index place) :
    s = within (.lane index) { s with place } := by
  obtain ⟨flow, step, _, scope⟩ := s
  cases h
  rfl

/-- Settling a stop below a mark leaves the mark as it is. -/
theorem settle_within_down :
    (s.within .down).settle g status (.cons mark below) =
      (s.settle g status below).map fun settled => .cons mark settled := by
  simp only [settle, within, Trail.at?]
  rcases below.at? s.place with _ | _ | ⟨mark', below'⟩
  · rfl
  · rfl
  · simp only [Trail.replaceAt]
    cases s.flow.enter g s.scope (s.flow.atFirstStep { mark' with position := .action status }) <;>
      rfl

/-- Settling a stop in the trail of a player leaves the other trails as they
are. -/
theorem settle_within_lane {players : List Player} {lanes : List Trail} {completed : List Bool}
    {index : Nat} (position_eq : mark.position = .parallel players lanes completed)
    (at_lane : lanes[index]? = some lane) :
    (s.within (.lane index)).settle g status (.cons mark below) =
      (s.settle g status lane).map fun settled =>
        .cons { mark with position := .parallel players (lanes.set index settled) completed }
          below := by
  obtain ⟨lt, rfl⟩ := List.getElem?_eq_some_iff.1 at_lane
  simp only [settle, within, Trail.at?, position_eq, at_lane, Option.bind_some]
  rcases lanes[index].at? s.place with _ | _ | ⟨mark', below'⟩
  · rfl
  · rfl
  · simp only [Trail.replaceAt, position_eq, List.modify_eq_set, at_lane, Option.getD_some]
    cases s.flow.enter g s.scope (s.flow.atFirstStep { mark' with position := .action status }) <;>
      rfl

omit [Game G] in
/-- There is a mark where a flow waits. -/
theorem exists_at?_of_waits {trail : Trail} {flow : Flow G} {scope : Scope}
    (waits : Flow.Waits trail flow scope s) :
    ∃ mark below, trail.at? s.place = some (.cons mark below) := by
  induction waits with
  | here => exact ⟨_, _, rfl⟩
  | down _ _ ih => exact ih
  | lane _ position_eq at_lane _ _ _ ih =>
      obtain ⟨mark, below, found⟩ := ih
      exact ⟨mark, below, by simp [within, Trail.at?, position_eq, at_lane, found]⟩

/-- Settling a stop where a flow waits fails only by a mistake of the author. -/
theorem fault_of_settle {trail : Trail} {flow : Flow G} {scope : Scope} {e : PlayError}
    (waits : Flow.Waits trail flow scope s) (h : s.settle g status trail = .error e) :
    ∃ fault, e = .fault fault := by
  obtain ⟨mark, below, found⟩ := exists_at?_of_waits waits
  rw [settle, found] at h
  dsimp only at h
  cases entered : s.flow.enter g s.scope
      (s.flow.atFirstStep { mark with position := .action status }) with
  | error fault =>
      rw [entered] at h
      cases h
      exact ⟨fault, rfl⟩
  | ok settled =>
      rw [entered] at h
      cases h

end Stop

/-! ### Stops side by side -/

/-- Two places are in the trails of different players, below marks they share. -/
def Place.Apart : Place → Place → Prop
  | down p, down q => p.Apart q
  | lane i p, lane j q => i = j → p.Apart q
  | _, _ => False

namespace Flow

variable {flow body : Flow G} {mark : Mark Trail} {trail : Trail} {scope : Scope} {s s' : Stop G}

theorem laneStops_apart {lanes : List Trail} {players : List Player} {completed : List Bool}
    {first : Nat}
    (each : ∀ lane ∈ lanes, ∀ scope,
      (stops lane body scope).Pairwise fun s s' => s.place.Apart s'.place) :
    (laneStops lanes body players completed first scope).Pairwise fun s s' =>
      s.place.Apart s'.place := by
  induction lanes generalizing players completed first with
  | nil => simp [laneStops]
  | cons lane lanes ih =>
      rcases players with _ | ⟨player, players⟩
      · simp [laneStops]
      rcases completed with _ | ⟨done, completed⟩
      · simp [laneStops]
      have later : (laneStops lanes body players completed (first + 1) scope).Pairwise
          fun s s' => s.place.Apart s'.place := ih fun lane mem => each lane (List.mem_cons_of_mem _ mem)
      cases done with
      | true => exact later
      | false =>
          refine List.pairwise_append.2 ⟨?_, later, ?_⟩
          · refine List.pairwise_map.2 ((each lane List.mem_cons_self _).imp ?_)
            exact fun apart _ => apart
          · intro s mem s' mem'
            obtain ⟨inner, -, rfl⟩ := List.mem_map.1 mem
            obtain ⟨index, -, -, -, -, -, inner', -, rfl⟩ := mem_laneStops mem'
            intro same
            omega

/-- The stops of a flow are all in the trails of different players. -/
theorem stops_apart (trail : Trail) (flow : Flow G) (scope : Scope) :
    (stops trail flow scope).Pairwise fun s s' => s.place.Apart s'.place := by
  induction trail using Trail.induction generalizing flow scope with
  | nil => simp [stops]
  | cons mark below below_apart lanes_apart =>
      cases hp : flow.isParallel with
      | true =>
          obtain ⟨players, body, kind_eq⟩ := eq_parallel_of_isParallel hp
          rw [stops_parallel kind_eq]
          obtain ⟨name, position, stepIndex⟩ := mark
          cases position with
          | parallel seated lanes completed =>
              exact laneStops_apart fun lane mem scope => lanes_apart _ _ _ rfl lane mem body scope
          | _ => simp [markStops, positionStops]
      | false =>
          cases hw : flow.waiting? mark with
          | some step =>
              rw [stops_here hw]
              exact List.pairwise_singleton _ _
          | none =>
              rw [stops_down hp hw]
              split
              · exact List.pairwise_map.2 (below_apart _ _)
              · exact .nil

/-- A stop that is settled leaves the stops of other players as they are. -/
theorem waits_of_apart [Game G] {g : G} {status : ActionStatus} {settled : Trail}
    (waits : Waits trail flow scope s) (apart : s'.place.Apart s.place)
    (settles : s'.settle g status trail = .ok settled) : Waits settled flow scope s := by
  induction waits generalizing s' settled with
  | here waiting => cases hp : s'.place <;> simp [hp, Place.Apart] at apart
  | @down mark below flow child scope s next inner ih =>
      cases hp : s'.place with
      | down place =>
          have apart' : ({ s' with place } : Stop G).place.Apart s.place := by
            simpa [hp, Stop.within, Place.Apart] using apart
          rw [Stop.eq_within_down hp, Stop.settle_within_down] at settles
          obtain ⟨below', settles', rfl⟩ := Playing.map_eq_ok.1 settles
          exact .down next (ih apart' settles')
      | _ => simp [hp, Place.Apart, Stop.within] at apart
  | @lane mark below flow players body seated lanes completed index player lane scope s kind_eq
      position_eq at_lane at_player not_done inner ih =>
      cases hp : s'.place with
      | lane index' place =>
          have apart' : index' = index → ({ s' with place } : Stop G).place.Apart s.place := by
            simpa [hp, Stop.within, Place.Apart] using apart
          obtain ⟨lane', at_lane'⟩ : ∃ lane', lanes[index']? = some lane' := by
            cases found : lanes[index']? with
            | some lane' => exact ⟨lane', rfl⟩
            | none => simp [Stop.settle, hp, Trail.at?, position_eq, found, invalid] at settles
          rw [Stop.eq_within_lane hp, Stop.settle_within_lane position_eq at_lane'] at settles
          obtain ⟨settled', settles', rfl⟩ := Playing.map_eq_ok.1 settles
          by_cases same : index' = index
          · subst same
            obtain rfl : lane' = lane := by simpa [at_lane'] using at_lane
            obtain ⟨lt, -⟩ := List.getElem?_eq_some_iff.1 at_lane
            exact .lane kind_eq rfl (by simp [lt]) at_player not_done (ih (apart' rfl) settles')
          · exact .lane kind_eq rfl (by simpa [List.getElem?_set_ne same] using at_lane) at_player
              not_done inner
      | _ => simp [hp, Place.Apart, Stop.within] at apart

end Flow

end Tabletop
