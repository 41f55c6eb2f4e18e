import Mathlib.Data.List.Pairwise
import Tabletop.Proofs.Flow.Safety
import Tabletop.Session

/-! # Stops side by side

The stops of a flow are in the trails of different players, below marks that they share.
Settling one of them writes into the trail of its player alone, so it leaves the other
stops as they are, and it makes no difference which one is settled first.

Main statements: `mem_stops_settled`, `settle_comm`, and `stops_independent`, which says the
same of all stops that a flow has at the moment.
-/

namespace Tabletop

variable {G : Type}

/-! ### Places that are apart -/

namespace Place

variable {p q : Place}

theorem Apart.symm (h : p.Apart q) : q.Apart p := by
  induction p generalizing q with
  | here => cases q <;> cases h
  | down p ih =>
      cases q with
      | down q => exact ih h
      | _ => cases h
  | lane i p ih =>
      cases q with
      | lane j q =>
          intro same
          exact ih (h same.symm)
      | _ => cases h

theorem Apart.irrefl (p : Place) : ¬p.Apart p := by
  induction p with
  | here => exact id
  | down p ih => exact ih
  | lane i p ih =>
      intro h
      exact ih (h rfl)

end Place

namespace Trail

variable {p q : Place}

/-- What is written at a place is not seen from one that is apart. -/
theorem at?_replaceAt (apart : p.Apart q) (trail new : Trail) :
    (trail.replaceAt p new).at? q = trail.at? q := by
  induction p generalizing q trail with
  | here => cases q <;> cases apart
  | down p ih =>
      cases q with
      | down q =>
          cases trail with
          | nil => rfl
          | cons mark below => exact ih apart below
      | _ => cases apart
  | lane i p ih =>
      cases q with
      | lane j q =>
          cases trail with
          | nil => rfl
          | cons mark below =>
              obtain ⟨name, position, stepIndex⟩ := mark
              cases position with
              | parallel players lanes completed =>
                  simp only [replaceAt, at?, List.getElem?_modify]
                  by_cases same : i = j
                  · cases found : lanes[j]? with
                    | none => simp
                    | some lane => simpa [same] using ih (apart same) lane
                  · simp [same]
              | _ => rfl
      | _ => cases apart

/-- What is written at two places that are apart is written in any order. -/
theorem replaceAt_comm (apart : p.Apart q) (trail new new' : Trail) :
    (trail.replaceAt p new).replaceAt q new' = (trail.replaceAt q new').replaceAt p new := by
  induction p generalizing q trail with
  | here => cases q <;> cases apart
  | down p ih =>
      cases q with
      | down q =>
          cases trail with
          | nil => rfl
          | cons mark below => exact congrArg (cons mark) (ih apart below)
      | _ => cases apart
  | lane i p ih =>
      cases q with
      | lane j q =>
          cases trail with
          | nil => rfl
          | cons mark below =>
              obtain ⟨name, position, stepIndex⟩ := mark
              cases position with
              | parallel players lanes completed =>
                  simp only [replaceAt]
                  congr 3
                  by_cases same : i = j
                  · subst same
                    rw [List.modify_modify_eq, List.modify_modify_eq]
                    congr 1
                    funext lane
                    exact ih (apart rfl) lane
                  · exact List.modify_modify_ne _ _ _ same
              | _ => rfl
      | _ => cases apart

end Trail

/-! ### Two stops -/

namespace Flow

variable {flow : Flow G} {trail : Trail} {scope : Scope} {s s' : Stop G}

/-- A stop in the trail of a player who is not done is one of the stops side by side. -/
theorem mem_laneStops_of_mem {body : Flow G} {lanes : List Trail} {players : List Player}
    {completed : List Bool} {index first : Nat} {lane : Trail} {player : Player}
    (at_lane : lanes[index]? = some lane) (at_player : players[index]? = some player)
    (not_done : completed[index]? = some false)
    (mem : s ∈ stops lane body (scope.withPlayer player)) :
    s.within (.lane (first + index)) ∈ laneStops lanes body players completed first scope := by
  induction lanes generalizing players completed first index with
  | nil => simp at at_lane
  | cons lane' lanes ih =>
      rcases players with _ | ⟨player', players⟩
      · simp at at_player
      rcases completed with _ | ⟨done, completed⟩
      · simp at not_done
      cases index with
      | zero =>
          obtain rfl : lane' = lane := by simpa using at_lane
          obtain rfl : player' = player := by simpa using at_player
          obtain rfl : done = false := by simpa using not_done
          exact List.mem_append_left _ (List.mem_map_of_mem mem)
      | succ index =>
          have later : s.within (.lane (first + 1 + index)) ∈
              laneStops lanes body players completed (first + 1) scope :=
            ih (by simpa using at_lane) (by simpa using at_player) (by simpa using not_done)
          rw [Nat.add_right_comm, Nat.add_assoc] at later
          cases done with
          | true => exact later
          | false => exact List.mem_append_right _ later

/-- A flow has a stop wherever it waits. -/
theorem mem_stops_of_waits (waits : Waits trail flow scope s) : s ∈ stops trail flow scope := by
  induction waits with
  | here waiting =>
      rw [stops_here waiting]
      exact List.mem_singleton_self _
  | down next inner ih =>
      rw [stops_down (isParallel_of_next? next) (waiting?_of_next? next), next]
      exact List.mem_map_of_mem ih
  | @lane mark below flow players body seated lanes completed index player lane scope s kind_eq
      position_eq at_lane at_player not_done inner ih =>
      obtain ⟨name, position, stepIndex⟩ := mark
      obtain rfl : position = .parallel seated lanes completed := position_eq
      rw [stops_parallel kind_eq]
      have mem : s.within (.lane (0 + index)) ∈ laneStops lanes body seated completed 0 scope :=
        mem_laneStops_of_mem at_lane at_player not_done ih
      rwa [Nat.zero_add] at mem

theorem apart_of_mem_stops (mem : s ∈ stops trail flow scope) (mem' : s' ∈ stops trail flow scope)
    (different : s ≠ s') : s.place.Apart s'.place := by
  have : Std.Symm fun s s' : Stop G => s.place.Apart s'.place := ⟨fun _ _ => Place.Apart.symm⟩
  exact (stops_apart trail flow scope).forall mem mem' different

/-- No stop is listed twice. -/
theorem nodup_stops (trail : Trail) (flow : Flow G) (scope : Scope) :
    (stops trail flow scope).Nodup := by
  apply (stops_apart trail flow scope).imp
  rintro s s' apart rfl
  exact Place.Apart.irrefl _ apart

variable [Game G] {g : G} {status status' : ActionStatus} {settled : Trail}

/-- After a stop is settled the others are still there, each with its node, its place and
its scope. -/
theorem mem_stops_settled (mem : s ∈ stops trail flow scope) (mem' : s' ∈ stops trail flow scope)
    (different : s ≠ s') (settles : s.settle g status trail = .ok settled) :
    s' ∈ stops settled flow scope := by
  apply mem_stops_of_waits
  exact waits_of_apart (waits_of_mem_stops mem') (apart_of_mem_stops mem mem' different) settles

end Flow

namespace Stop

variable [Game G] {g : G} {status status' : ActionStatus} {s s' : Stop G} {trail : Trail}

/-- What a flow enters when one of its stops is settled at a mark. -/
def entered (s : Stop G) (g : G) (status : ActionStatus) (mark : Mark Trail) : Playing Trail :=
  .ofChecked (s.flow.enter g s.scope (s.flow.atFirstStep { mark with position := .action status }))

/-- Settling a stop writes what is entered in place of what was there. -/
theorem settle_eq {mark : Mark Trail} {below : Trail}
    (found : trail.at? s.place = some (.cons mark below)) :
    s.settle g status trail = (s.entered g status mark).map (trail.replaceAt s.place) := by
  simp only [settle, found, entered]
  cases s.flow.enter g s.scope (s.flow.atFirstStep { mark with position := .action status }) <;> rfl

/-- Two stops that are apart are settled one after the other if both have something to
enter, which does not depend on the other one. -/
theorem settle_settle_eq_ok {mark mark' : Mark Trail} {below below' both : Trail}
    (apart : s.place.Apart s'.place) (found : trail.at? s.place = some (.cons mark below))
    (found' : trail.at? s'.place = some (.cons mark' below')) :
    s.settle g status trail >>= s'.settle g status' = .ok both ↔
      ∃ new new', s.entered g status mark = .ok new ∧ s'.entered g status' mark' = .ok new' ∧
        (trail.replaceAt s.place new).replaceAt s'.place new' = both := by
  rw [bind_eq_ok]
  constructor
  · rintro ⟨settled, settles, settles'⟩
    rw [settle_eq found] at settles
    obtain ⟨new, enters, rfl⟩ := Playing.map_eq_ok.1 settles
    rw [settle_eq ((Trail.at?_replaceAt apart trail new).trans found')] at settles'
    obtain ⟨new', enters', written⟩ := Playing.map_eq_ok.1 settles'
    exact ⟨new, new', enters, enters', written⟩
  · rintro ⟨new, new', enters, enters', written⟩
    refine ⟨trail.replaceAt s.place new, ?_, ?_⟩
    · rw [settle_eq found, enters]
      rfl
    · rw [settle_eq ((Trail.at?_replaceAt apart trail new).trans found'), enters']
      exact congrArg Except.ok written

end Stop

namespace Flow

variable [Game G] {flow : Flow G} {trail : Trail} {scope : Scope} {s s' : Stop G} {g : G}
  {status status' : ActionStatus}

/-- Two stops are settled in any order. -/
theorem settle_comm (mem : s ∈ stops trail flow scope) (mem' : s' ∈ stops trail flow scope)
    (different : s ≠ s') (both : Trail) :
    s.settle g status trail >>= s'.settle g status' = .ok both ↔
      s'.settle g status' trail >>= s.settle g status = .ok both := by
  have apart := apart_of_mem_stops mem mem' different
  obtain ⟨mark, below, found⟩ := Stop.exists_at?_of_waits (waits_of_mem_stops mem)
  obtain ⟨mark', below', found'⟩ := Stop.exists_at?_of_waits (waits_of_mem_stops mem')
  rw [Stop.settle_settle_eq_ok apart found found',
    Stop.settle_settle_eq_ok apart.symm found' found]
  constructor
  · rintro ⟨new, new', enters, enters', rfl⟩
    exact ⟨new', new, enters', enters, (Trail.replaceAt_comm apart _ _ _).symm⟩
  · rintro ⟨new', new, enters', enters, rfl⟩
    exact ⟨new, new', enters, enters', Trail.replaceAt_comm apart _ _ _⟩

/-! ### All stops of the moment -/

/-- Settles some stops in turn, each in a status of its own. -/
def settleAll (g : G) : List (Stop G × ActionStatus) → Trail → Playing Trail
  | [], trail => .ok trail
  | (s, status) :: rest, trail => do settleAll g rest (← s.settle g status trail)

/-- Some stops that a flow has at the moment, none of them twice, each with a status in which
its step may come to rest. -/
structure Chosen (flow : Flow G) (scope : Scope) (trail : Trail)
    (chosen : List (Stop G × ActionStatus)) : Prop where
  nodup : (chosen.map Prod.fst).Nodup
  mem_stops : ∀ c ∈ chosen, c.1 ∈ stops trail flow scope
  admits : ∀ c ∈ chosen, c.1.step.Admits c.2

section Chosen

variable {chosen chosen' : List (Stop G × ActionStatus)}

omit [Game G] in
theorem Chosen.perm (h : Chosen flow scope trail chosen) (same : chosen'.Perm chosen) :
    Chosen flow scope trail chosen' where
  nodup := (same.map Prod.fst).nodup_iff.2 h.nodup
  mem_stops := fun c mem => h.mem_stops c (same.mem_iff.1 mem)
  admits := fun c mem => h.admits c (same.mem_iff.1 mem)

/-- When the first one is settled, the others may still be settled. -/
theorem Chosen.tail {settled : Trail} (h : Chosen flow scope trail ((s, status) :: chosen))
    (settles : s.settle g status trail = .ok settled) : Chosen flow scope settled chosen := by
  obtain ⟨fresh, nodup⟩ := List.nodup_cons.1 h.nodup
  obtain ⟨mem, rest_mem⟩ := List.forall_mem_cons.1 h.mem_stops
  refine ⟨nodup, ?_, (List.forall_mem_cons.1 h.admits).2⟩
  intro c c_mem
  refine mem_stops_settled mem (rest_mem c c_mem) ?_ settles
  intro same
  exact fresh (List.mem_map.2 ⟨c, c_mem, same.symm⟩)

/-- Settling the chosen stops in turn leaves a trail that fits, and the stops that were
not chosen. -/
theorem Chosen.settleAll_returns (h : Chosen flow scope trail chosen) (fits : flow.Fits trail) :
    Returns flow (fun settled => flow.Fits settled ∧ ∀ s ∈ stops trail flow scope,
      s ∉ chosen.map Prod.fst → s ∈ stops settled flow scope) (settleAll g chosen trail) := by
  induction chosen generalizing trail with
  | nil => exact .ok ⟨fits, fun _ mem _ => mem⟩
  | cons first rest ih =>
      obtain ⟨s, status⟩ := first
      have mem : s ∈ stops trail flow scope := h.mem_stops _ List.mem_cons_self
      have admits : s.step.Admits status := h.admits (s, status) List.mem_cons_self
      refine (settle_returns (waits_of_mem_stops mem) admits fits).told.bind ?_
      rintro settled ⟨settles, settled_fits⟩
      refine (ih (h.tail settles) settled_fits).mono ?_
      rintro left ⟨left_fits, still⟩
      refine ⟨left_fits, ?_⟩
      intro s' mem' not_chosen
      obtain ⟨different, not_later⟩ := not_or.1 (mt List.mem_cons.2 not_chosen)
      exact still s' (mem_stops_settled mem mem' (Ne.symm different) settles) not_later

/-- The chosen stops are settled in any order. -/
theorem Chosen.settleAll_perm (h : Chosen flow scope trail chosen) (same : chosen'.Perm chosen)
    (settled : Trail) :
    settleAll g chosen' trail = .ok settled ↔ settleAll g chosen trail = .ok settled := by
  induction same generalizing trail with
  | nil => rfl
  | cons first _ ih =>
      obtain ⟨s, status⟩ := first
      simp only [settleAll, bind_eq_ok]
      apply exists_congr
      intro left
      apply and_congr_right
      intro settles
      exact ih (h.tail settles)
  | swap second first rest =>
      obtain ⟨s, status⟩ := first
      obtain ⟨s', status'⟩ := second
      have mem : s ∈ stops trail flow scope := h.mem_stops (s, status) (by simp)
      have mem' : s' ∈ stops trail flow scope := h.mem_stops (s', status') (by simp)
      have different : s ≠ s' := by
        rintro rfl
        exact (List.nodup_cons.1 h.nodup).1 List.mem_cons_self
      simp only [settleAll, ← bind_assoc]
      rw [bind_eq_ok, bind_eq_ok]
      apply exists_congr
      intro both
      apply and_congr_left
      intro _
      exact settle_comm mem mem' different both
  | trans _ same' ih ih' => exact (ih (h.perm same')).trans (ih' h)

end Chosen

end Flow

namespace Rules

variable [Game G] {rules : Rules G} {g : G} {flow : Flow G} {trail : Trail} {scope : Scope}

/-- Play passes over the stop: it has to be played, and nobody who may move there can. -/
def PassesOver (rules : Rules G) (g : G) (s : Stop G) : Prop :=
  s.step.isOptional = false ∧ ∃ players, s.eligible g = .ok players ∧
    s.anyPlayable rules.repertoire g players = .ok false

/-- Some stops, each of them to be skipped. -/
def toSkip (stops : List (Stop G)) : List (Stop G × ActionStatus) := stops.map (·, .skipped)

/-- Of some stops, play settles in turn those that it passes over. -/
theorem skipStops_eq_settleAll {stops : List (Stop G)} {p : Trail × Bool}
    (skips : rules.skipStops g stops trail = .ok p) :
    ∃ passed : List (Stop G), passed.Sublist stops ∧
      (∀ s ∈ stops, s ∈ passed ↔ rules.PassesOver g s) ∧
        Flow.settleAll g (toSkip passed) trail = .ok p.1 := by
  induction stops generalizing trail p with
  | nil =>
      cases skips
      exact ⟨[], .slnil, by simp, rfl⟩
  | cons s rest ih =>
      have stays (playable : ¬rules.PassesOver g s)
          (skips : rules.skipStops g rest trail = .ok p) :
          ∃ passed : List (Stop G), passed.Sublist (s :: rest) ∧
            (∀ s' ∈ s :: rest, s' ∈ passed ↔ rules.PassesOver g s') ∧
              Flow.settleAll g (toSkip passed) trail = .ok p.1 := by
        obtain ⟨passed, sub, passed_iff, settles⟩ := ih skips
        refine ⟨passed, sub.cons s, List.forall_mem_cons.2 ⟨?_, passed_iff⟩, settles⟩
        refine iff_of_false (fun mem => ?_) playable
        exact playable ((passed_iff s (sub.subset mem)).1 mem)
      unfold skipStops at skips
      split at skips
      · rename_i optional
        refine stays ?_ skips
        rintro ⟨required, -⟩
        exact absurd (optional.symm.trans required) nofun
      · rename_i required
        obtain ⟨players, eligible, skips⟩ := bind_eq_ok.1 skips
        obtain ⟨playable, any, skips⟩ := bind_eq_ok.1 skips
        have eligible := Playing.ofChecked_eq_ok.1 eligible
        have any := Playing.ofChecked_eq_ok.1 any
        cases playable with
        | true =>
            refine stays ?_ skips
            rintro ⟨-, players', eligible', none⟩
            obtain ⟨⟩ := eligible.symm.trans eligible'
            exact absurd (any.symm.trans none) nofun
        | false =>
            have passes : rules.PassesOver g s :=
              ⟨by simpa using required, players, eligible, any⟩
            obtain ⟨settled, settles, skips⟩ := bind_eq_ok.1 skips
            obtain ⟨⟨left, skipped⟩, skips_rest, ends⟩ := bind_eq_ok.1 skips
            cases ends
            obtain ⟨passed, sub, passed_iff, settles_rest⟩ := ih skips_rest
            refine ⟨s :: passed, sub.cons_cons s, ?_, bind_eq_ok.2 ⟨settled, settles, settles_rest⟩⟩
            refine List.forall_mem_cons.2 ⟨iff_of_true List.mem_cons_self passes, ?_⟩
            intro s' mem
            rw [List.mem_cons, passed_iff s' mem]
            refine or_iff_right_of_imp ?_
            rintro rfl
            exact passes

omit [Game G] in
/-- Stops of the moment may be chosen to be skipped. -/
theorem chosen_toSkip {passed : List (Stop G)}
    (sub : passed.Sublist (Flow.stops trail flow scope)) :
    Flow.Chosen flow scope trail (toSkip passed) where
  nodup := by
    have same : (toSkip passed).map Prod.fst = passed := by
      simp [toSkip, Function.comp_def]
    rw [same]
    exact sub.nodup (Flow.nodup_stops trail flow scope)
  mem_stops := by
    intro c mem
    obtain ⟨s, passed_mem, rfl⟩ := List.mem_map.1 mem
    exact sub.subset passed_mem
  admits := by
    intro c mem
    obtain ⟨s, -, rfl⟩ := List.mem_map.1 mem
    trivial

/-- The stops that a flow has at the moment do not disturb each other: they are all
different, when one of them is settled the others are still there, and two of them are
settled in any order. So some of them may be settled in turn, in any order, and play does
so with those that it passes over. Only a fault of the author can come in between. -/
theorem stops_independent (rules : Rules G) (flow : Flow G) (g : G) (scope : Scope) {trail : Trail}
    (fits : flow.Fits trail) :
    let stops := Flow.stops trail flow scope
    (stops.Nodup ∧ ∀ s ∈ stops, ∀ s' ∈ stops, s ≠ s' →
        (∀ status, s.step.Admits status →
          flow.Returns (fun settled => flow.Fits settled ∧ s' ∈ Flow.stops settled flow scope)
            (s.settle g status trail)) ∧
        ∀ status status' both, s.settle g status trail >>= s'.settle g status' = .ok both ↔
          s'.settle g status' trail >>= s.settle g status = .ok both) ∧
      (∀ chosen, flow.Chosen scope trail chosen →
        flow.Returns (fun settled => flow.Fits settled ∧
            ∀ s ∈ stops, s ∉ chosen.map Prod.fst → s ∈ Flow.stops settled flow scope)
          (Flow.settleAll g chosen trail) ∧
        ∀ chosen', chosen'.Perm chosen → ∀ settled,
          Flow.settleAll g chosen' trail = .ok settled ↔
            Flow.settleAll g chosen trail = .ok settled) ∧
      ∀ p, rules.skipStops g stops trail = .ok p →
        ∃ passed, (∀ s ∈ stops, s ∈ passed ↔ rules.PassesOver g s) ∧
          flow.Chosen scope trail (toSkip passed) ∧
            Flow.settleAll g (toSkip passed) trail = .ok p.1 := by
  intro stops
  refine ⟨⟨Flow.nodup_stops trail flow scope, ?_⟩, ?_, ?_⟩
  · intro s mem s' mem' different
    constructor
    · intro status admits
      refine (Flow.settle_returns (Flow.waits_of_mem_stops mem) admits fits).told.mono ?_
      rintro settled ⟨settles, settled_fits⟩
      exact ⟨settled_fits, Flow.mem_stops_settled mem mem' different settles⟩
    · intro status status' both
      exact Flow.settle_comm mem mem' different both
  · intro chosen h
    constructor
    · exact h.settleAll_returns fits
    · exact fun chosen' same => h.settleAll_perm same
  · intro p skips
    obtain ⟨passed, sub, passed_iff, settles⟩ := skipStops_eq_settleAll skips
    exact ⟨passed, passed_iff, chosen_toSkip sub, settles⟩

/-- All players are asked side by side, and only the second one can go. -/
def asked : Rules Script.Host where
  flows := .ofMain
    (.everyPlayer none [.node (.act ⟨none, none, none, [⟨"go", [], .empty, false⟩]⟩)])
  repertoire := Dict.empty.insert "go" fun _ player =>
    .ok { name := "go", condition := some fun _ => player == ⟨1⟩ }
  config := { maxSteps := 8 }

/-- Two players wait. -/
def asked.waiting : Trail :=
  .cons ⟨none, .parallel [⟨0⟩, ⟨1⟩] [lane, lane] [false, false], none⟩ .nil
where
  lane : Trail := .ofList [⟨none, .sequence 0, none⟩, ⟨none, .action .awaiting, none⟩]

theorem stops_independent_asked :
    let flow := asked.flows.main
    let stops := flow.stops asked.waiting (.ofArgs .empty)
    flow.Fits asked.waiting ∧ ∃ s s', stops = [s, s'] ∧
      (∃ p, asked.skipStops (.fresh 2) stops asked.waiting = .ok p ∧
        ∃ passed, (∀ s ∈ stops, s ∈ passed ↔ asked.PassesOver (.fresh 2) s) ∧
          Flow.settleAll (.fresh 2) (toSkip passed) asked.waiting = .ok p.1) ∧
        ∀ move both,
          s.settle (.fresh 2) .skipped asked.waiting >>= s'.settle (.fresh 2) (.taken move) =
              .ok both ↔
            s'.settle (.fresh 2) (.taken move) asked.waiting >>= s.settle (.fresh 2) .skipped =
              .ok both := by
  intro flow stops
  have fits : flow.Fits asked.waiting := rfl
  obtain ⟨⟨nodup, pair⟩, -, skip⟩ :=
    stops_independent asked flow (.fresh 2) (.ofArgs .empty) fits
  obtain ⟨s, s', stops_eq⟩ : ∃ s s', stops = [s, s'] := ⟨_, _, rfl⟩
  have different : s ≠ s' := by
    rw [show flow.stops asked.waiting _ = [s, s'] from stops_eq] at nodup
    simpa using nodup
  have mem : s ∈ stops := by simp [stops_eq]
  have mem' : s' ∈ stops := by simp [stops_eq]
  refine ⟨fits, s, s', stops_eq, ⟨_, rfl, ?_⟩, fun move => (pair s mem s' mem' different).2 _ _⟩
  obtain ⟨passed, passed_iff, -, settles⟩ := skip _ rfl
  exact ⟨passed, passed_iff, settles⟩

end Rules

end Tabletop
