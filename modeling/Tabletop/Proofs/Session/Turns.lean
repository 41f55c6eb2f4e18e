import Tabletop.Proofs.Action.Search
import Tabletop.Proofs.Session.Rest
import Tabletop.Proofs.Session.Runs
import Tabletop.Script.Host

/-! # Whose turn it is

A player can act at a stop if the player may move there and can do something. The
players who are awaited can act at some stop; the menu of a player is that of the first
stop where the player may move. After play there is somebody to wait for, unless all
stops are optional ones at which nobody may move.

Main statements: `awaited_iff_menu` and `awaited_of_rests`.
-/

namespace Tabletop

variable {G : Type}

/-! ### Lists of checked results -/

theorem mem_of_filterAuxM_eq_ok {ε α : Type} {f : α → Except ε Bool} {xs kept ys : List α} {y : α}
    (h : xs.filterAuxM f kept = .ok ys) : y ∈ ys ↔ y ∈ kept ∨ y ∈ xs ∧ f y = .ok true := by
  induction xs generalizing kept with
  | nil =>
      cases h
      simp
  | cons x xs ih =>
      obtain ⟨keep, first, later⟩ := bind_eq_ok.1 h
      rw [ih later]
      cases keep with
      | true =>
          simp only [cond_true, List.mem_cons]
          constructor
          · rintro ((rfl | mem) | mem)
            · exact .inr ⟨.inl rfl, first⟩
            · exact .inl mem
            · exact .inr ⟨.inr mem.1, mem.2⟩
          · rintro (mem | ⟨rfl | mem, holds⟩)
            · exact .inl (.inr mem)
            · exact .inl (.inl rfl)
            · exact .inr ⟨mem, holds⟩
      | false =>
          simp only [cond_false, List.mem_cons]
          constructor
          · rintro (mem | mem)
            · exact .inl mem
            · exact .inr ⟨.inr mem.1, mem.2⟩
          · rintro (mem | ⟨rfl | mem, holds⟩)
            · exact .inl mem
            · rw [first] at holds
              cases holds
            · exact .inr ⟨mem, holds⟩

theorem mem_of_filterM_eq_ok {ε α : Type} {f : α → Except ε Bool} {xs ys : List α} {y : α}
    (h : xs.filterM f = .ok ys) : y ∈ ys ↔ y ∈ xs ∧ f y = .ok true := by
  obtain ⟨kept, filters, h⟩ := bind_eq_ok.1 h
  cases h
  simp [mem_of_filterAuxM_eq_ok filters]

/-- Every player has a seat among all of them. -/
theorem Player.mem_all (player : Player) : player ∈ Player.all := by
  refine List.mem_map.2 ⟨player.seat.toNat, List.mem_range.2 player.seat.toNat_lt, ?_⟩
  simp

/-! ### Stops -/

namespace Stop

variable [Game G] {s : Stop G} {r : Repertoire G} {g : G} {player : Player}

/-- The player is among those who may move at the stop. -/
def Admits (s : Stop G) (g : G) (player : Player) : Prop :=
  ∃ players, s.eligible g = .ok players ∧ player ∈ players

/-- The player may move at the stop and can do something there. -/
structure CanAct (s : Stop G) (r : Repertoire G) (g : G) (player : Player) : Prop where
  admits : s.Admits g player
  playable : s.isPlayable r g player = .ok true

theorem exists_canAct_of_anyPlayable {players : List Player} (eligible : s.eligible g = .ok players)
    (h : s.anyPlayable r g players = .ok true) : ∃ player, s.CanAct r g player := by
  have found : ∀ some_players : List Player, s.anyPlayable r g some_players = .ok true →
      ∃ player ∈ some_players, s.isPlayable r g player = .ok true := by
    intro some_players h
    induction some_players with
    | nil => cases h
    | cons player rest ih =>
        obtain ⟨playable, first, h⟩ := bind_eq_ok.1 h
        cases playable with
        | true => exact ⟨player, List.mem_cons_self, first⟩
        | false =>
            obtain ⟨player', mem, later⟩ := ih h
            exact ⟨player', List.mem_cons_of_mem _ mem, later⟩
  obtain ⟨player, mem, playable⟩ := found players h
  exact ⟨player, ⟨players, eligible, mem⟩, playable⟩

theorem admits_of_findFor {stops : List (Stop G)} (h : findFor g player stops = .ok (some s)) :
    s.Admits g player := by
  induction stops with
  | nil => cases h
  | cons first rest ih =>
      obtain ⟨players, eligible, h⟩ := bind_eq_ok.1 h
      by_cases mem : player ∈ players
      · rw [if_pos (List.contains_iff_mem.2 mem)] at h
        cases h
        exact ⟨players, eligible, mem⟩
      · rw [if_neg (by simpa using mem)] at h
        exact ih h

/-- No stop is found for a player who may not move at any of them. -/
theorem findFor_eq_none {stops : List (Stop G)} (h : findFor g player stops = .ok none) :
    ∀ s ∈ stops, ¬s.Admits g player := by
  induction stops with
  | nil => simp
  | cons first rest ih =>
      obtain ⟨players, eligible, h⟩ := bind_eq_ok.1 h
      by_cases mem : player ∈ players
      · rw [if_pos (List.contains_iff_mem.2 mem)] at h
        cases h
      · rw [if_neg (by simpa using mem)] at h
        refine List.forall_mem_cons.2 ⟨?_, ih h⟩
        rintro ⟨players', eligible', mem'⟩
        obtain rfl : players = players' := Except.ok.inj (eligible.symm.trans eligible')
        exact mem mem'

end Stop

/-! ### Menus -/

section Menus

variable {a : Action G} {s : Stop G} {r : Repertoire G} {g : G} {player : Player} {args : Args}

/-- An action that is open offers at least one move. -/
theorem Repertoire.open?_ne_nil {entry : StepAction G (Flow G)} {found : Action G × List OpenMove}
    (h : r.open? g player entry args = .ok (some found)) : found.2 ≠ [] := by
  obtain ⟨action, -, h⟩ := bind_eq_ok.1 h
  cases action with
  | none => cases h
  | some action =>
      obtain ⟨moves, opens, rfl⟩ := Option.map_eq_some_iff.1 (Except.ok.inj h)
      obtain ⟨-, found⟩ := Action.openMoves_eq_some.1 opens
      obtain ⟨m, rfl, -⟩ := Action.reaches_of_searchAmong found
      exact List.cons_ne_nil _ _

theorem Menu.Entries.moves_eq_nil {entries : Menu.Entries} {prompt : Option String}
    (folded : ∀ e ∈ entries.folded, e.2 ≠ []) :
    entries.moves prompt = [] ↔ entries.listed = [] ∧ entries.folded = [] := by
  obtain ⟨listed, choices⟩ := entries
  unfold moves
  rcases choices with _ | ⟨first, _ | ⟨second, rest⟩⟩
  · simp
  · simpa using fun _ => folded first List.mem_cons_self
  · simp

namespace Stop

/-- The entries of a menu are those of the actions that are open. There is none if and
only if no action is, and the folded ones have moves. -/
theorem anyOpen_of_entries {actions : List (StepAction G (Flow G))} {entries : Menu.Entries}
    (h : Stop.entries r g player none .empty actions = .ok entries) :
    (∀ e ∈ entries.folded, e.2 ≠ []) ∧
      r.anyOpen g player actions = .ok !(entries.listed.isEmpty && entries.folded.isEmpty) := by
  induction actions generalizing entries with
  | nil =>
      cases h
      exact ⟨by simp, rfl⟩
  | cons entry rest ih =>
      simp only [Stop.entries, Option.any_none, Bool.false_eq_true, if_false] at h
      obtain ⟨found, opens, h⟩ := bind_eq_ok.1 h
      obtain ⟨later, entries_later, h⟩ := bind_eq_ok.1 h
      obtain ⟨folded, any_later⟩ := ih entries_later
      simp only [Repertoire.anyOpen, opens]
      cases found with
      | none =>
          cases h
          exact ⟨folded, any_later⟩
      | some found =>
          have some_move := Repertoire.open?_ne_nil opens
          obtain ⟨action, moves⟩ := found
          dsimp only at h
          split at h
          · cases h
            exact ⟨folded, by simp [bind, Except.bind, pure, Except.pure, some_move]⟩
          · cases h
            exact ⟨List.forall_mem_cons.2 ⟨some_move, folded⟩, by
              simp [bind, Except.bind, pure, Except.pure]⟩

/-- A menu shows something if and only if the player can do something at the stop. -/
theorem isPlayable_of_menu? {menu : Option Menu} (h : s.menu? r g player none none = .ok menu) :
    s.isPlayable r g player = .ok menu.isSome := by
  obtain ⟨entries, shown, h⟩ := bind_eq_ok.1 h
  have given : (if (none : Option String).isSome || s.step.actions.length == 1 then
      (none : Option Args).getD .empty else .empty) = .empty := by
    split <;> rfl
  rw [given] at shown
  obtain ⟨folded, any⟩ := anyOpen_of_entries shown
  have moves_eq_nil := @Menu.Entries.moves_eq_nil entries s.step.prompt folded
  cases h
  unfold isPlayable
  cases optional : s.step.isOptional with
  | true => simp
  | false =>
      rw [any]
      by_cases none_open : entries.listed = [] ∧ entries.folded = []
      · simp [none_open, moves_eq_nil.2 none_open]
      · have some_move := mt moves_eq_nil.1 none_open
        have some_entry : (entries.listed.isEmpty && entries.folded.isEmpty) = false := by
          simpa using none_open
        simp [some_entry, some_move]

end Stop

end Menus

/-! ### Awaited players -/

namespace Rules

variable [Game G] {rules : Rules G} {t t' : Table G} {players : List Player} {player : Player}

theorem mem_playersAt {s : Stop G} (h : rules.playersAt t s = .ok players) :
    player ∈ players ↔ s.CanAct rules.repertoire t.game player := by
  obtain ⟨eligible, eligible_eq, filters⟩ := bind_eq_ok.1 h
  rw [mem_of_filterM_eq_ok filters]
  constructor
  · rintro ⟨mem, playable⟩
    exact ⟨⟨eligible, eligible_eq, mem⟩, playable⟩
  · rintro ⟨⟨eligible', eligible_eq', mem⟩, playable⟩
    obtain rfl : eligible = eligible' := Except.ok.inj (eligible_eq.symm.trans eligible_eq')
    exact ⟨mem, playable⟩

/-- The awaited players are those who can act at some stop. -/
theorem mem_awaitingPlayers (h : rules.awaitingPlayers t = .ok players) :
    player ∈ players ↔ ∃ s ∈ rules.stopsNow t, s.CanAct rules.repertoire t.game player := by
  obtain ⟨found, maps, h⟩ := bind_eq_ok.1 h
  cases h
  simp only [List.mem_filter, Player.mem_all, true_and, List.contains_iff_mem, List.mem_flatten,
    mem_of_mapM_eq_ok maps]
  constructor
  · rintro ⟨those, ⟨s, mem, at_stop⟩, mem_those⟩
    exact ⟨s, mem, (mem_playersAt at_stop).1 mem_those⟩
  · rintro ⟨s, mem, acts⟩
    obtain ⟨those, at_stop⟩ := exists_of_mapM_eq_ok maps s mem
    exact ⟨those, ⟨s, mem, at_stop⟩, (mem_playersAt at_stop).2 acts⟩

/-- Where the awaited players are told, it is known who may move at each stop. -/
theorem eligible_of_awaitingPlayers (h : rules.awaitingPlayers t = .ok players) :
    ∀ s ∈ rules.stopsNow t, ∃ those, s.eligible t.game = .ok those := by
  intro s mem
  obtain ⟨found, maps, -⟩ := bind_eq_ok.1 h
  obtain ⟨acting, at_stop⟩ := exists_of_mapM_eq_ok maps s mem
  obtain ⟨those, eligible, -⟩ := bind_eq_ok.1 at_stop
  exact ⟨those, eligible⟩

/-- The first stop where the player may move offers the player nothing, though the
player can act at another one. -/
def Overlooks (rules : Rules G) (t : Table G) (player : Player) : Prop :=
  ∃ s, Stop.findFor t.game player (rules.stopsNow t) = .ok (some s) ∧
    s.isPlayable rules.repertoire t.game player = .ok false ∧
      ∃ s' ∈ rules.stopsNow t, s'.CanAct rules.repertoire t.game player

/-- A player with a menu is awaited. A player who is awaited has a menu, unless the
first stop where the player may move offers nothing and a later one does. -/
theorem awaited_iff_menu {menu : Option Menu} (awaits : rules.awaitingPlayers t = .ok players)
    (shows : rules.menu? t player none none = .ok menu) :
    (menu.isSome → player ∈ players) ∧
      ((player ∈ players ↔ menu.isSome) ↔ ¬rules.Overlooks t player) := by
  obtain ⟨found, finds, at_stop⟩ := bind_eq_ok.1 shows
  rw [mem_awaitingPlayers awaits]
  cases found with
  | none =>
      cases at_stop
      have nowhere := Stop.findFor_eq_none finds
      have not_awaited : ¬∃ s ∈ rules.stopsNow t, s.CanAct rules.repertoire t.game player := by
        rintro ⟨s, mem, acts⟩
        exact nowhere s mem acts.admits
      have not_overlooked : ¬rules.Overlooks t player := by
        rintro ⟨s, finds', -⟩
        rw [finds] at finds'
        cases finds'
      simp [not_awaited, not_overlooked]
  | some s =>
      have playable := Stop.isPlayable_of_menu? at_stop
      cases shown : menu.isSome with
      | true =>
          rw [shown] at playable
          have awaited : ∃ s ∈ rules.stopsNow t, s.CanAct rules.repertoire t.game player :=
            ⟨s, mem_of_findFor finds, Stop.admits_of_findFor finds, playable⟩
          have not_overlooked : ¬rules.Overlooks t player := by
            rintro ⟨s', finds', nothing, -⟩
            obtain rfl : s = s' := by simpa [finds] using finds'
            rw [playable] at nothing
            cases nothing
          simp [awaited, not_overlooked]
      | false =>
          rw [shown] at playable
          have overlooked : rules.Overlooks t player ↔
              ∃ s ∈ rules.stopsNow t, s.CanAct rules.repertoire t.game player := by
            constructor
            · rintro ⟨-, -, -, acts⟩
              exact acts
            · exact fun acts => ⟨s, finds, playable, acts⟩
          simp [overlooked]

/-- Side by side, the players are asked to do one thing after the other; each may answer
for the other one as well. Only the second player can do the second thing. -/
def crossing : Rules Script.Host where
  flows := .ofMain (.everyPlayer none [.node (.act (offer "first")), .node (.act (offer "second"))])
  repertoire :=
    (Dict.empty.insert "first" fun _ _ => .ok { name := "first" }).insert "second"
      fun _ player => .ok { name := "second", condition := some fun _ => player == ⟨1⟩ }
  config := { maxSteps := 8 }
where
  offer (name : String) : ActionStep Script.Host (Flow Script.Host) :=
    ⟨some fun _ _ => .ok [⟨0⟩, ⟨1⟩], none, none, [⟨name, [], .empty, false⟩]⟩

/-- After the first player's own first answer, the first stop where that player may move
is for the second thing. The player could answer for the other one, and is awaited, but
has no menu. -/
theorem awaited_without_menu_crossing :
    let after := crossing.runAll [.start, .play, .submit ⟨⟨0⟩, "first", .empty⟩]
      ⟨.new crossing.config, .fresh 2⟩
    Replied after.1 ∧ crossing.awaitingPlayers after.2 = .ok [⟨0⟩, ⟨1⟩] ∧
      crossing.menu? after.2 ⟨0⟩ none none = .ok none := by
  intro after
  refine ⟨?_, by decide +kernel, by decide +kernel⟩
  unfold Replied
  decide +kernel

/-- At the start both things are as they should be: the first player is awaited and has a
menu. -/
theorem awaited_iff_menu_crossing :
    let t := (crossing.runAll [.start, .play] ⟨.new crossing.config, .fresh 2⟩).2
    let menu : Menu := ⟨none, none, [⟨"first", .empty, []⟩]⟩
    crossing.awaitingPlayers t = .ok [⟨0⟩, ⟨1⟩] ∧
      crossing.menu? t ⟨0⟩ none none = .ok (some menu) ∧ ¬crossing.Overlooks t ⟨0⟩ := by
  intro t menu
  have awaits : crossing.awaitingPlayers t = .ok [⟨0⟩, ⟨1⟩] := by decide +kernel
  have shows : crossing.menu? t ⟨0⟩ none none = .ok (some menu) := by decide +kernel
  exact ⟨awaits, shows, (awaited_iff_menu awaits shows).2.1 (by decide)⟩

/-- After play, or after a move that was accepted, the game is over or somebody is
awaited, but for one case: all stops are optional ones where nobody may move. -/
theorem awaits_unless_unattended
    (plays : rules.play.on t = (.ok (), t') ∨ ∃ move, (rules.submit move).on t = (.ok none, t'))
    (awaits : rules.awaitingPlayers t' = .ok players) :
    (t'.session.status = .finished ∨ players ≠ []) ↔ t'.session.status = .finished ∨
      ∃ s ∈ rules.stopsNow t', ¬(s.step.isOptional ∧ s.eligible t'.game = .ok []) := by
  have rests : rules.Rests t' := by
    rcases plays with plays | ⟨move, submits⟩
    · exact rests_of_play plays
    · exact rests_of_submit submits
  by_cases finished : t'.session.status = .finished
  · simp [finished]
  have some_awaited : players ≠ [] ↔
      ∃ player, ∃ s ∈ rules.stopsNow t', s.CanAct rules.repertoire t'.game player := by
    constructor
    · intro nonempty
      obtain ⟨player, mem⟩ := List.exists_mem_of_ne_nil _ nonempty
      exact ⟨player, (mem_awaitingPlayers awaits).1 mem⟩
    · rintro ⟨player, acts⟩
      exact List.ne_nil_of_mem ((mem_awaitingPlayers awaits).2 acts)
  simp only [finished, false_or, some_awaited]
  constructor
  · rintro ⟨player, s, mem, ⟨those, eligible, admitted⟩, -⟩
    refine ⟨s, mem, ?_⟩
    rintro ⟨-, nobody⟩
    obtain rfl : those = [] := Except.ok.inj (eligible.symm.trans nobody)
    cases admitted
  · rintro ⟨s, mem, attended⟩
    rcases (rests.stopsNow finished).2 s mem with optional | ⟨those, eligible, playable⟩
    · obtain ⟨those, eligible⟩ := eligible_of_awaitingPlayers awaits s mem
      have somebody : those ≠ [] := by
        rintro rfl
        exact attended ⟨optional, eligible⟩
      obtain ⟨player, admitted⟩ := List.exists_mem_of_ne_nil _ somebody
      exact ⟨player, s, mem, ⟨those, eligible, admitted⟩, by simp [Stop.isPlayable, optional]⟩
    · obtain ⟨player, acts⟩ := Stop.exists_canAct_of_anyPlayable eligible playable
      exact ⟨player, s, mem, acts⟩

/-- An optional step for which nobody is named. -/
def unattended : Rules Script.Host where
  flows := .ofMain (.act ⟨some fun _ _ => .ok [], none, some "Done", [⟨"go", [], .empty, false⟩]⟩)
  repertoire := Dict.empty.insert "go" fun _ _ => .ok { name := "go" }
  config := { maxSteps := 8 }

/-- The optional step is left to players of whom there is none: the game is not over, and
nobody is awaited. -/
theorem awaits_nobody_unattended :
    let after := unattended.runAll [.start, .play] ⟨.new unattended.config, .fresh 2⟩
    Replied after.1 ∧ after.2.session.status = .playing ∧
      unattended.awaitingPlayers after.2 = .ok [] := by
  intro after
  refine ⟨?_, by decide +kernel, by decide +kernel⟩
  unfold Replied
  decide +kernel

/-- The steps of `crossing` are attended. -/
theorem awaits_unless_unattended_crossing :
    let t := (crossing.start.on ⟨.new crossing.config, .fresh 2⟩).2
    let t' := (crossing.play.on t).2
    crossing.play.on t = (.ok (), t') ∧ crossing.awaitingPlayers t' = .ok [⟨0⟩, ⟨1⟩] ∧
      (t'.session.status = .finished ∨
        ∃ s ∈ crossing.stopsNow t', ¬(s.step.isOptional ∧ s.eligible t'.game = .ok [])) := by
  intro t t'
  have plays : crossing.play.on t = (.ok (), t') := Drive.on_eq_of_fst (by decide +kernel)
  have awaits : crossing.awaitingPlayers t' = .ok [⟨0⟩, ⟨1⟩] := by decide +kernel
  exact ⟨plays, awaits, (awaits_unless_unattended (.inl plays) awaits).1 (.inr (by simp))⟩

end Rules

end Tabletop
